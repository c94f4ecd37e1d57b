import FrameMachine.Proofs.Courses

/-!
# Live frames of a hosted machine

A machine that is only used through invocations is idle between them: its root
frame is active and has never been touched.  During an invocation, at any depth of
reentrancy, the frames above the root run functions of the program, their windows
lie in order below the stack pointer, and each caller rests on the call of the frame
above it.

Main results:

- Theorem `Occupies.exists_activation`: every slot in use holds the frame of an
  activation.
- Theorem `Hosted.idle`: a hosted machine is idle, as long as it is not poisoned.
- Theorem `Hosted.wellStacked`: whatever its invocations visit is well stacked.
-/

namespace FrameMachine

/-! ## Slots in use -/

section Slots

variable {program : Program} {frames : Array Frame} {depth floor limit : Nat}
  {function : UInt16} {a b : Activation program} {upper below live : List (Activation program)}

/-- Every slot in use holds the frame of an activation, with the activations of the slots
below it behind it in the list. -/
theorem Occupies.exists_activation (h : Occupies frames depth live) {i : Nat} (hi : depth < i)
    (hle : i ≤ depth + live.length) :
    ∃ upper a below, live = upper ++ a :: below ∧ i = depth + below.length + 1 ∧
      frames[i]? = some a.frame ∧ Occupies frames depth below := by
  induction live with
  | nil =>
      simp only [List.length_nil] at hle
      omega
  | cons a below ih =>
      by_cases htop : i = depth + below.length + 1
      · exact ⟨[], a, below, rfl, htop, htop ▸ h.1, h.2⟩
      · simp only [List.length_cons] at hle
        rcases ih h.2 (by omega) with ⟨upper, c, rest, rfl, hindex, hframe, hrest⟩
        exact ⟨a :: upper, c, rest, rfl, hindex, hframe, hrest⟩

/-- The frames below a live frame are packed below its window. -/
theorem Packed.append (h : Packed floor (upper ++ a :: below) limit) :
    Packed floor below a.base := by
  induction upper generalizing limit with
  | nil => exact h.2
  | cons b upper ih => exact ih h.2

/-- The caller of a live frame rests on the call of that frame. -/
theorem Called.append (h : Called function floor (upper ++ b :: a :: below)) :
    ∃ i, a.instruction? = some i ∧ (i.opcode = .call ∨ i.opcode = .callback) ∧
      i.a = b.function := by
  induction upper with
  | nil =>
      cases h with
      | call hinstruction hopcode hcallee _ => exact ⟨_, hinstruction, Or.inl hopcode, hcallee⟩
      | callback hinstruction hopcode hcallee _ _ =>
          exact ⟨_, hinstruction, Or.inr hopcode, hcallee⟩
  | cons c upper ih =>
      cases upper with
      | nil =>
          cases h with
          | call _ _ _ h => exact ih h
          | callback _ _ _ _ h => exact ih h
      | cons d upper =>
          cases h with
          | call _ _ _ h => exact ih h
          | callback _ _ _ _ h => exact ih h

end Slots

namespace Machine

/-! ## Machines between invocations -/

/-- The machines that a host has: fresh ones, and what invocations with the reference
engine leave behind. -/
inductive Hosted (program : Program) : Machine → Prop
  | create {c : Config} (h : c.validate = .ok ()) : Hosted program (ofConfig c)
  | invoke {m : Machine} {function : UInt16} {inputs : List Bytes} {interpreter : Interpreter}
      {reply : Reply Interpreter} (h : Hosted program m)
      (hreply : m.invoke program (Interpreter.run program) function inputs interpreter =
        some reply) : Hosted program reply.machine

/-- A machine whose root frame is active and untouched. -/
structure Idle (m : Machine) : Prop where
  active_eq : m.stack.activeIndex = 0
  root_eq : m.stack.frame? 0 = some {}

section Hosted

variable {program : Program} {m : Machine} {function : UInt16} {inputs : List Bytes}
  {interpreter : Interpreter} {reply : Reply Interpreter}

/-- Hosted machines can be reached. -/
theorem Hosted.reachable (h : Hosted program m) : Reachable program m := by
  induction h with
  | create h => exact .create h
  | invoke _ hreply ih =>
      apply ih.invoke ?_ hreply
      intro engine n start returnTo back hn hrun
      exact hn.run hrun

theorem idle_ofConfig (c : Config) : (ofConfig c).Idle where
  active_eq := rfl
  root_eq := by
    simp only [ofConfig, CallStack.frame?, CallStack.empty]
    rw [Array.getElem?_replicate, if_pos (by omega)]

/-- An invocation that leaves its machine unpoisoned leaves the active frame active. -/
theorem Sound.activeIndex_invoke (h : m.Sound)
    (hreply : m.invoke program (Interpreter.run program) function inputs interpreter =
      some reply)
    (hpoisoned : reply.machine.poisoned = false) :
    reply.machine.stack.activeIndex = m.stack.activeIndex := by
  rw [invoke_eq h] at hreply
  cases haccept : accept program m function inputs with
  | error reason =>
      rw [haccept] at hreply
      cases hreply
      rfl
  | ok d =>
      rw [haccept] at hreply
      rcases accept_eq_ok_iff.mp haccept with ⟨hfresh, routine, hroutine, rfl, hmisfit, -⟩
      dsimp only at hreply
      cases hroom : m.shortage routine.descriptor.size.toNat with
      | some need =>
          rw [hroom] at hreply
          cases hreply
          rfl
      | none =>
          rw [hroom] at hreply
          rcases Option.map_eq_some_iff.mp hreply with ⟨back, hrun, rfl⟩
          have hend := Interpreter.run_coherent
            ((h.coherent_entering hfresh hroutine hroom inputs).note _) hrun
          rcases back with ⟨verdict, engine, m'⟩
          cases verdict with
          | error cause => contradiction
          | ok _ =>
              rcases hend with ⟨a, m'', hlast, hmachine⟩
              dsimp only at hmachine
              subst hmachine
              have hdone := conclude_eq hlast hroutine hmisfit
                m.stack.active.instructionPointer engine
              have hactive := hlast.layout.pop.active_eq
              have hdone := congrArg (fun reply => reply.machine.stack.activeIndex) hdone
              refine hdone.trans ?_
              simpa [leaving, CallStack.jump] using hactive

/-- A poisoned machine refuses an invocation and stays as it is. -/
theorem unpoisoned_of_invoke
    (hreply : m.invoke program (Interpreter.run program) function inputs interpreter =
      some reply)
    (hpoisoned : reply.machine.poisoned = false) : m.poisoned = false := by
  cases hbefore : m.poisoned with
  | false => rfl
  | true =>
      have haccept : accept program m function inputs = .error .poisoned := by
        rw [accept, if_pos hbefore]
      simp only [invoke, enter_eq, haccept] at hreply
      cases hreply
      exact hbefore.symm.trans hpoisoned

/-- A hosted machine is idle, as long as it is not poisoned. -/
theorem Hosted.idle (h : Hosted program m) (hpoisoned : m.poisoned = false) : m.Idle := by
  induction h with
  | create _ => exact idle_ofConfig _
  | @invoke m function inputs interpreter reply h hreply ih =>
      have hidle := ih (unpoisoned_of_invoke hreply hpoisoned)
      have hsheltered := sheltered_invoke hreply
      constructor
      · exact (h.reachable.sound.activeIndex_invoke hreply hpoisoned).trans hidle.active_eq
      · exact (hsheltered.frames_eq 0 (Nat.zero_le _)).trans hidle.root_eq

end Hosted

/-! ## Well-stacked machines -/

/-- The root frame is untouched, and all frames above it are those of functions of the
program that wait for each other, with their windows in order below the stack pointer. -/
structure WellStacked (program : Program) (m : Machine) : Prop where
  root_eq : m.stack.frame? 0 = some {}
  running : ∀ i, 0 < i → i ≤ m.stack.activeIndex →
    ∃ frame operator routine, Interpreter.running? program m i = some (frame, operator, routine)
  stacked : ∀ i j w v, 0 < i → i < j → j ≤ m.stack.activeIndex →
    m.window? program i = some w → m.window? program j = some v → w.base + w.size ≤ v.base
  below_pointer : ∀ w, m.activeWindow? program = some w →
    w.base + w.size ≤ m.arena.stackPointer
  pointer_le : m.arena.stackPointer ≤ m.arena.capacity
  waiting : ∀ i, 0 < i → i < m.stack.activeIndex →
    ∃ frame operator routine j callee, Interpreter.running? program m i =
        some (frame, operator, routine) ∧
      routine.code[frame.instructionPointer]? = some j ∧
      (j.opcode = .call ∨ j.opcode = .callback) ∧
      m.stack.frame? (i + 1) = some callee ∧ callee.operator = some j.a

section WellStacked

variable {program : Program} {m : Machine} {function : UInt16} {inputs : List Bytes}
  {interpreter : Interpreter} {x : Interpreter.Execution} {floor : Nat}
  {live : List (Activation program)}

/-- Coherent frames above an untouched root are well stacked. -/
theorem wellStacked_of_coherent {suspended : List Interpreter.Suspension}
    (h : Interpreter.Coherent function 0 floor live m suspended)
    (hroot : m.stack.frame? 0 = some {}) : m.WellStacked program where
  root_eq := hroot
  running := by
    intro i hi hle
    rw [h.layout.active_eq] at hle
    rcases h.layout.occupies.exists_activation hi hle with ⟨_, a, _, -, -, hframe, -⟩
    exact ⟨a.frame, a.function, a.routine,
      Interpreter.running?_eq_some_iff.mpr ⟨hframe, rfl, a.routine_eq⟩⟩
  stacked := by
    intro i j w v hi hij hle hw hv
    rw [h.layout.active_eq] at hle
    rcases h.layout.occupies.exists_activation (Nat.lt_trans hi hij) hle with
      ⟨upper, b, rest, rfl, hj, hframe, hrest⟩
    rcases hrest.exists_activation hi (by omega) with ⟨upper', a, below, rfl, -, hframe', -⟩
    rw [window?_eq hframe, Option.some.injEq] at hv
    rw [window?_eq hframe', Option.some.injEq] at hw
    subst hv
    subst hw
    exact (h.layout.packed.append.window_bounds (by simp)).2
  below_pointer := by
    intro w hw
    cases live with
    | nil => cases h.called
    | cons a below =>
        rw [activeWindow?, window?_eq h.layout.frame_eq, Option.some.injEq] at hw
        exact hw ▸ h.layout.packed.1
  pointer_le := h.layout.sound.stackPointer_le
  waiting := by
    intro i hi hlt
    have hle := hlt
    rw [h.layout.active_eq] at hle
    rcases h.layout.occupies.exists_activation (Nat.succ_pos i) hle with
      ⟨upper, b, rest, rfl, hindex, hframe, hrest⟩
    cases rest with
    | nil =>
        simp only [List.length_nil] at hindex
        omega
    | cons a below =>
        simp only [List.length_cons] at hindex
        rcases h.called.append with ⟨j, hinstruction, hopcode, hcallee⟩
        have hframe' := hrest.1
        rw [show 0 + below.length + 1 = i by omega] at hframe'
        exact ⟨a.frame, a.function, a.routine, j, b.frame,
          Interpreter.running?_eq_some_iff.mpr ⟨hframe', rfl, a.routine_eq⟩, hinstruction, hopcode,
          hframe, congrArg some hcallee.symm⟩

/-- Whatever an invocation of a hosted machine visits, at any depth of reentrancy, is well
stacked: the root frame is untouched, every other live frame runs a function of the
program, the windows lie in order and share no byte, and every caller rests on the call of
the frame above it. -/
theorem Hosted.wellStacked (h : Hosted program m)
    (hvisit : m.Visits program function inputs interpreter x) :
    x.machine.WellStacked program := by
  have hsound := h.reachable.sound
  have hidle : m.Idle := by
    rcases hvisit with ⟨start, _, hstart, -⟩
    rcases exists_of_launch hsound hstart with ⟨routine, -, haccept, -, -⟩
    exact h.idle (accept_eq_ok_iff.mp haccept).1
  rcases hvisit.coherent hsound with ⟨-, a, below, hcoherent⟩
  rw [hidle.active_eq] at hcoherent
  apply wellStacked_of_coherent hcoherent
  exact (hvisit.grown.machine.frames_eq 0 (Nat.zero_le _)).trans hidle.root_eq

/-- At the COPY of the third function, within a reentrant call of the first one. -/
theorem Hosted.wellStacked_relay :
    ∃ x, (ofConfig ⟨24, 5, .release⟩).Visits relay 0 [[42]] {} x ∧
      x.machine.stack.activeIndex = 3 ∧ x.suspended.length = 1 ∧
      x.machine.WellStacked relay := by
  have hstart : ((launch relay 0 [[42]] {} (ofConfig ⟨24, 5, .release⟩)).bind fun start =>
      (Interpreter.reach relay 2 start).map fun x =>
        (x.machine.stack.activeIndex, x.suspended.length)) = some (3, 1) := by
    decide +kernel
  rcases Option.bind_eq_some_iff.mp hstart with ⟨start, hlaunch, hreach⟩
  rcases Option.map_eq_some_iff.mp hreach with ⟨x, hx, heq⟩
  have hvisit : (ofConfig ⟨24, 5, .release⟩).Visits relay 0 [[42]] {} x :=
    ⟨start, 2, hlaunch, hx⟩
  simp only [Prod.mk.injEq] at heq
  exact ⟨x, hvisit, heq.1, heq.2, Hosted.wellStacked (.create (by decide)) hvisit⟩

end WellStacked
end Machine
end FrameMachine
