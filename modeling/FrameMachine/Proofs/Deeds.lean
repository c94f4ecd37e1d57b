import FrameMachine.Proofs.Courses
import FrameMachine.Proofs.Interchange

/-!
# Deeds of instructions

An instruction that goes well does one of three things to the live frames: it works
within the innermost one, it enters a function, or it leaves a function for its
caller.  This file names these *deeds*, says when an instruction does one, and shows
that a step of a coherent execution is the deed of its instruction, whether the
calls are CALLs or CALLBACKs.  A deed may still find something short; that is the
only way in which it can fail.

Main results:

- Theorem `step_of_does`: a step does the deed of its instruction, unless something
  is short.
- Theorem `exists_deed_of_more`: a step that goes on has done a deed.
- Theorem `last_of_ended`: a run ends well with the return of its first frame.
-/

namespace FrameMachine

/-- What an instruction that goes well does to the live frames. -/
inductive Deed (program : Program) where
  /-- The innermost frame stores bytes at an offset and goes on at a position. -/
  | work (position offset : Nat) (bytes : Bytes)
  /-- The innermost frame calls a function. -/
  | enter (function : UInt16) (callee : Routine)
      (hcallee : program.routine? function = some callee) (inputs : List Bytes)
  /-- The innermost frame returns, and its outputs go to an offset of its caller. -/
  | leave (offset : Nat) (outputs : Bytes)

namespace Deed

variable {program : Program}

/-- The live frames after a deed; a new one gets its window at `pointer`. -/
def live (pointer : Nat) : Deed program → List (Activation program) → List (Activation program)
  | .work position _ _, a :: below => a.goto position :: below
  | .enter _ _ hcallee _, live => Activation.entered hcallee pointer :: live
  | .leave _ _, _ :: a :: below => a.next :: below
  | _, live => live

/-- The machine after a deed, but for its journal. -/
def apply (depth : Nat) : Deed program → List (Activation program) → Machine → Machine
  | .work position offset bytes, a :: _, m =>
      (m.modifyArena (Arena.store (a.base + offset) bytes)).modifyStack (CallStack.jump position)
  | .enter function callee _ inputs, _, m => m.entering function callee.descriptor inputs
  | .leave offset outputs, b :: a :: below, m =>
      m.returning (depth + below.length + 1) b.window (a.base + offset) outputs
  | _, _, m => m

/-- What a deed finds short. -/
def shortage? (m : Machine) : Deed program → Option Exhaustion
  | .enter _ callee _ _ => m.shortage callee.descriptor.size.toNat
  | _ => none

end Deed

section Does

variable {program : Program}

/-- Carrying out the plan of a plain instruction leads to a position and stores bytes at
an offset. -/
inductive Works (a : Activation program) : Plan → (position offset : Nat) → Bytes → Prop
  | next : Works a .next (a.position + 1) 0 []
  | goto (target : UInt16) : Works a (.goto target) target.toNat 0 []
  | store {offset : Nat} {bytes : Bytes} (hfit : offset + bytes.length ≤ a.window.size) :
      Works a (.store ⟨a.base + offset, bytes.length⟩ bytes) (a.position + 1) offset bytes

/-- The next instruction of the innermost frame does a deed, if nothing is short. -/
inductive Does (m : Machine) : List (Activation program) → Deed program → Prop
  | work {a : Activation program} {below : List (Activation program)} {i : Instruction}
      {plan : Plan} {position offset : Nat} {bytes : Bytes}
      (hinstruction : a.instruction? = some i) (hplain : i.opcode.transfers = false)
      (hplan : Plan.ofInstruction program m a.site i = .ok plan)
      (hworks : Works a plan position offset bytes) :
      Does m (a :: below) (.work position offset bytes)
  | enter {a : Activation program} {below : List (Activation program)} {i : Instruction}
      {callee : Routine} (hinstruction : a.instruction? = some i)
      (hopcode : i.opcode = .call ∨ i.opcode = .callback)
      (hcallee : program.routine? i.a = some callee)
      (hfit : a.site.outside? (backToBack i.b.toNat callee.descriptor.inputs) = none)
      (hslots : ∀ s ∈ callee.descriptor.inputs,
        s.offset.toNat + s.size.toNat ≤ callee.descriptor.size.toNat)
      (hvalid : i.opcode = .callback → callee.descriptor.misfit? = none) :
      Does m (a :: below) (.enter i.a callee hcallee
        (a.site.parts m (backToBack i.b.toNat callee.descriptor.inputs)))
  | leave {b a : Activation program} {below : List (Activation program)} {j i : Instruction}
      (hreturn : b.instruction? = some j) (hret : j.opcode = .ret)
      (hinstruction : a.instruction? = some i)
      (hpass : Interpreter.passing? b.window a.site i.c.toNat b.routine.descriptor.outputs =
        none) :
      Does m (b :: a :: below) (.leave i.c.toNat (b.outputs m.arena).flatten)

/-- Only the arena decides which deed is done. -/
theorem Does.congr {m m' : Machine} {live : List (Activation program)} {deed : Deed program}
    (h : Does m live deed) (harena : m'.arena = m.arena) : Does m' live deed := by
  rcases m with ⟨arena, stack, reclaim, poisoned, journal⟩
  rcases m' with ⟨arena', stack', reclaim', poisoned', journal'⟩
  dsimp only at harena
  subst harena
  cases h with
  | work hinstruction hplain hplan hworks => exact .work hinstruction hplain hplan hworks
  | enter hinstruction hopcode hcallee hfit hslots hvalid =>
      exact .enter hinstruction hopcode hcallee hfit hslots hvalid
  | leave hreturn hret hinstruction hpass => exact .leave hreturn hret hinstruction hpass

/-- A deed is that of an instruction of the innermost frame. -/
theorem Does.exists_instruction {m : Machine} {live : List (Activation program)}
    {deed : Deed program} (h : Does m live deed) :
    ∃ a below i, live = a :: below ∧ a.instruction? = some i := by
  cases h with
  | work hinstruction _ _ _ => exact ⟨_, _, _, rfl, hinstruction⟩
  | enter hinstruction _ _ _ _ _ => exact ⟨_, _, _, rfl, hinstruction⟩
  | leave hreturn _ _ _ => exact ⟨_, _, _, rfl, hreturn⟩

end Does

namespace Interpreter

open Machine

section Deeds

variable {program : Program} {function : UInt16} {depth floor : Nat}
  {a b : Activation program} {below live : List (Activation program)} {m : Machine}
  {suspended : List Suspension} {i j : Instruction} {deed : Deed program} {x y : Execution}

/-! ## The machine after a deed -/

/-- Notes have no part in what a deed makes of a machine. -/
theorem clearJournal_apply_note (deed : Deed program) (depth : Nat)
    (live : List (Activation program)) (m : Machine) (e : Event) :
    (deed.apply depth live (m.note e)).clearJournal =
      (deed.apply depth live m).clearJournal := by
  cases deed with
  | work position offset bytes => cases live <;> rfl
  | enter function callee hcallee inputs => rfl
  | leave offset outputs =>
      match live with
      | [] => rfl
      | [_] => rfl
      | b :: a :: below =>
          simp only [Deed.apply]
          rw [clearJournal_returning, clearJournal_note, ← clearJournal_returning]

/-! ## Coherence after a deed -/

/-- An execution of an invocation by the frame `depth` that is coherent along `live`. -/
structure CoherentAlong (function : UInt16) (depth floor : Nat)
    (live : List (Activation program)) (x : Execution) : Prop where
  returnTo_eq : x.returnTo = depth
  coherent : Coherent function depth floor live x.machine x.suspended

/-- An execution has done a deed: it has counted one instruction, its machine is the one
after the deed, and it is coherent along the live frames after the deed. -/
structure Done (function : UInt16) (depth floor : Nat) (deed : Deed program)
    (live : List (Activation program)) (x y : Execution) : Prop where
  interpreter_eq : y.interpreter = x.interpreter.charge
  machine_eq : y.machine.clearJournal = (deed.apply depth live x.machine).clearJournal
  along : CoherentAlong function depth floor
    (deed.live x.machine.arena.stackPointer live) y

/-- A deed that finds nothing short keeps a machine coherent. -/
theorem Coherent.does (h : Coherent function depth floor live m suspended)
    (hdoes : Does m live deed) (hroom : deed.shortage? m = none) :
    Coherent function depth floor (deed.live m.arena.stackPointer live)
      (deed.apply depth live m)
      (suspensions depth (deed.live m.arena.stackPointer live)) := by
  cases hdoes with
  | @work a _ _ _ position offset bytes _ _ _ _ =>
      have hnext := (h.store (a.base + offset) bytes).jump position
      exact hnext.suspended_eq ▸ hnext
  | @enter a _ i callee hinstruction hopcode hcallee _ _ hvalid =>
      rcases hopcode with hopcode | hopcode
      · have hnext := h.entering_call hinstruction hopcode hcallee hroom
          (a.site.parts m (backToBack i.b.toNat callee.descriptor.inputs))
        exact hnext.suspended_eq ▸ hnext
      · have hnext := h.entering_callback hinstruction hopcode hcallee (hvalid hopcode) hroom
          (a.site.parts m (backToBack i.b.toNat callee.descriptor.inputs))
        exact hnext.suspended_eq ▸ hnext
  | @leave b a _ _ i _ _ _ _ =>
      have hnext := h.returning (a.base + i.c.toNat) (b.outputs m.arena).flatten
      exact hnext.suspended_eq ▸ hnext

/-! ## What a deed leads to -/

/-- A plain instruction. -/
theorem settle_does_work (h : Coherent function depth floor (a :: below) m suspended)
    {plan : Plan} {position offset : Nat} {bytes : Bytes}
    (hplan : Plan.ofInstruction program m a.site i = .ok plan)
    (hworks : Works a plan position offset bytes) (interpreter : Interpreter)
    (returnTo : Nat) :
    settle interpreter depth suspended (execute program returnTo a.site i m) =
      .more ⟨interpreter, (m.modifyArena (Arena.store (a.base + offset) bytes)).modifyStack
        (CallStack.jump position), depth, suspensions depth (a.goto position :: below)⟩ := by
  rw [execute_of_plan hplan, suspensions_goto, ← h.suspended_eq]
  cases hworks with
  | next =>
      simp only [carryOut, advance_eq_jump h.layout.frame_eq, settle]
      rfl
  | goto target => rfl
  | store hfit =>
      have hjump := advance_eq_jump (h.layout.store (a.base + offset) bytes).frame_eq
      simp only [carryOut, hjump, settle]
      rfl

/-- An instruction does its deed, unless something is short. -/
theorem settle_does (h : Coherent function depth floor (a :: below) m suspended)
    (hdoes : Does m (a :: below) deed) (hinstruction : a.instruction? = some i)
    (interpreter : Interpreter) :
    (settle interpreter depth suspended
        (execute program (innermostReturn depth suspended) a.site i m)).GoesTo interpreter
      ((deed.shortage? m).map (.exhausted a.location))
      ⟨interpreter, deed.apply depth (a :: below) m, depth,
        suspensions depth (deed.live m.arena.stackPointer (a :: below))⟩ := by
  cases hdoes with
  | work hinstruction' hplain hplan hworks =>
      cases hinstruction.symm.trans hinstruction'
      rw [settle_does_work h hplan hworks]
      exact ⟨_, rfl, rfl⟩
  | enter hinstruction' hopcode hcallee hfit hslots hvalid =>
      cases hinstruction.symm.trans hinstruction'
      exact settle_call_goes h hinstruction hopcode hcallee hfit hslots hvalid interpreter _
  | leave hreturn hret hcaller hpass =>
      cases hinstruction.symm.trans hreturn
      have hleave := settle_ret_goes h hcaller hret interpreter
      rw [hpass, ← suspensions_goto] at hleave
      exact hleave

/-- A step does the deed of its instruction, unless something is short. -/
theorem step_of_does (h : CoherentAlong function depth floor live x)
    (hdoes : Does x.machine live deed) (hgoing : x.interpreter.exhausted = false) :
    match deed.shortage? x.machine with
    | some need => ∃ suspended cause m site,
        step program x = stop x.interpreter.charge suspended cause m ∧
          cause.flatten = .exhausted site need
    | none => ∃ y, step program x = .more y ∧ Done function depth floor deed live x y := by
  rcases x with ⟨interpreter, m, returnTo, suspended⟩
  rcases h with ⟨hreturn, h⟩
  dsimp only at hreturn h hdoes hgoing ⊢
  subst hreturn
  rcases hdoes.exists_instruction with ⟨a, below, i, rfl, hinstruction⟩
  have h' := h.note (.executing m.stack.activeIndex a.location i)
  have hdoes' : Does (m.note (.executing m.stack.activeIndex a.location i)) _ deed :=
    hdoes.congr rfl
  have hgoes := settle_does h' hdoes' hinstruction interpreter.charge
  rw [step_eq h.layout, hinstruction]
  simp only [hgoing, Bool.false_eq_true, if_false]
  have hshort : deed.shortage? (m.note (.executing m.stack.activeIndex a.location i)) =
      deed.shortage? m := by cases deed <;> rfl
  rw [hshort] at hgoes
  cases hneed : deed.shortage? m with
  | some need =>
      rw [hneed] at hgoes
      rcases hgoes with ⟨suspended', cause, m', hstop, hflat⟩
      exact ⟨suspended', cause, m', a.location, hstop, hflat⟩
  | none =>
      rw [hneed] at hgoes hshort
      rcases hgoes with ⟨m', hmore, hm'⟩
      refine ⟨_, hmore, rfl, hm'.trans (clearJournal_apply_note ..), rfl, ?_⟩
      exact (h'.does hdoes' hshort).congr hm'

/-- A run ends well with the return of its first frame. -/
theorem step_of_last (h : CoherentAlong function depth floor [a] x)
    (hinstruction : a.instruction? = some i) (hret : i.opcode = .ret)
    (hgoing : x.interpreter.exhausted = false) :
    ∃ m, step program x =
        .ended ⟨.ok (), x.interpreter.charge, m.modifyStack (CallStack.unwindTo depth)⟩ ∧
      m.clearJournal = x.machine.clearJournal ∧ Coherent function depth floor [a] m [] := by
  rcases x with ⟨interpreter, m, returnTo, suspended⟩
  rcases h with ⟨hreturn, h⟩
  dsimp only at hreturn h hgoing ⊢
  subst hreturn
  have h' := h.note (.executing m.stack.activeIndex a.location i)
  have hsuspended : suspended = [] := h.suspended_eq
  subst hsuspended
  have hlast : execute program (innermostReturn returnTo []) a.site i _ = _ :=
    execute_ret_of_eq h'.layout hret rfl
  rw [step_eq h.layout, hinstruction]
  simp only [hgoing, Bool.false_eq_true, if_false, hlast]
  exact ⟨_, rfl, rfl, h'⟩

/-- An exhausted interpreter stops at the next instruction. -/
theorem step_of_exhausted (h : CoherentAlong function depth floor (a :: below) x)
    (hinstruction : a.instruction? = some i) (hused : x.interpreter.exhausted = true) :
    step program x = stop x.interpreter x.suspended (.fuelExhausted a.location) x.machine := by
  rcases x with ⟨interpreter, m, returnTo, suspended⟩
  rw [step_eq h.coherent.layout, hinstruction]
  simp only at hused
  simp only [hused, if_true]

/-! ## Every step is a deed -/

/-- A turn that goes on comes of a deed, and one that ends the run well comes of the
return of its first frame. -/
def Turn.ComesOf (m : Machine) (live : List (Activation program)) : Turn → Prop
  | .more _ => ∃ deed, Does m live deed
  | .ended back => back.verdict = .ok () →
      ∃ a i, live = [a] ∧ a.instruction? = some i ∧ i.opcode = .ret

/-- Notes have no part in what a turn comes of. -/
theorem Turn.ComesOf.of_note {turn : Turn} {e : Event} (h : turn.ComesOf (m.note e) live) :
    turn.ComesOf m live := by
  cases turn with
  | more y =>
      rcases h with ⟨deed, hdoes⟩
      exact ⟨deed, hdoes.congr rfl⟩
  | ended back => exact h

/-- A run does not end well where it stops. -/
theorem stop_comesOf {interpreter : Interpreter} {cause : Fault} {m' : Machine} :
    (stop interpreter suspended cause m').ComesOf m live := by
  intro hok
  contradiction

/-- A plain instruction that goes on works. -/
theorem settle_plain_does (h : Coherent function depth floor (a :: below) m suspended)
    (hinstruction : a.instruction? = some i) (hplain : i.opcode.transfers = false)
    (interpreter : Interpreter) (returnTo : Nat) :
    (settle interpreter depth suspended (execute program returnTo a.site i m)).ComesOf m
      (a :: below) := by
  have hin : a.site.window.Inside m.arena := h.layout.inside (a := a) (by simp)
  have hplan := Plan.alike program program (.refl hin) hplain
  generalize hresult : Plan.ofInstruction program m a.site i = result at hplan
  cases hplan with
  | fault hlocal =>
      rw [execute_of_fault hresult]
      exact stop_comesOf
  | next =>
      rw [execute_of_plan hresult]
      exact ⟨_, .work hinstruction hplain hresult .next⟩
  | goto target =>
      rw [execute_of_plan hresult]
      exact ⟨_, .work hinstruction hplain hresult (.goto target)⟩
  | store hfit =>
      rw [execute_of_plan hresult]
      exact ⟨_, .work hinstruction hplain hresult (.store hfit)⟩

/-- A turn that goes somewhere comes of a deed if nothing is in the way of one. -/
theorem Turn.GoesTo.comesOf {turn : Turn} {interpreter : Interpreter} {obstacle : Option Fault}
    (h : turn.GoesTo interpreter obstacle x)
    (hdeed : obstacle = none → ∃ deed, Does m live deed) : turn.ComesOf m live := by
  cases obstacle with
  | some flat =>
      rcases h with ⟨suspended, cause, m', hstop, -⟩
      rw [hstop]
      exact stop_comesOf
  | none =>
      rcases h with ⟨m', hmore, -⟩
      rw [hmore]
      exact hdeed rfl

/-- A call that goes on enters its function. -/
theorem settle_call_does (h : Coherent function depth floor (a :: below) m suspended)
    (hinstruction : a.instruction? = some i)
    (hopcode : i.opcode = .call ∨ i.opcode = .callback)
    (interpreter : Interpreter) (returnTo : Nat) :
    (settle interpreter depth suspended (execute program returnTo a.site i m)).ComesOf m
      (a :: below) := by
  cases hcallee : program.routine? i.a with
  | none =>
      rw [execute_of_fault (Plan.ofInstruction_unknown hopcode hcallee)]
      exact stop_comesOf
  | some callee =>
      cases hfit : a.site.outside? (backToBack i.b.toNat callee.descriptor.inputs) with
      | some cause =>
          rw [execute_of_outside h.layout hopcode hcallee hfit]
          exact stop_comesOf
      | none =>
          have henter (hslots : ∀ s ∈ callee.descriptor.inputs,
                s.offset.toNat + s.size.toNat ≤ callee.descriptor.size.toNat)
              (hvalid : i.opcode = .callback → callee.descriptor.misfit? = none) :
              (settle interpreter depth suspended
                (execute program returnTo a.site i m)).ComesOf m (a :: below) := by
            apply (settle_call_goes h hinstruction hopcode hcallee hfit hslots hvalid _ _).comesOf
            intro _
            exact ⟨_, .enter hinstruction hopcode hcallee hfit hslots hvalid⟩
          rcases hopcode with hopcode | hopcode
          · cases hslot : (m.nextWindow callee.descriptor.size).misfit?
                callee.descriptor.inputs with
            | none => exact henter (Window.misfit?_eq_none_iff.mp hslot) (by simp [hopcode])
            | some range =>
                cases hroom : m.shortage callee.descriptor.size.toNat with
                | some need =>
                    rw [execute_call_of_shortage h.layout hopcode hcallee hfit hroom]
                    exact stop_comesOf
                | none =>
                    have hcall := execute_call_brings returnTo h.layout hopcode hcallee hfit
                      hroom
                    rw [hslot] at hcall
                    rcases hcall with ⟨m', hm', -⟩
                    rw [hm']
                    exact stop_comesOf
          · cases hmisfit : callee.descriptor.misfit? with
            | some misfit =>
                rw [execute_callback_eq _ h hopcode hcallee hfit, hmisfit]
                exact stop_comesOf
            | none =>
                have hslots := Window.misfit?_eq_none_iff.mp
                  (Descriptor.inputs_fit hmisfit m.arena.stackPointer)
                exact henter hslots fun _ => hmisfit

/-- A return that goes on leaves its function, and one that ends the run well is that of
its first frame. -/
theorem settle_ret_does (h : Coherent function depth floor (a :: below) m suspended)
    (hinstruction : a.instruction? = some i) (hret : i.opcode = .ret)
    (interpreter : Interpreter) :
    (settle interpreter depth suspended
        (execute program (innermostReturn depth suspended) a.site i m)).ComesOf m
      (a :: below) := by
  cases h.called with
  | root hfunction hbase =>
      have hsuspended : suspended = [] := h.suspended_eq
      subst hsuspended
      have hlast : execute program (innermostReturn depth []) a.site i m =
          .ok .returned (m.modifyStack (CallStack.unwindTo depth)) :=
        execute_ret_of_eq h.layout hret rfl
      rw [hlast]
      intro _
      exact ⟨a, i, rfl, hinstruction, hret⟩
  | call hcaller _ _ _ =>
      exact (settle_ret_goes h hcaller hret interpreter).comesOf fun hpass =>
        ⟨_, .leave hinstruction hret hcaller hpass⟩
  | callback hcaller _ _ _ _ =>
      exact (settle_ret_goes h hcaller hret interpreter).comesOf fun hpass =>
        ⟨_, .leave hinstruction hret hcaller hpass⟩

/-- A step that goes on does a deed, and one that ends the run well is the return of its
first frame. -/
theorem step_does (h : CoherentAlong function depth floor live x) :
    (step program x).ComesOf x.machine live := by
  rcases x with ⟨interpreter, m, returnTo, suspended⟩
  rcases h with ⟨hreturn, h⟩
  dsimp only at hreturn h ⊢
  subst hreturn
  cases live with
  | nil => cases h.called
  | cons a below =>
      rw [step_eq h.layout]
      cases hinstruction : a.instruction? with
      | none => exact stop_comesOf
      | some i =>
          dsimp only
          split
          · exact stop_comesOf
          · have h' := h.note (.executing m.stack.activeIndex a.location i)
            apply Turn.ComesOf.of_note
            cases hplain : i.opcode.transfers with
            | false => exact settle_plain_does h' hinstruction hplain _ _
            | true =>
                cases hopcode : i.opcode with
                | call => exact settle_call_does h' hinstruction (Or.inl hopcode) _ _
                | callback => exact settle_call_does h' hinstruction (Or.inr hopcode) _ _
                | ret => exact settle_ret_does h' hinstruction hopcode _
                | _ => simp [hopcode, Opcode.transfers] at hplain

/-- A step that goes on has done a deed. -/
theorem exists_deed_of_more (h : CoherentAlong function depth floor live x)
    (hstep : step program x = .more y) :
    ∃ deed, Does x.machine live deed ∧ deed.shortage? x.machine = none ∧
      Done function depth floor deed live x y := by
  have hcomes := step_does h
  rw [hstep] at hcomes
  rcases hcomes with ⟨deed, hdoes⟩
  have hdone := step_of_does h hdoes (exhausted_of_more hstep)
  cases hneed : deed.shortage? x.machine with
  | some need =>
      rw [hneed] at hdone
      rcases hdone with ⟨suspended, cause, m, site, hstop, -⟩
      rw [hstep, stop_eq] at hstop
      contradiction
  | none =>
      rw [hneed] at hdone
      rcases hdone with ⟨y', hmore, hdone⟩
      rw [hstep, Turn.more.injEq] at hmore
      exact ⟨deed, hdoes, hneed, hmore ▸ hdone⟩

/-- A run that ends well has come to the return of its first frame. -/
theorem last_of_ended {back : Comeback Interpreter}
    (h : CoherentAlong function depth floor live x) (hstep : step program x = .ended back)
    (hok : back.verdict = .ok ()) :
    ∃ a i, live = [a] ∧ a.instruction? = some i ∧ i.opcode = .ret ∧
      x.interpreter.exhausted = false := by
  have hcomes := step_does h
  rw [hstep] at hcomes
  rcases hcomes hok with ⟨a, i, rfl, hinstruction, hret⟩
  refine ⟨a, i, rfl, hinstruction, hret, ?_⟩
  cases hused : x.interpreter.exhausted with
  | false => rfl
  | true =>
      have hstop := step_of_exhausted h hinstruction hused
      rw [hstep, stop_eq, Turn.ended.injEq] at hstop
      rw [hstop] at hok
      contradiction

end Deeds
end Interpreter
end FrameMachine
