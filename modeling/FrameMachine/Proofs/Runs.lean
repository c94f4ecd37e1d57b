import FrameMachine.Proofs.Actions

/-!
# Steps and runs

A run is a sequence of steps, and a step either goes on or ends the run.  This
file packages the one induction over the steps of a run and the equations of
what a step is made of.

Main results:

- Theorem `runFor_induct`: what every step keeps, and what every last step
  brings about, holds at the end of a run.
- Theorem `runFor_rel`: what every two steps keep, side by side, holds at the end
  of two runs.
- Theorem `runFor_of_complete`: what holds at the end of a run holds of a completed one.
- Theorem `planned_of_ofInstruction`: what an instruction can be planned to do.
-/

namespace FrameMachine
namespace Interpreter

open Machine

/-- The step goes on with an execution in `P` or ends with a comeback in `Q`. -/
def Turn.Leads (P : Execution → Prop) (Q : Comeback Interpreter → Prop) : Turn → Prop
  | .more x => P x
  | .ended back => Q back

/-- What every step keeps, and what every last step brings about, holds at the
end of a run. -/
theorem runFor_induct {program : Program} {P : Execution → Prop}
    {Q : Comeback Interpreter → Prop} (hstep : ∀ x, P x → (step program x).Leads P Q) :
    ∀ (clock : Nat) (x : Execution) (back : Comeback Interpreter), P x →
      runFor program clock x = some back → Q back := by
  intro clock
  induction clock with
  | zero =>
      intro x back _ hrun
      simp [runFor] at hrun
  | succ clock ih =>
      intro x back hx hrun
      have hlead := hstep x hx
      simp only [runFor] at hrun
      cases hs : step program x with
      | more x' =>
          rw [hs] at hrun hlead
          exact ih x' back hlead hrun
      | ended back' =>
          rw [hs] at hrun hlead
          simp only [Option.some.injEq] at hrun
          exact hrun ▸ hlead

/-- A run that is over is over for every later clock. -/
theorem runFor_mono {program : Program} {clock clock' : Nat} {x : Execution}
    {back : Comeback Interpreter} (hle : clock ≤ clock')
    (hrun : runFor program clock x = some back) : runFor program clock' x = some back := by
  induction clock generalizing clock' x with
  | zero => simp [runFor] at hrun
  | succ clock ih =>
      cases clock' with
      | zero => omega
      | succ clock' =>
          simp only [runFor] at hrun ⊢
          cases hs : step program x with
          | more x' =>
              rw [hs] at hrun
              exact ih (by omega) hrun
          | ended back' =>
              rw [hs] at hrun
              exact hrun

/-- A completed run is over in its time. -/
theorem runFor_of_complete {program : Program} {x : Execution} {back : Comeback Interpreter}
    (h : complete program x = some back) :
    runFor program x.interpreter.horizon x = some back :=
  (Option.filter_eq_some_iff.mp h).1

/-- With a budget every run that is over in its time is completed. -/
theorem complete_of_fuel {x : Execution} (program : Program)
    (hfuel : x.interpreter.fuel.isSome) :
    complete program x = runFor program x.interpreter.horizon x := by
  unfold complete
  cases runFor program x.interpreter.horizon x with
  | none => rfl
  | some back => exact Option.filter_some_pos (by simp only [countable, hfuel, Bool.true_or])

/-! ## Two runs in lockstep -/

/-- Two steps go on with executions that `R` relates, or both end, with comebacks
that `Q` relates. -/
def Turn.Rel (R : Execution → Execution → Prop)
    (Q : Comeback Interpreter → Comeback Interpreter → Prop) : Turn → Turn → Prop
  | .more x, .more x' => R x x'
  | .ended back, .ended back' => Q back back'
  | _, _ => False

/-- If every two related executions step alike, their runs take the same number of
steps and end alike. -/
theorem runFor_rel {program program' : Program} {R : Execution → Execution → Prop}
    {Q : Comeback Interpreter → Comeback Interpreter → Prop}
    (hstep : ∀ x x', R x x' → (step program x).Rel R Q (step program' x')) :
    ∀ (clock : Nat) (x x' : Execution), R x x' →
      Option.Rel Q (runFor program clock x) (runFor program' clock x') := by
  intro clock
  induction clock with
  | zero =>
      intro x x' _
      exact .none
  | succ clock ih =>
      intro x x' h
      have hrel := hstep x x' h
      simp only [runFor]
      cases hs : step program x with
      | more y =>
          cases hs' : step program' x' with
          | more y' =>
              rw [hs, hs'] at hrel
              exact ih y y' hrel
          | ended back' =>
              rw [hs, hs'] at hrel
              exact hrel.elim
      | ended back =>
          cases hs' : step program' x' with
          | more y' =>
              rw [hs, hs'] at hrel
              exact hrel.elim
          | ended back' =>
              rw [hs, hs'] at hrel
              exact .some hrel

/-- Completed runs end alike if runs do that are given as much time and count alike. -/
theorem complete_rel {program program' : Program}
    {Q : Comeback Interpreter → Comeback Interpreter → Prop} {x x' : Execution}
    (hinterpreter : x.interpreter = x'.interpreter)
    (hrel : Option.Rel Q (runFor program x.interpreter.horizon x)
      (runFor program' x.interpreter.horizon x'))
    (hengine : ∀ back back', Q back back' → back.engine = back'.engine) :
    Option.Rel Q (complete program x) (complete program' x') := by
  unfold complete
  rw [← hinterpreter]
  generalize runFor program x.interpreter.horizon x = result at hrel ⊢
  generalize runFor program' x.interpreter.horizon x' = result' at hrel ⊢
  cases hrel with
  | none => exact .none
  | @some back back' hback =>
      rw [Option.filter_some, Option.filter_some, hengine back back' hback]
      split
      · exact .some hback
      · exact .none

/-! ## The parts of a step -/

/-- The outermost fault and the poisoned machine that a fault leaves behind. -/
theorem stop_eq (interpreter : Interpreter) (suspended : List Suspension) (cause : Fault)
    (m : Machine) :
    stop interpreter suspended cause m =
      .ended ⟨.error (abandon suspended cause m).1, interpreter, (abandon suspended cause m).2⟩ :=
  rfl

@[simp]
theorem abandon_arena (suspended : List Suspension) (cause : Fault) (m : Machine) :
    (abandon suspended cause m).2.arena = m.arena := by
  induction suspended generalizing cause m with
  | nil => rfl
  | cons s outer ih => exact ih _ _

@[simp]
theorem abandon_stack (suspended : List Suspension) (cause : Fault) (m : Machine) :
    (abandon suspended cause m).2.stack = m.stack := by
  induction suspended generalizing cause m with
  | nil => rfl
  | cons s outer ih => exact ih _ _

theorem carryOut_call (program : Program) (returnTo : Nat) (site : Site) (i : Instruction)
    (callee : Routine) (sources : List Address) (m : Machine) :
    carryOut program returnTo site i (.call callee sources) m =
      match call site i.a callee sources m with
      | .error cause m => .error cause m
      | .ok () m => .ok .running m := by
  simp only [carryOut, bind, EStateM.bind]
  cases call site i.a callee sources m <;> rfl

theorem carryOut_callback (program : Program) (returnTo : Nat) (site : Site) (i : Instruction)
    (inputs : List Bytes) (m : Machine) :
    carryOut program returnTo site i (.callback inputs) m =
      match Machine.enter program i.a inputs m with
      | .error e m => .error (e.atCallback site.location) m
      | .ok invocation m => .ok (.nested ⟨site, i.c, invocation⟩) m := by
  simp only [carryOut, bind, EStateM.bind, EStateM.adaptExcept]
  cases Machine.enter program i.a inputs m <;> rfl

theorem carryOut_ret (program : Program) (returnTo : Nat) (site : Site) (i : Instruction)
    (m : Machine) :
    carryOut program returnTo site i .ret m =
      match ret program returnTo site m with
      | .error cause m => .error cause m
      | .ok finished m => .ok (if finished then .returned else .running) m := by
  simp only [carryOut, bind, EStateM.bind]
  cases ret program returnTo site m <;> rfl

/-- A return from a frame other than slot 0 either ends the run or completes the
call of the frame below. -/
theorem ret_eq (program : Program) (returnTo : Nat) (site : Site) {m : Machine} {caller : Nat}
    (hactive : m.stack.activeIndex = caller + 1) :
    ret program returnTo site m =
      if caller = returnTo then .ok true (m.modifyStack (CallStack.unwindTo caller))
      else
        match completeCall program site caller m with
        | .error cause m => .error cause m
        | .ok () m => .ok false m := by
  unfold ret
  split
  · rename_i hzero
    exact absurd (hactive.symm.trans hzero) (Nat.succ_ne_zero _)
  · rename_i caller' hcaller'
    have hcaller : caller' = caller := Nat.succ.inj (hcaller'.symm.trans hactive)
    subst hcaller
    rfl

/-! ## Plans -/

/-- What an instruction can be planned to do: it stores nothing below the window of its
frame, and it calls the function that it names. -/
inductive Planned (program : Program) (site : Site) (i : Instruction) : Plan → Prop
  | next : Planned program site i .next
  | goto (target : UInt16) : Planned program site i (.goto target)
  | store {range : Address} (bytes : Bytes) (hbase : site.window.base ≤ range.offset) :
      Planned program site i (.store range bytes)
  | call {callee : Routine} (hcallee : program.routine? i.a = some callee)
      (sources : List Address) : Planned program site i (.call callee sources)
  | callback (inputs : List Bytes) : Planned program site i (.callback inputs)
  | ret : Planned program site i .ret

section Plans

variable {program : Program} {m : Machine} {site : Site} {i : Instruction} {plan : Plan}

theorem exists_of_bind_eq_ok {ε α β : Type} {x : Except ε α} {f : α → Except ε β} {b : β}
    (h : x >>= f = .ok b) : ∃ a, x = .ok a ∧ f a = .ok b := by
  cases x with
  | error e => simp [bind, Except.bind] at h
  | ok a => exact ⟨a, rfl, h⟩

theorem routine?_of_callee {function : UInt16} {callee : Routine}
    (h : site.callee program function = .ok callee) : program.routine? function = some callee := by
  unfold Site.callee at h
  split at h
  · cases h
    assumption
  · contradiction

theorem planned_of_storing {destination : UInt16} {bytes : Bytes}
    (h : Plan.storing m site destination bytes = .ok plan) : Planned program site i plan := by
  obtain ⟨range, hrange, h⟩ := exists_of_bind_eq_ok h
  obtain ⟨_, _, h⟩ := exists_of_bind_eq_ok h
  cases h
  exact .store bytes (base_le_of_siteResolve hrange)

theorem planned_of_combining {result : Int32 → Int32 → Bytes}
    (h : Plan.combining m site i result = .ok plan) : Planned program site i plan := by
  obtain ⟨_, _, h⟩ := exists_of_bind_eq_ok h
  obtain ⟨_, _, h⟩ := exists_of_bind_eq_ok h
  exact planned_of_storing h

theorem planned_of_jumpingIf {wanted : Bool}
    (h : Plan.jumpingIf wanted m site i = .ok plan) : Planned program site i plan := by
  obtain ⟨flag, _, h⟩ := exists_of_bind_eq_ok h
  cases h
  split
  · exact .goto i.b
  · exact .next

theorem planned_of_ofInstruction (h : Plan.ofInstruction program m site i = .ok plan) :
    Planned program site i plan := by
  unfold Plan.ofInstruction at h
  split at h
  case h_1 =>
    cases h
    exact .next
  case h_2 =>
    split at h
    · exact planned_of_storing h
    · contradiction
  case h_3 =>
    obtain ⟨_, _, h⟩ := exists_of_bind_eq_ok h
    obtain ⟨range, hrange, h⟩ := exists_of_bind_eq_ok h
    obtain ⟨_, _, h⟩ := exists_of_bind_eq_ok h
    obtain ⟨_, _, h⟩ := exists_of_bind_eq_ok h
    cases h
    exact .store _ (base_le_of_siteResolve hrange)
  case h_7 =>
    obtain ⟨divisor, _, h⟩ := exists_of_bind_eq_ok h
    split at h
    · contradiction
    · exact planned_of_combining h
  case h_4 | h_5 | h_6 | h_8 | h_9 => exact planned_of_combining h
  case h_10 =>
    cases h
    exact .goto i.a
  case h_11 | h_12 => exact planned_of_jumpingIf h
  case h_13 =>
    obtain ⟨callee, hcallee, h⟩ := exists_of_bind_eq_ok h
    obtain ⟨sources, _, h⟩ := exists_of_bind_eq_ok h
    cases h
    exact .call (routine?_of_callee hcallee) sources
  case h_14 =>
    obtain ⟨_, _, h⟩ := exists_of_bind_eq_ok h
    obtain ⟨inputs, _, h⟩ := exists_of_bind_eq_ok h
    cases h
    exact .callback inputs
  case h_15 =>
    cases h
    exact .ret
  case h_16 => contradiction

end Plans

/-! ## Counting instructions -/

section Counting

variable {program : Program}

/-- Going on after an instruction counts nothing. -/
theorem settle_interpreter (interpreter : Interpreter) (returnTo : Nat)
    (suspended : List Suspension) (result : EStateM.Result Fault Machine Progress) :
    (settle interpreter returnTo suspended result).Leads
      (fun y => y.interpreter = interpreter) (fun back => back.engine = interpreter) := by
  cases result with
  | error cause m => exact rfl
  | ok progress m =>
      cases progress with
      | running => exact rfl
      | nested s => exact rfl
      | returned =>
          cases suspended with
          | nil => exact rfl
          | cons s outer =>
              simp only [settle]
              cases resume s m <;> exact rfl

/-- A step that goes on has counted one instruction, and a last step at most one. -/
theorem step_interpreter (program : Program) (x : Execution) :
    (step program x).Leads (fun y => y.interpreter = x.interpreter.charge)
      (fun back => back.engine = x.interpreter ∨ back.engine = x.interpreter.charge) := by
  rcases x with ⟨interpreter, m, returnTo, suspended⟩
  unfold step
  dsimp only
  cases fetch program m with
  | error cause => exact Or.inl rfl
  | ok found =>
      dsimp only
      split
      · exact Or.inl rfl
      · have hsettle := settle_interpreter interpreter.charge returnTo suspended
          (execute program (innermostReturn returnTo suspended) found.1 found.2
            (m.note (.executing m.stack.activeIndex found.1.location found.2)))
        generalize settle _ _ _ _ = turn at hsettle ⊢
        cases turn with
        | more y => exact hsettle
        | ended back => exact Or.inr hsettle

/-- A run never counts backwards. -/
theorem executed_le_of_runFor {clock : Nat} {x : Execution} {back : Comeback Interpreter}
    (hrun : runFor program clock x = some back) :
    x.interpreter.executed ≤ back.engine.executed := by
  induction clock generalizing x with
  | zero => simp [runFor] at hrun
  | succ clock ih =>
      have hcharge := step_interpreter program x
      simp only [runFor] at hrun
      cases hs : step program x with
      | more y =>
          rw [hs] at hrun hcharge
          have hle := ih hrun
          rw [show y.interpreter = x.interpreter.charge from hcharge] at hle
          exact Nat.le_trans (Nat.le_succ _) hle
      | ended back' =>
          rw [hs] at hrun hcharge
          cases hrun
          rcases hcharge with heq | heq
          · exact Nat.le_of_eq (congrArg executed heq.symm)
          · have hexecuted : back.engine.executed = x.interpreter.executed + 1 :=
              congrArg executed heq
            rw [hexecuted]
            exact Nat.le_succ _

/-- The engine never counts backwards. -/
theorem executed_le_of_run {interpreter : Interpreter} {m : Machine} {start returnTo : Nat}
    {back : Comeback Interpreter}
    (hrun : run program interpreter m start returnTo = some back) :
    interpreter.executed ≤ back.engine.executed := by
  unfold run at hrun
  split at hrun
  · exact executed_le_of_runFor (runFor_of_complete hrun)
  · cases hrun
    exact Nat.le_refl _

/-- A run that is not over after some steps has counted that many instructions when it
is over. -/
theorem executed_of_runFor_eq_none {clock clock' : Nat} {x : Execution}
    {back : Comeback Interpreter} (hnone : runFor program clock x = none)
    (hrun : runFor program clock' x = some back) :
    x.interpreter.executed + clock ≤ back.engine.executed := by
  induction clock generalizing clock' x with
  | zero => exact executed_le_of_runFor hrun
  | succ clock ih =>
      cases clock' with
      | zero => simp [runFor] at hrun
      | succ clock' =>
          have hcharge := step_interpreter program x
          simp only [runFor] at hnone hrun
          cases hs : step program x with
          | more y =>
              rw [hs] at hnone hrun hcharge
              have hle := ih hnone hrun
              rw [show y.interpreter = x.interpreter.charge from hcharge] at hle
              simp only [charge] at hle
              omega
          | ended back' =>
              rw [hs] at hnone
              contradiction

end Counting

/-! ## Running frames -/

theorem running?_eq_some_iff {program : Program} {m : Machine} {index : Nat} {frame : Frame}
    {operator : UInt16} {routine : Routine} :
    running? program m index = some (frame, operator, routine) ↔
      m.stack.frames[index]? = some frame ∧ frame.operator = some operator ∧
        program.routine? operator = some routine := by
  unfold running? CallStack.frame?
  cases m.stack.frames[index]? with
  | none => simp
  | some frame' =>
      cases ho : frame'.operator with
      | none =>
          simp only [bind, Option.bind, ho]
          constructor
          · simp
          · rintro ⟨h, h', -⟩
            cases h
            simp [ho] at h'
      | some operator' =>
          cases hr : program.routine? operator' <;> simp [ho, hr] <;> grind

/-- Going on is a jump to the next instruction. -/
theorem advance_eq_jump {m : Machine} {frame : Frame}
    (hframe : m.stack.frames[m.stack.activeIndex]? = some frame) :
    advance m = m.modifyStack (CallStack.jump (frame.instructionPointer + 1)) := by
  rcases m with ⟨arena, ⟨frames, activeIndex⟩, reclaim, poisoned, journal⟩
  have hframes : frames.modify activeIndex
        (fun f => { f with instructionPointer := f.instructionPointer + 1 }) =
      frames.modify activeIndex
        (fun f => { f with instructionPointer := frame.instructionPointer + 1 }) := by
    apply Array.ext_getElem?
    intro k
    rw [Array.getElem?_modify, Array.getElem?_modify]
    split
    · rename_i hk
      rw [← hk, hframe]
      rfl
    · rfl
  simp only [advance, Machine.modifyStack, CallStack.advance, CallStack.jump,
    CallStack.modifyActive, hframes]

/-- The instruction about to run lies in the window of the active frame. -/
theorem exists_frame_of_fetch {program : Program} {m : Machine} {site : Site} {i : Instruction}
    (h : fetch program m = .ok (site, i)) :
    ∃ frame, m.stack.frames[m.stack.activeIndex]? = some frame ∧
      site.window.base = frame.framePointer := by
  unfold fetch at h
  split at h
  · contradiction
  · rename_i frame operator routine hrunning
    obtain ⟨hframe, -, -⟩ := running?_eq_some_iff.mp hrunning
    dsimp only at h
    split at h
    · contradiction
    · cases h
      exact ⟨frame, hframe, rfl⟩

/-- The CALL on which a frame waits lies in the window of that frame. -/
theorem exists_frame_of_suspendedCall {program : Program} {m : Machine} {index : Nat}
    {site : Site} {i : Instruction} (h : suspendedCall program m index = .ok (site, i)) :
    ∃ frame, m.stack.frames[index]? = some frame ∧ site.window.base = frame.framePointer := by
  unfold suspendedCall at h
  split at h
  · contradiction
  · rename_i frame operator routine hrunning
    obtain ⟨hframe, -, -⟩ := running?_eq_some_iff.mp hrunning
    dsimp only at h
    split at h
    · contradiction
    · split at h
      · cases h
        exact ⟨frame, hframe, rfl⟩
      · contradiction

end Interpreter

/-! ## A sample program -/

instance decidableEqExcept {ε α : Type} [DecidableEq ε] [DecidableEq α] :
    DecidableEq (Except ε α)
  | .ok a, .ok b => decidable_of_iff (a = b) (by simp)
  | .error e, .error e' => decidable_of_iff (e = e') (by simp)
  | .ok _, .error _ => .isFalse nofun
  | .error _, .ok _ => .isFalse nofun

/-- Three functions of one byte each: the first hands its input to the second with a
CALLBACK, which hands it to the third with a CALL. -/
def relay : Program :=
  ⟨#[⟨⟨4, [⟨0, 1⟩], [⟨1, 1⟩]⟩, #[⟨.callback, 0, 1, 0, 1⟩, ⟨.ret, 0, 0, 0, 0⟩]⟩,
    ⟨⟨3, [⟨0, 1⟩], [⟨2, 1⟩]⟩, #[⟨.call, 0, 2, 0, 2⟩, ⟨.ret, 0, 0, 0, 0⟩]⟩,
    ⟨⟨2, [⟨0, 1⟩], [⟨1, 1⟩]⟩, #[⟨.copy, 0, 1, 0, 1⟩, ⟨.ret, 0, 0, 0, 0⟩]⟩]⟩

/-- A machine that has been written to and has a frame already. -/
def Machine.busy (reclaim : Reclaim) : Machine :=
  after (perform relay (.arena (.write 0 [9, 8, 7, 6, 5, 4, 3]))
    (after (perform relay (.pushFrame 7 5) (ofConfig ⟨24, 6, reclaim⟩))))

end FrameMachine
