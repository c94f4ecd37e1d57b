import FrameMachine.Proofs.Isolation
import FrameMachine.Proofs.Consistency

/-!
# The course of a run

Between its beginning and its end a run passes through executions, each one
instruction after the one before.  This file names them: `reach` counts the
instructions, `Machine.launch` is the execution with which an invocation begins,
and an invocation *visits* what it reaches from there.  Since nested runs are
part of the execution that waits for them, what an invocation visits includes
what happens at any depth of reentrancy.

Main results:

- Theorem `reach_induct`: what every step keeps holds wherever a run gets.
- Theorem `runFor_eq_some_iff`: a run ends exactly if it reaches an execution
  whose step is the last.
- Theorem `Machine.invoke_of_launch`: an invocation that is not refused is the run
  of the execution with which it begins.
- Theorems `Machine.Visits.coherent` and `Machine.Visits.grown`: whatever an
  invocation visits is coherent and has left alone what was there before.
-/

namespace FrameMachine
namespace Interpreter

open Machine

/-! ## Reached executions -/

/-- An interpreter that has executed some more instructions. -/
def counted (interpreter : Interpreter) (count : Nat) : Interpreter :=
  { interpreter with executed := interpreter.executed + count }

/-- The execution after a number of instructions, unless the run is over before. -/
def reach (program : Program) : (count : Nat) → Execution → Option Execution
  | 0, x => some x
  | count + 1, x =>
      match step program x with
      | .more y => reach program count y
      | .ended _ => none

section Reach

variable {program : Program} {x y z : Execution} {count clock : Nat}
  {back : Comeback Interpreter}

@[simp]
theorem reach_zero (program : Program) (x : Execution) : reach program 0 x = some x :=
  rfl

theorem reach_succ_of_more (h : step program x = .more y) (count : Nat) :
    reach program (count + 1) x = reach program count y := by
  simp only [reach, h]

theorem reach_succ_of_ended (h : step program x = .ended back) (count : Nat) :
    reach program (count + 1) x = none := by
  simp only [reach, h]

/-- One more instruction is one more step from where the run has got. -/
theorem reach_succ (program : Program) (count : Nat) (x : Execution) :
    reach program (count + 1) x = (reach program count x).bind (reach program 1) := by
  induction count generalizing x with
  | zero => rfl
  | succ count ih =>
      cases hs : step program x with
      | more y => rw [reach_succ_of_more hs, reach_succ_of_more hs, ih y]
      | ended back => rw [reach_succ_of_ended hs, reach_succ_of_ended hs, Option.bind_none]

theorem reach_succ_eq_some_iff :
    reach program (count + 1) x = some z ↔
      ∃ y, reach program count x = some y ∧ step program y = .more z := by
  have hone (y : Execution) : reach program 1 y = some z ↔ step program y = .more z := by
    cases hs : step program y with
    | more y' => simp [reach_succ_of_more hs]
    | ended back => simp [reach_succ_of_ended hs]
  rw [reach_succ, Option.bind_eq_some_iff]
  simp only [hone]

/-- What every step keeps holds wherever a run gets. -/
theorem reach_induct {P : Execution → Prop} {Q : Comeback Interpreter → Prop}
    (hstep : ∀ x, P x → (step program x).Leads P Q) (hx : P x)
    (hreach : reach program count x = some y) : P y := by
  induction count generalizing y with
  | zero =>
      cases hreach
      exact hx
  | succ count ih =>
      rcases reach_succ_eq_some_iff.mp hreach with ⟨z, hz, hs⟩
      have hlead := hstep z (ih hz)
      rw [hs] at hlead
      exact hlead

/-- An exhausted interpreter takes no step that goes on. -/
theorem exhausted_of_more (h : step program x = .more y) : x.interpreter.exhausted = false := by
  rcases x with ⟨interpreter, m, returnTo, suspended⟩
  unfold step at h
  dsimp only at h
  split at h
  · rw [stop_eq] at h
    contradiction
  · split at h
    · rw [stop_eq] at h
      contradiction
    · rename_i hfuel
      simpa using hfuel

/-- Every instruction on the way has been counted. -/
theorem interpreter_of_reach (hreach : reach program count x = some y) :
    y.interpreter = x.interpreter.counted count := by
  induction count generalizing y with
  | zero =>
      cases hreach
      rfl
  | succ count ih =>
      rcases reach_succ_eq_some_iff.mp hreach with ⟨z, hz, hs⟩
      have hcharge := step_interpreter program z
      rw [hs] at hcharge
      rw [show y.interpreter = z.interpreter.charge from hcharge, ih hz]
      rfl

/-- A run goes on from wherever it gets. -/
theorem runFor_of_reach (hreach : reach program count x = some y) (clock : Nat) :
    runFor program (count + clock) x = runFor program clock y := by
  induction count generalizing x with
  | zero =>
      cases hreach
      rw [Nat.zero_add]
  | succ count ih =>
      rw [Nat.succ_add]
      cases hs : step program x with
      | more z =>
          rw [reach_succ_of_more hs] at hreach
          simp only [runFor, hs]
          exact ih hreach
      | ended back =>
          rw [reach_succ_of_ended hs] at hreach
          contradiction

/-- A run that is over passes through wherever it gets. -/
theorem runFor_rest (hreach : reach program count x = some y)
    (hrun : runFor program clock x = some back) : runFor program clock y = some back :=
  (runFor_of_reach hreach clock).symm.trans (runFor_mono (Nat.le_add_left ..) hrun)

/-- A run ends exactly if it reaches an execution whose step is the last. -/
theorem runFor_eq_some_iff :
    runFor program clock x = some back ↔
      ∃ count < clock, ∃ y, reach program count x = some y ∧ step program y = .ended back := by
  constructor
  · intro hrun
    induction clock generalizing x with
    | zero => simp [runFor] at hrun
    | succ clock ih =>
        cases hs : step program x with
        | more z =>
            simp only [runFor, hs] at hrun
            rcases ih hrun with ⟨count, hcount, y, hy, hlast⟩
            exact ⟨count + 1, Nat.succ_lt_succ hcount, y, (reach_succ_of_more hs count).trans hy,
              hlast⟩
        | ended back' =>
            simp only [runFor, hs, Option.some.injEq] at hrun
            exact ⟨0, Nat.succ_pos _, x, rfl, hrun ▸ hs⟩
  · rintro ⟨count, hcount, y, hy, hlast⟩
    have hend : runFor program 1 y = some back := by simp only [runFor, hlast]
    exact runFor_mono hcount ((runFor_of_reach hy 1).trans hend)

/-- A run ends in one way only. -/
theorem runFor_unique {clock' : Nat} {back' : Comeback Interpreter}
    (hrun : runFor program clock x = some back)
    (hrun' : runFor program clock' x = some back') : back = back' := by
  have hlater := runFor_mono (Nat.le_max_left clock clock') hrun
  have hlater' := runFor_mono (Nat.le_max_right clock clock') hrun'
  exact Option.some.inj (hlater.symm.trans hlater')

/-- A run counts at most one instruction for each step that it is given. -/
theorem executed_le_add_clock (hrun : runFor program clock x = some back) :
    back.engine.executed ≤ x.interpreter.executed + clock := by
  rcases runFor_eq_some_iff.mp hrun with ⟨count, hcount, y, hy, hend⟩
  have hcharge := step_interpreter program y
  rw [hend, interpreter_of_reach hy] at hcharge
  rcases hcharge with heq | heq
  · exact heq ▸ Nat.add_le_add_left (Nat.le_of_lt hcount) _
  · exact heq ▸ Nat.add_le_add_left hcount _

end Reach
end Interpreter

namespace Machine

/-! ## The course of an invocation -/

section Launch

variable {program : Program} {function : UInt16} {inputs : List Bytes}
  {interpreter : Interpreter} {m : Machine} {x : Interpreter.Execution}

/-- The execution with which an invocation begins, unless it is refused. -/
def launch (program : Program) (function : UInt16) (inputs : List Bytes)
    (interpreter : Interpreter) (m : Machine) : Option Interpreter.Execution :=
  match enter program function inputs m with
  | .error _ _ => none
  | .ok call m => some ⟨interpreter, m, call.previous, []⟩

/-- An invocation visits the executions that it reaches by its instructions, those of
nested runs included. -/
def Visits (program : Program) (function : UInt16) (inputs : List Bytes)
    (interpreter : Interpreter) (m : Machine) (x : Interpreter.Execution) : Prop :=
  ∃ start count, launch program function inputs interpreter m = some start ∧
    Interpreter.reach program count start = some x

/-- An accepted invocation has activated the frame that it is to run in. -/
theorem activeIndex_of_enter {call : Invocation} {m' : Machine}
    (h : enter program function inputs m = .ok call m') :
    m'.stack.activeIndex = call.start := by
  have hstore : StoreClosed 0 fun n => n.stack.activeIndex = m.stack.activeIndex + 1 :=
    fun _ _ _ _ hn => hn
  have henter := enter_keeps program function inputs hstore (Nat.zero_le _) fun _ _ _ => rfl
  rw [h] at henter
  rcases henter with ⟨hactive, routine, -, rfl⟩
  exact hactive

/-- An invocation that is refused brings an error at once. -/
theorem invoke_of_launch_eq_none
    (h : launch program function inputs interpreter m = none) :
    ∃ e m', ∀ richer : Interpreter,
      m.invoke program (Interpreter.run program) function inputs richer =
        some ⟨.error e, richer, m'⟩ := by
  unfold launch at h
  cases he : enter program function inputs m with
  | error e m' =>
      refine ⟨e, m', ?_⟩
      intro richer
      simp only [invoke, he]
  | ok call m' => simp [he] at h

/-- An invocation that is not refused is the run of the execution with which it
begins. -/
theorem invoke_of_launch (h : launch program function inputs interpreter m = some x) :
    ∃ call m', ∀ richer : Interpreter,
      launch program function inputs richer m = some ⟨richer, m', x.returnTo, []⟩ ∧
        m.invoke program (Interpreter.run program) function inputs richer =
          (Interpreter.complete program ⟨richer, m', x.returnTo, []⟩).map (conclude call) := by
  unfold launch at h
  cases he : enter program function inputs m with
  | error e m' => simp [he] at h
  | ok call m' =>
      rw [he] at h
      cases h
      refine ⟨call, m', ?_⟩
      intro richer
      constructor
      · simp only [launch, he]
      · simp only [invoke, he, Interpreter.run, if_pos (activeIndex_of_enter he)]
        cases Interpreter.complete program ⟨richer, m', call.previous, []⟩ <;> rfl

/-- The execution with which an invocation begins that has entered its function. -/
def started (m : Machine) (function : UInt16) (d : Descriptor) (inputs : List Bytes)
    (interpreter : Interpreter) : Interpreter.Execution :=
  ⟨interpreter, (m.entering function d inputs).note
    (.invoked function (m.stack.activeIndex + 1) m.stack.activeIndex), m.stack.activeIndex, []⟩

/-- An invocation that is not refused begins in the frame of its function. -/
theorem exists_of_launch (hsound : m.Sound)
    (h : launch program function inputs interpreter m = some x) :
    ∃ routine, program.routine? function = some routine ∧
      accept program m function inputs = .ok routine.descriptor ∧
      m.shortage routine.descriptor.size.toNat = none ∧
      x = m.started function routine.descriptor inputs interpreter := by
  unfold launch at h
  cases haccept : accept program m function inputs with
  | error reason => simp [enter_eq, haccept] at h
  | ok d =>
      rcases accept_eq_ok_iff.mp haccept with ⟨-, routine, hroutine, rfl, -, -⟩
      cases hroom : m.shortage routine.descriptor.size.toNat with
      | some need => simp [enter_eq, haccept, hroom] at h
      | none =>
          rw [enter_eq_ok hsound haccept hroom] at h
          cases h
          exact ⟨routine, hroutine, rfl, hroom, rfl⟩

/-- Whatever an invocation visits is coherent. -/
theorem Visits.coherent (hsound : m.Sound)
    (h : m.Visits program function inputs interpreter x) :
    Interpreter.CoherentExecution program function m.stack.activeIndex m.arena.stackPointer
      x := by
  rcases h with ⟨start, count, hstart, hreach⟩
  rcases exists_of_launch hsound hstart with ⟨routine, hroutine, haccept, hroom, rfl⟩
  have hpoisoned := (accept_eq_ok_iff.mp haccept).1
  exact Interpreter.reach_induct (fun _ => Interpreter.step_coherent)
    ⟨rfl, _, [], (hsound.coherent_entering hpoisoned hroutine hroom inputs).note _⟩ hreach

/-- Whatever an invocation visits has left alone what was there before. -/
theorem Visits.grown (h : m.Visits program function inputs interpreter x) :
    Interpreter.Grown m m.stack.activeIndex m.arena.stackPointer x := by
  rcases h with ⟨start, count, hstart, hreach⟩
  refine Interpreter.reach_induct (fun _ => Interpreter.step_grown) ?_ hreach
  unfold launch at hstart
  cases he : enter program function inputs m with
  | error e m' => simp [he] at hstart
  | ok call m' =>
      have hsheltered := sheltered_enter program function inputs m
      have hactive := activeIndex_of_enter he
      rw [he] at hstart hsheltered
      cases hstart
      rcases hsheltered with ⟨hgrown, hprevious, -, -⟩
      have hnested : Interpreter.Nested m.stack.activeIndex m.arena.stackPointer
          m'.stack.activeIndex [] := by
        simp only [Interpreter.Nested, hactive, Invocation.start, hprevious]
        omega
      exact ⟨hgrown, hprevious, hnested⟩

end Launch
end Machine
end FrameMachine
