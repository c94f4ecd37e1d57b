import FrameMachine.Proofs.Courses

/-!
# Runs between any two frames

The interpreter may be asked to run from any frame to any other one, on a machine whose
frames hold anything: functions that nobody has called, positions outside of their code,
windows that lie anywhere.  The returns of such a run may walk down through frames that
were there before it.  They still stop at the frame to which the run has to return, and
nothing below changes.  The argument is that of an isolated invocation with the lowest
possible floor: every machine has grown from itself above any live frame if no byte is to
be kept.

Main results:

- Theorem `step_returns`: a run ends well only where it has to return to.
- Theorem `reach_grown`: wherever a run gets, it has left the lower frames alone.
- Theorem `run_confined`: what a run between any two frames keeps.
-/

namespace FrameMachine
namespace Interpreter

open Machine

variable {program : Program} {interpreter : Interpreter} {m m' : Machine}
  {start returnTo : Nat} {site : Site} {i : Instruction} {back : Comeback Interpreter}

/-! ## Where a run ends -/

/-- Only a return ends a run, and it activates the frame to which the run has to return. -/
theorem activeIndex_of_returned (h : execute program returnTo site i m = .ok .returned m') :
    m'.stack.activeIndex = returnTo := by
  unfold execute at h
  cases hplan : Plan.ofInstruction program m site i with
  | error cause => simp [hplan] at h
  | ok plan =>
      simp only [hplan] at h
      cases plan with
      | next => cases h
      | goto target => cases h
      | store range bytes => cases h
      | call callee sources =>
          rw [carryOut_call] at h
          split at h <;> cases h
      | callback inputs =>
          rw [carryOut_callback] at h
          split at h <;> cases h
      | ret =>
          rw [carryOut_ret] at h
          cases hactive : m.stack.activeIndex with
          | zero => simp [ret, hactive] at h
          | succ caller =>
              rw [ret_eq program returnTo site hactive] at h
              by_cases hcaller : caller = returnTo
              · rw [if_pos hcaller] at h
                cases h
                simp only [stack_modifyStack, CallStack.activeIndex_unwindTo]
                omega
              · rw [if_neg hcaller] at h
                cases hcomplete : completeCall program site caller m <;> simp [hcomplete] at h

/-- A step goes on towards the same frame.  One that ends the run well has activated that
frame. -/
theorem step_returns (program : Program) (x : Execution) :
    (step program x).Leads (fun y => y.returnTo = x.returnTo)
      (fun back => back.verdict = .ok () → back.machine.stack.activeIndex = x.returnTo) := by
  rcases x with ⟨interpreter, m, returnTo, suspended⟩
  unfold step
  dsimp only
  cases fetch program m with
  | error cause => exact nofun
  | ok found =>
      dsimp only
      split
      · exact nofun
      · generalize m.note _ = n
        cases hexecute : execute program (innermostReturn returnTo suspended) found.1 found.2 n with
        | error cause m' => exact nofun
        | ok progress m' =>
            cases progress with
            | running => exact rfl
            | nested s => exact rfl
            | returned =>
                cases suspended with
                | nil => exact fun _ => activeIndex_of_returned hexecute
                | cons s outer =>
                    simp only [settle]
                    cases resume s m' with
                    | error cause m'' => exact nofun
                    | ok _ m'' => exact rfl

/-- A run ends well only in the frame to which it has to return. -/
theorem activeIndex_of_run (hrun : run program interpreter m start returnTo = some back)
    (hok : back.verdict = .ok ()) : back.machine.stack.activeIndex = returnTo := by
  unfold run at hrun
  split at hrun
  · have hstep (x : Execution) (hx : x.returnTo = returnTo) :
        (step program x).Leads (fun y => y.returnTo = returnTo)
          (fun back => back.verdict = .ok () → back.machine.stack.activeIndex = returnTo) := by
      subst hx
      exact step_returns program x
    exact runFor_induct hstep _ ⟨interpreter, m, returnTo, []⟩ back rfl
      (runFor_of_complete hrun) hok
  · cases hrun
    contradiction

/-! ## What a run leaves alone -/

/-- Every machine has grown from itself above any live frame, if no byte is to be kept. -/
theorem grownFrom_of_le {depth : Nat} (hdepth : depth ≤ m.stack.activeIndex) :
    GrownFrom m depth 0 m where
  bytes_eq k hk := absurd hk (Nat.not_lt_zero k)
  frames_eq _ _ := rfl
  arenaCapacity_eq := rfl
  stackCapacity_eq := rfl
  floor_le := Nat.zero_le _
  depth_le := hdepth
  base_le _ _ _ _ _ := Nat.zero_le _

/-- Wherever a run to a lower frame gets, it has left that frame and all below it alone, and
a higher one is active. -/
theorem reach_grown {count : Nat} {x : Execution} (hlower : returnTo < m.stack.activeIndex)
    (hreach : reach program count ⟨interpreter, m, returnTo, []⟩ = some x) :
    Grown m returnTo 0 x := by
  have hstart : Grown m returnTo 0 ⟨interpreter, m, returnTo, []⟩ :=
    ⟨grownFrom_of_le (Nat.le_of_lt hlower), rfl, hlower⟩
  exact reach_induct (fun _ => step_grown) hstart hreach

/-- A run between any two frames, whatever the machine holds.  If it ends well, the frame to
which it had to return is active.  If the frame from which it is to start is not active, it
does nothing and says so.  A run from the active frame to a lower one leaves the lower one
and all frames below it alone, whatever its verdict, and never activates a frame below it;
every instruction on its way, those of nested runs included, is executed in a frame above. -/
theorem run_confined (hrun : run program interpreter m start returnTo = some back) :
    (back.verdict = .ok () → back.machine.stack.activeIndex = returnTo) ∧
    (m.stack.activeIndex ≠ start →
      back = ⟨.error (.desync ⟨start, m.stack.activeIndex⟩), interpreter, m⟩) ∧
    (m.stack.activeIndex = start → returnTo < start →
      returnTo ≤ back.machine.stack.activeIndex ∧
      (∀ j ≤ returnTo, back.machine.stack.frame? j = m.stack.frame? j) ∧
      (∃ count last, reach program count ⟨interpreter, m, returnTo, []⟩ = some last ∧
        step program last = .ended back) ∧
      ∀ count x, reach program count ⟨interpreter, m, returnTo, []⟩ = some x →
        returnTo < x.machine.stack.activeIndex ∧
        ∀ j ≤ returnTo, x.machine.stack.frame? j = m.stack.frame? j) := by
  refine ⟨activeIndex_of_run hrun, ?_, ?_⟩
  · intro hstart
    rw [run, if_neg hstart] at hrun
    exact (Option.some.inj hrun).symm
  · intro hstart hlower
    have hback := run_grown (grownFrom_of_le (by omega)) hlower hrun
    rw [run, if_pos hstart] at hrun
    rcases runFor_eq_some_iff.mp (runFor_of_complete hrun) with ⟨count, -, last, hlast, hended⟩
    refine ⟨hback.machine.depth_le, hback.machine.frames_eq, ⟨count, last, hlast, hended⟩, ?_⟩
    intro count x hreach
    have hgrown := reach_grown (hstart ▸ hlower) hreach
    exact ⟨hgrown.nested.depth_lt, hgrown.machine.frames_eq⟩

/-- A machine with three frames that nobody has called: one of an unknown function, one that
waits on a CALL, and above it one that is about to execute a CALLBACK. -/
def scaffold : Machine :=
  after (perform relay (.pushFrame 0 4) (after (perform relay (.pushFrame 1 3) (busy .release))))

/-- A run from the highest of these frames to the lowest invokes two functions and walks
down through the frame between.  A run from the frame between does not start. -/
theorem run_confined_scaffold :
    (∃ back, run relay {} scaffold 3 1 = some back ∧ back.verdict = .ok () ∧
      back.machine.stack.activeIndex = 1 ∧
      (∀ j ≤ 1, back.machine.stack.frame? j = scaffold.stack.frame? j) ∧
      ∀ count x, reach relay count ⟨{}, scaffold, 1, []⟩ = some x →
        1 < x.machine.stack.activeIndex) ∧
    ∃ back, run relay {} scaffold 2 1 = some back ∧
      back = ⟨.error (.desync ⟨2, 3⟩), {}, scaffold⟩ := by
  have hactive : scaffold.stack.activeIndex = 3 := by decide +kernel
  have hverdict : (run relay {} scaffold 3 1).map Comeback.verdict = some (.ok ()) := by
    decide +kernel
  rcases Option.map_eq_some_iff.mp hverdict with ⟨back, hback, hok⟩
  have hconfined := run_confined hback
  rcases hconfined.2.2 hactive (by decide) with ⟨-, hframes, -, habove⟩
  refine ⟨⟨back, hback, hok, hconfined.1 hok, hframes, fun count x hreach => ?_⟩, ?_⟩
  · exact (habove count x hreach).1
  · have hother : scaffold.stack.activeIndex ≠ 2 := by decide +kernel
    have hrefused : (run relay {} scaffold 2 1).isSome = true := by decide +kernel
    rcases Option.isSome_iff_exists.mp hrefused with ⟨back, hback⟩
    have hsame := (run_confined hback).2.1 hother
    rw [hactive] at hsame
    exact ⟨back, hback, hsame⟩

end Interpreter
end FrameMachine
