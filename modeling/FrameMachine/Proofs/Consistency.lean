import FrameMachine.Proofs.Causes

/-!
# Consistency of invocations

A fault of an invocation blames the program or the resources, never the machine:
a run that starts coherent stays coherent, and then the checks by which a machine
guards itself never fail.  If all layouts of the program are valid, no slot is
ever outside its frame, and a CALLBACK is refused only for want of room.

Main results:

- Theorem `step_coherent`: a step keeps an execution coherent, or ends it in a
  fault all of whose levels are ordinary.
- Theorem `run_coherent`: so does a run.
- Theorem `Machine.invoke_consistent`: every level of the error of an invocation
  is ordinary.
-/

namespace FrameMachine

/-! ## The levels of a fault -/

namespace Fault

/-- A fault with all that it wraps, outermost first. -/
def levels : Fault → List Fault
  | .callbackFault site cause => .callbackFault site cause :: cause.levels
  | cause => [cause]

/-- Whether a fault says that the machine contradicts itself. -/
def isInternal : Fault → Bool
  | .memory _ | .desync _ | .noActiveFunction _ | .badReturn _ => true
  | .unknownFunction .. | .endOfCode _ | .outOfFrame .. | .slotOutOfFrame _ | .invalidWidth ..
  | .divisionByZero _ | .exhausted .. | .callbackRejected .. | .callbackFault .. | .trap ..
  | .fuelExhausted _ => false

end Fault

/-- All the faults that a failed invocation wraps. -/
def InvokeError.levels : InvokeError → List Fault
  | .rejected _ => []
  | .fault cause => cause.levels

/-- A fault for which the machine is not to blame, nor, if all layouts are valid, a
layout. -/
structure Fault.Ordinary (program : Program) (cause : Fault) : Prop where
  consistent : cause.isInternal = false
  slots_fit : program.Valid → ∀ range, cause ≠ .slotOutOfFrame range
  accepted : program.Valid → ∀ site reason, cause = .callbackRejected site reason →
    ∃ need, reason = .exhausted need

section Levels

variable {program : Program} {cause : Fault}

/-- Most faults are ordinary for what they are. -/
theorem Fault.ordinary_of_ne (hinternal : cause.isInternal = false)
    (hslot : ∀ range, cause ≠ .slotOutOfFrame range)
    (hrefused : ∀ site reason, cause ≠ .callbackRejected site reason) :
    cause.Ordinary program where
  consistent := hinternal
  slots_fit _ := hslot
  accepted _ site reason h := absurd h (hrefused site reason)

/-- A founded fault is ordinary at all its levels. -/
theorem Fault.Founded.ordinary (h : cause.Founded program) :
    ∀ f ∈ cause.levels, f.Ordinary program := by
  induction h with
  | callbackFault hinstruction hopcode hcause ih =>
      intro f hf
      rcases List.mem_cons.mp hf with rfl | hf
      · exact ordinary_of_ne rfl nofun nofun
      · exact ih f hf
  | slotOutOfFrame range hinvalid =>
      simp only [levels, List.mem_singleton, forall_eq]
      exact ⟨rfl, fun hvalid => absurd hvalid hinvalid, fun hvalid => absurd hvalid hinvalid⟩
  | callbackRejected hinstruction hopcode hreason =>
      simp only [levels, List.mem_singleton, forall_eq]
      refine ⟨rfl, nofun, ?_⟩
      rintro hvalid _ _ ⟨⟩
      exact hreason hvalid
  | unknownFunction | endOfCode | outOfFrame | invalidWidth | divisionByZero | exhausted | trap
  | fuelExhausted =>
      simp only [levels, List.mem_singleton, forall_eq]
      exact ordinary_of_ne rfl nofun nofun

end Levels

namespace Interpreter

open Machine

section Runs

variable {program : Program} {function : UInt16} {depth floor : Nat}

/-! ## Coherent runs -/

/-- A run has ended in an ordinary fault, or with the return of its first frame. -/
def CoherentEnd (program : Program) (function : UInt16) (depth floor : Nat)
    (back : Comeback Interpreter) : Prop :=
  match back.verdict with
  | .error cause => ∀ f ∈ cause.levels, f.Ordinary program
  | .ok () => ∃ (a : Activation program) (m : Machine), Coherent function depth floor [a] m [] ∧
      back.machine = m.modifyStack (CallStack.unwindTo depth)

/-- A founded end is an ordinary one. -/
theorem FoundedEnd.coherentEnd {back : Comeback Interpreter}
    (h : FoundedEnd program function depth floor back) :
    CoherentEnd program function depth floor back := by
  rcases back with ⟨verdict, engine, m⟩
  cases verdict with
  | error cause => exact Fault.Founded.ordinary h
  | ok _ => exact h

/-- A step keeps an execution coherent, or ends it in a fault all of whose levels are
ordinary. -/
theorem step_coherent {x : Execution} (h : CoherentExecution program function depth floor x) :
    (step program x).Leads (CoherentExecution program function depth floor)
      (CoherentEnd program function depth floor) := by
  have hstep := step_founded h
  cases hturn : step program x with
  | more y =>
      rw [hturn] at hstep
      exact hstep
  | ended back =>
      rw [hturn] at hstep
      exact FoundedEnd.coherentEnd hstep

/-- A coherent run ends in an ordinary fault, or with the return of its first frame. -/
theorem run_coherent {a : Activation program} {m : Machine} {interpreter : Interpreter}
    {back : Comeback Interpreter} (h : Coherent function depth floor [a] m [])
    (hrun : run program interpreter m (depth + 1) depth = some back) :
    CoherentEnd program function depth floor back :=
  (run_founded h hrun).coherentEnd

end Runs
end Interpreter

namespace Machine

/-! ## Consistency -/

/-- In a sound machine that is not poisoned, every level of the error of an
invocation is ordinary. -/
theorem Sound.invoke_ordinary {program : Program} {m : Machine} (h : m.Sound)
    (hpoisoned : m.poisoned = false) {function : UInt16} {inputs : List Bytes}
    {interpreter : Interpreter} {reply : Reply Interpreter}
    (hreply : m.invoke program (Interpreter.run program) function inputs interpreter = some reply)
    {e : InvokeError} (herror : reply.outcome = .error e) :
    ∀ f ∈ e.levels, f.Ordinary program := by
  cases e with
  | rejected reason => simp [InvokeError.levels]
  | fault cause => exact (h.invoke_founded hpoisoned hreply herror).ordinary

/-- However a machine has been reached, as long as it is not poisoned, every level
of the error of an invocation is ordinary: it is no internal fault, and if all
layouts are valid, no slot was outside its frame, and every CALLBACK that was
refused was refused for want of room. -/
theorem invoke_consistent {program : Program} {m : Machine} (h : Reachable program m)
    (hpoisoned : m.poisoned = false) {function : UInt16} {inputs : List Bytes}
    {interpreter : Interpreter} {reply : Reply Interpreter}
    (hreply : m.invoke program (Interpreter.run program) function inputs interpreter = some reply)
    {e : InvokeError} (herror : reply.outcome = .error e) :
    ∀ f ∈ e.levels, f.Ordinary program :=
  h.sound.invoke_ordinary hpoisoned hreply herror

/-- A CALLBACK that finds no free call stack slot. -/
theorem invoke_consistent_relay :
    ∃ reply e, (ofConfig ⟨24, 2, .retain⟩).invoke relay (Interpreter.run relay) 0 [[42]] {} =
        some reply ∧
      reply.outcome = .error e ∧
      e = .fault (.callbackRejected ⟨0, 0⟩ (.exhausted (.callStack 2))) ∧
      ∀ f ∈ e.levels, f.Ordinary relay := by
  have houtcome : ((ofConfig ⟨24, 2, .retain⟩).invoke relay (Interpreter.run relay) 0 [[42]]
      {}).map Reply.outcome =
        some (.error (.fault (.callbackRejected ⟨0, 0⟩ (.exhausted (.callStack 2))))) := by
    decide +kernel
  rcases Option.map_eq_some_iff.mp houtcome with ⟨reply, hreply, herror⟩
  exact ⟨reply, _, hreply, herror, rfl,
    invoke_consistent (.create (by decide)) rfl hreply herror⟩

end Machine
end FrameMachine
