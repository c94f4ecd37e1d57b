import FrameMachine.Proofs.Runs

/-!
# What a run does to a machine

There are few things that the interpreter ever does to a machine: it makes a note,
stores bytes, changes the active frame, unwinds the call stack, releases and allocates
frames, and fails.  This file shows once that a property which survives each of them is
kept by calls and returns, steps and runs, so that an invariant has to be checked against
these few changes only.  A property may also depend on the invocations that a run has
open, those of its CALLBACKs under way.

Main results:

- Theorems `keeps_ret` and `ChangeClosed.keeps_leave`: a return and the end
  of an invocation keep what survives all changes but allocations.
- Theorems `keeps_call` and `GrowthClosed.keeps_enter`: calls keep what
  survives allocations as well.
- Theorem `RunClosed.step_keeps`: a step keeps what survives the changes and what else
  happens to the open invocations.
- Theorem `RunClosed.run_keeps`: so does a run, which leaves no invocation open.
-/

namespace FrameMachine

/-- The function whose frame has been pushed, if an event tells that. -/
def Event.pushed? : Event → Option UInt16
  | .framePushed _ operator _ => some operator
  | _ => none

namespace Machine

/-! ## Changes -/

/-- A property of machines that survives whatever is done to a machine that neither
allocates a frame nor fails. -/
structure ChangeClosed (I : Machine → Prop) : Prop where
  note {m : Machine} {e : Event} (he : e.pushed? = none) : I m → I (m.note e)
  store {m : Machine} (offset : Nat) (bytes : Bytes) :
    I m → I (m.modifyArena (Arena.store offset bytes))
  modifyActive {m : Machine} (change : Frame → Frame) :
    I m → I (m.modifyStack (CallStack.modifyActive change))
  unwindTo {m : Machine} (index : Nat) : I m → I (m.modifyStack (CallStack.unwindTo index))
  releaseFrame {m : Machine} (window : Window) : I m → I (m.releaseFrame window)

/-- A property of machines that survives the allocation of frames for functions as well. -/
structure GrowthClosed (program : Program) (I : Machine → Prop) : Prop
    extends ChangeClosed I where
  framed {m : Machine} {function : UInt16} {routine : Routine}
    (hroutine : program.routine? function = some routine)
    (hroom : m.shortage routine.descriptor.size.toNat = none) :
    I m → I (m.framed function routine.descriptor.size)

section Changes

variable {I : Machine → Prop}

section Returns

variable (hI : ChangeClosed I)
include hI

theorem ChangeClosed.storeClosed : StoreClosed 0 I :=
  fun _ offset bytes _ h => hI.store offset bytes h

theorem ChangeClosed.keeps_collect (call : Invocation) : Keeps I (collect call) := by
  intro m h
  have hjump := hI.modifyActive (fun f => { f with instructionPointer := call.resumeAt }) h
  rw [collect_eq]
  split
  · dsimp only
    split
    · exact hjump
    · exact hI.note rfl (hI.releaseFrame call.window hjump)
  · exact h

/-- The end of an invocation. -/
theorem ChangeClosed.keeps_leave
    (hfail : ∀ {m : Machine} (cause : Fault), I m → I (m.fail cause)) (call : Invocation) :
    Keeps I (leave call) := by
  intro m h
  have hcollect := hI.keeps_collect call m h
  unfold leave guarded
  cases hc : collect call m <;> rw [hc] at hcollect
  · exact hcollect
  · exact hfail _ hcollect

end Returns

/-- The beginning of an invocation, or its refusal. -/
theorem GrowthClosed.keeps_enter {program : Program} (hI : GrowthClosed program I)
    (hfail : ∀ {m : Machine} (cause : Fault), I m → I (m.fail cause))
    (function : UInt16) (inputs : List Bytes) : Keeps I (enter program function inputs) := by
  intro m h
  have henter := enter_keeps program function inputs hI.storeClosed
    (Nat.zero_le m.arena.stackPointer) fun _ hroutine hroom =>
      hI.note rfl (hI.framed hroutine hroom h)
  cases hresult : enter program function inputs m with
  | ok call m' =>
      rw [hresult] at henter
      exact henter.1
  | error e m' =>
      rw [hresult] at henter
      cases e with
      | rejected reason => exact henter.symm ▸ h
      | fault cause =>
          obtain ⟨n, hn, rfl⟩ := henter
          exact hfail cause hn

end Changes
end Machine

namespace Interpreter

open Machine

/-! ## Calls and returns -/

section Changes

variable {program : Program} {I : Machine → Prop}

theorem keeps_call (hI : GrowthClosed program I) (site : Site) {function : UInt16}
    {callee : Routine} (hcallee : program.routine? function = some callee)
    (sources : List Address) : Keeps I (call site function callee sources) := by
  intro m h
  rw [call_eq]
  cases hroom : m.shortage callee.descriptor.size.toNat with
  | some need => exact h
  | none =>
      exact keeps_passInputs hI.storeClosed _ (Nat.zero_le _) _ _ (hI.framed hcallee hroom h)

theorem keeps_completeCall (hI : ChangeClosed I) (site : Site) (caller : Nat) :
    Keeps I (completeCall program site caller) := by
  intro m h
  unfold completeCall
  cases suspendedCall program m caller with
  | error cause => exact h
  | ok found =>
      obtain ⟨callerSite, i⟩ := found
      dsimp only
      cases site.callee program site.location.function with
      | error cause => exact h
      | ok callee =>
          have hpass := keeps_passOutputs hI.storeClosed site.window callerSite
            (Nat.zero_le _)
            (callee.descriptor.outputs.zip (backToBack i.c.toNat callee.descriptor.outputs)) m h
          dsimp only
          generalize passOutputs _ _ _ _ = result at hpass ⊢
          cases result with
          | error cause m' => exact hpass
          | ok _ m' =>
              have hreleased := hI.releaseFrame site.window (hI.unwindTo caller hpass)
              exact hI.note rfl (hI.modifyActive _ hreleased)

theorem keeps_ret (hI : ChangeClosed I) (returnTo : Nat) (site : Site) :
    Keeps I (ret program returnTo site) := by
  intro m h
  cases hactive : m.stack.activeIndex with
  | zero =>
      have hret : ret program returnTo site m = .error (.noActiveFunction 0) m := by
        simp only [ret, hactive]
      rw [hret]
      exact h
  | succ caller =>
      have hcomplete : I (after (completeCall program site caller m)) :=
        keeps_completeCall hI site caller m h
      rw [ret_eq _ _ _ hactive]
      split
      · exact hI.unwindTo _ h
      · cases hc : completeCall program site caller m <;> rw [hc] at hcomplete <;>
          exact hcomplete

/-- A run goes on after a nested invocation, or fails. -/
theorem keeps_resume_of_leave (hI : ChangeClosed I) {s : Suspension} {m : Machine}
    (h : I (after (leave s.invocation m))) : I (after (resume s m)) := by
  unfold resume
  simp only [EStateM.adaptExcept]
  cases hl : leave s.invocation m with
  | error e m' =>
      rw [hl] at h
      exact h
  | ok outputs m' =>
      rw [hl] at h
      have hdeliver := keeps_deliver hI.storeClosed s.site (Nat.zero_le _)
        s.destination.toNat outputs m' h
      dsimp only
      generalize deliver _ _ _ _ = result at hdeliver ⊢
      cases result with
      | error cause m'' => exact hdeliver
      | ok _ m'' => exact hI.modifyActive _ hdeliver

end Changes

/-! ## Steps and runs -/

/-- A property of machines with open invocations, innermost first, that survives
everything that a run does. -/
structure RunClosed (program : Program) (I : List Invocation → Machine → Prop) : Prop where
  changes (opened : List Invocation) : GrowthClosed program (I opened)
  refused {opened : List Invocation} {m m' : Machine} {function : UInt16} {inputs : List Bytes}
    {e : InvokeError} (henter : enter program function inputs m = .error e m') :
    I opened m → I opened m'
  entered {opened : List Invocation} {m m' : Machine} {function : UInt16} {inputs : List Bytes}
    {invocation : Invocation} (henter : enter program function inputs m = .ok invocation m') :
    I opened m → I (invocation :: opened) m'
  failed {opened : List Invocation} {m : Machine} {invocation : Invocation} (cause : Fault) :
    I (invocation :: opened) m → I opened (m.fail cause)
  left {opened : List Invocation} {m : Machine} {invocation : Invocation} :
    I (invocation :: opened) m → I opened (after (leave invocation m))

/-- What survives all changes and a failure survives everything that a run does. -/
theorem runClosed_of_growthClosed {program : Program} {I : Machine → Prop}
    (hI : GrowthClosed program I)
    (hfail : ∀ {m : Machine} (cause : Fault), I m → I (m.fail cause)) :
    RunClosed program fun _ => I where
  changes _ := hI
  refused {_ m _ function inputs _} henter h := by
    have hafter := hI.keeps_enter hfail function inputs m h
    rw [henter] at hafter
    exact hafter
  entered {_ m _ function inputs _} henter h := by
    have hafter := hI.keeps_enter hfail function inputs m h
    rw [henter] at hafter
    exact hafter
  failed cause h := hfail cause h
  left h := hI.keeps_leave hfail _ _ h

/-- The open invocations of a run. -/
def invocations (suspended : List Suspension) : List Invocation :=
  suspended.map Suspension.invocation

/-- What carrying out an instruction leads to: the run is where it was, or an invocation
has been opened. -/
def ProgressKeeps (I : List Invocation → Machine → Prop) (opened : List Invocation) :
    EStateM.Result Fault Machine Progress → Prop
  | .ok (.nested s) m => I (s.invocation :: opened) m
  | .ok .running m | .ok .returned m | .error _ m => I opened m

section Runs

variable {program : Program} {I : List Invocation → Machine → Prop}
  {opened : List Invocation} (hI : RunClosed program I)
include hI

/-- A fault closes all open invocations. -/
theorem RunClosed.keeps_abandon {suspended : List Suspension} {cause : Fault} {m : Machine}
    (h : I (invocations suspended) m) : I [] (abandon suspended cause m).2 := by
  induction suspended generalizing cause m with
  | nil => exact h
  | cons s outer ih => exact ih (hI.failed cause h)

theorem RunClosed.execute_keeps (returnTo : Nat) (site : Site) (i : Instruction) {m : Machine}
    (h : I opened m) : ProgressKeeps I opened (execute program returnTo site i m) := by
  have hchanges := hI.changes opened
  unfold execute
  cases hplan : Plan.ofInstruction program m site i with
  | error cause => exact h
  | ok plan =>
      cases planned_of_ofInstruction hplan with
      | next => exact hchanges.modifyActive _ h
      | goto target => exact hchanges.modifyActive _ h
      | store bytes hbase => exact hchanges.modifyActive _ (hchanges.store _ _ h)
      | call hcallee sources =>
          have hcall := keeps_call hchanges site hcallee sources m h
          dsimp only
          rw [carryOut_call]
          generalize call _ _ _ _ _ = result at hcall ⊢
          cases result <;> exact hcall
      | callback inputs =>
          dsimp only
          rw [carryOut_callback]
          cases henter : enter program i.a inputs m with
          | error e m' => exact hI.refused henter h
          | ok invocation m' => exact hI.entered henter h
      | ret =>
          have hret : I opened (after (ret program returnTo site m)) :=
            keeps_ret hchanges.toChangeClosed returnTo site m h
          dsimp only
          rw [carryOut_ret]
          generalize ret _ _ _ _ = result at hret ⊢
          cases result with
          | error cause m' => exact hret
          | ok finished m' => cases finished <;> exact hret

/-- A step keeps what survives everything that a run does. -/
theorem RunClosed.step_keeps {x : Execution} (h : I (invocations x.suspended) x.machine) :
    (step program x).Leads (fun y => I (invocations y.suspended) y.machine)
      (fun back => I [] back.machine) := by
  obtain ⟨interpreter, m, returnTo, suspended⟩ := x
  have hstop {interpreter : Interpreter} {suspended : List Suspension} {cause : Fault}
      {m : Machine} (h : I (invocations suspended) m) :
      (stop interpreter suspended cause m).Leads (fun y => I (invocations y.suspended) y.machine)
        (fun back => I [] back.machine) := hI.keeps_abandon h
  unfold step
  dsimp only
  cases fetch program m with
  | error cause => exact hstop h
  | ok found =>
      obtain ⟨site, i⟩ := found
      dsimp only
      split
      · exact hstop h
      · have hexecute := hI.execute_keeps (innermostReturn returnTo suspended) site i
          ((hI.changes _).note (e := .executing m.stack.activeIndex site.location i) rfl h)
        generalize execute _ _ _ _ _ = result at hexecute ⊢
        cases result with
        | error cause m' => exact hstop hexecute
        | ok progress m' =>
            cases progress with
            | running => exact hexecute
            | nested s => exact hexecute
            | returned =>
                cases suspended with
                | nil => exact hexecute
                | cons s outer =>
                    have hresume := keeps_resume_of_leave (hI.changes _).toChangeClosed
                      (hI.left hexecute)
                    simp only [settle]
                    cases hr : resume s m' <;> rw [hr] at hresume
                    · exact hresume
                    · exact hstop hresume

/-- A run keeps what survives everything that a run does, and leaves no invocation
open. -/
theorem RunClosed.run_keeps {interpreter : Interpreter} {m : Machine} {start returnTo : Nat}
    {back : Comeback Interpreter} (h : I [] m)
    (hrun : run program interpreter m start returnTo = some back) : I [] back.machine := by
  unfold run at hrun
  split at hrun
  · exact runFor_induct (fun _ => hI.step_keeps) _ ⟨interpreter, m, returnTo, []⟩ back h
      (runFor_of_complete hrun)
  · cases hrun
    exact h

end Runs
end Interpreter
end FrameMachine
