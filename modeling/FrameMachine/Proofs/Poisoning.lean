import FrameMachine.Proofs.Changes

/-!
# When a machine is poisoned

Only the failure of an invocation sets the poison flag, and nothing takes it back.  A fault
of the interpreter is that of a single instruction, or it wraps the fault in which the
invocation of a CALLBACK has ended; then that invocation has poisoned the machine.  So the
machine that a run leaves behind is poisoned if it was before, or if the run has ended in a
fault that wraps another one.  Any other fault of a run poisons the machine only when an
invocation takes it over.

Main results:

- Theorems `Machine.poisoned_of_enter_error` and `Machine.poisoned_conclude`: an invocation
  poisons the machine exactly if it ends in a fault.
- Theorems `Fails.bind` and `Machine.Raises.bind`: the errors of a sequence are those of
  its parts.
- Theorems `fails_ofInstruction` and `raises_ret`: an instruction that is no CALLBACK wraps
  no fault.
- Theorem `step_marks`: a step poisons the machine exactly if it ends the run in a fault
  that wraps another one.
- Theorem `run_poisoned`: so does a run.
-/

namespace FrameMachine
namespace Machine

/-! ## The poison flag of an invocation -/

section Invocations

variable {program : Program} {m m' : Machine}

/-- Only a failure changes the poison flag. -/
theorem changeClosed_poisoned (b : Bool) : ChangeClosed fun m => m.poisoned = b where
  note _ h := h
  store _ _ h := h
  modifyActive _ h := h
  unwindTo _ h := h
  releaseFrame window h := (releaseFrame_poisoned window _).trans h

/-- Allocating a frame does not change it either. -/
theorem growthClosed_poisoned (program : Program) (b : Bool) :
    GrowthClosed program fun m => m.poisoned = b where
  toChangeClosed := changeClosed_poisoned b
  framed _ _ h := h

/-- An invocation that has been entered has not changed the poison flag. -/
theorem poisoned_of_enter {function : UInt16} {inputs : List Bytes} {call : Invocation}
    (h : enter program function inputs m = .ok call m') : m'.poisoned = m.poisoned := by
  have henter := enter_keeps program function inputs (changeClosed_poisoned m.poisoned).storeClosed
    (Nat.zero_le m.arena.stackPointer) fun _ _ _ => rfl
  rw [h] at henter
  exact henter.1

/-- A request that fails poisons the machine if it ends in a fault, and changes nothing
otherwise. -/
theorem poisoned_of_enter_error {function : UInt16} {inputs : List Bytes} {e : InvokeError}
    (h : enter program function inputs m = .error e m') :
    m'.poisoned = true ↔ m.poisoned = true ∨ ∃ cause, e = .fault cause := by
  have henter := enter_keeps program function inputs (changeClosed_poisoned m.poisoned).storeClosed
    (Nat.zero_le m.arena.stackPointer) fun _ _ _ => rfl
  rw [h] at henter
  cases e with
  | rejected reason => simp [show m' = m from henter]
  | fault cause =>
      rcases henter with ⟨n, -, rfl⟩
      simp [Machine.fail]

/-- Concluding an invocation poisons the machine exactly if it ends in a fault. -/
theorem poisoned_conclude {σ : Type} (call : Invocation) (back : Comeback σ) :
    (conclude call back).machine.poisoned = true ↔ back.machine.poisoned = true ∨
      ∃ cause, (conclude call back).outcome = .error (.fault cause) := by
  rcases back with ⟨verdict, engine, n⟩
  cases verdict with
  | error cause => simp [conclude, Machine.fail]
  | ok _ =>
      have hcollect := (changeClosed_poisoned n.poisoned).keeps_collect call n rfl
      simp only [conclude, leave, guarded]
      cases hc : collect call n with
      | ok outputs n' =>
          rw [hc] at hcollect
          simp only [after] at hcollect
          simp [hcollect]
      | error cause n' => simp [Machine.fail]

end Invocations
end Machine

/-! ## Wrapped faults -/

/-- Whether a fault is that of a CALLBACK whose invocation has ended in a fault. -/
def Fault.wraps : Fault → Bool
  | .callbackFault .. => true
  | .unknownFunction .. | .endOfCode _ | .outOfFrame .. | .slotOutOfFrame _ | .memory _
  | .invalidWidth .. | .divisionByZero _ | .exhausted .. | .callbackRejected .. | .badReturn _
  | .trap .. | .fuelExhausted _ | .noActiveFunction _ | .desync _ => false

/-- A fault that wraps no other one. -/
def Fault.Plain (cause : Fault) : Prop := cause.wraps = false

theorem Fault.wraps_iff {cause : Fault} :
    cause.wraps = true ↔ ∃ site inner, cause = .callbackFault site inner := by
  cases cause <;> simp [wraps]

/-! ## The errors of a computation -/

section Errors

variable {ε δ α β : Type} {P : ε → Prop}

/-- Every error of a result is in `P`. -/
def Fails (P : ε → Prop) (x : Except ε α) : Prop :=
  ∀ e, x = .error e → P e

theorem fails_ok (a : α) : Fails P (.ok a) :=
  nofun

theorem fails_error {e : ε} (h : P e) : Fails P (.error e : Except ε α) := by
  rintro _ ⟨⟩
  exact h

/-- The errors of a sequence are those of its parts. -/
theorem Fails.bind {x : Except ε α} {next : α → Except ε β} (hx : Fails P x)
    (hnext : ∀ a, Fails P (next a)) : Fails P (x >>= next) := by
  cases x with
  | error e => exact fails_error (hx e rfl)
  | ok a => exact hnext a

theorem fails_mapError (rename : δ → ε) (hrename : ∀ d, P (rename d)) (x : Except δ α) :
    Fails P (x.mapError rename) := by
  cases x with
  | error d => exact fails_error (hrename d)
  | ok a => exact fails_ok a

theorem Fails.mapM {f : α → Except ε β} (hf : ∀ a, Fails P (f a)) (as : List α) :
    Fails P (as.mapM f) := by
  induction as with
  | nil => exact fails_ok _
  | cons a as ih =>
      rw [List.mapM_cons]
      exact (hf a).bind fun _ => ih.bind fun _ => fails_ok _

namespace Machine

/-- Every error of an action is in `P`. -/
def Raises (P : ε → Prop) (act : Action ε α) : Prop :=
  ∀ m e m', act m = .error e m' → P e

theorem raises_pure (a : α) : Raises P (pure a : Action ε α) := by
  intro m e m' h
  contradiction

theorem raises_check {x : Except ε α} (hx : Fails P x) : Raises P (check x) := by
  intro m e m' h
  cases x with
  | error found =>
      cases h
      exact hx e rfl
  | ok a => contradiction

/-- The errors of a sequence are those of its parts. -/
theorem Raises.bind {act : Action ε α} {next : α → Action ε β} (hact : Raises P act)
    (hnext : ∀ a, Raises P (next a)) : Raises P (act >>= next) := by
  intro m e m' h
  simp only [Bind.bind, EStateM.bind] at h
  cases hr : act m with
  | ok a n =>
      rw [hr] at h
      exact hnext a n e m' h
  | error e' n =>
      rw [hr] at h
      cases h
      exact hact m e m' hr

theorem raises_adaptExcept (rename : δ → ε) (hrename : ∀ d, P (rename d)) (act : Action δ α) :
    Raises P (act.adaptExcept rename) := by
  intro m e m' h
  simp only [EStateM.adaptExcept] at h
  cases hr : act m with
  | ok a n =>
      rw [hr] at h
      contradiction
  | error d n =>
      rw [hr] at h
      cases h
      exact hrename d

end Machine
end Errors

/-! ## Planning -/

open Fault (Plain)

section Planning

variable (program : Program) (m : Machine) (site : Site)

theorem fails_slotRange (window : Window) (s : Slot) : Fails Plain (Machine.slotRange window s) :=
  fails_mapError Fault.slotOutOfFrame (fun _ => rfl) _

theorem fails_bytesAt (range : Address) : Fails Plain (m.bytesAt range) :=
  fails_mapError Fault.memory (fun _ => rfl) _

theorem fails_resolve (offset length : Nat) : Fails Plain (site.resolve offset length) :=
  fails_mapError (Fault.outOfFrame site.location) (fun _ => rfl) _

theorem fails_operand (offset length : Nat) : Fails Plain (site.operand m offset length) :=
  (fails_resolve site offset length).bind (fails_bytesAt m)

theorem fails_word (offset : UInt16) : Fails Plain (site.word m offset) :=
  (fails_operand m site _ _).bind fun _ => fails_ok _

theorem fails_flag (offset : UInt16) : Fails Plain (site.flag m offset) :=
  (fails_operand m site _ _).bind fun _ => fails_ok _

theorem fails_callee (function : UInt16) : Fails Plain (site.callee program function) := by
  unfold Site.callee
  split
  · exact fails_ok _
  · exact fails_error rfl

theorem fails_storing (destination : UInt16) (bytes : Bytes) :
    Fails Plain (Plan.storing m site destination bytes) :=
  (fails_resolve site _ _).bind fun _ =>
    (fails_mapError Fault.memory (fun _ => rfl) _).bind fun _ => fails_ok _

theorem fails_combining (i : Instruction) (result : Int32 → Int32 → Bytes) :
    Fails Plain (Plan.combining m site i result) :=
  (fails_word m site _).bind fun _ => (fails_word m site _).bind fun _ => fails_storing m site _ _

theorem fails_jumpingIf (wanted : Bool) (i : Instruction) :
    Fails Plain (Plan.jumpingIf wanted m site i) :=
  (fails_flag m site _).bind fun _ => fails_ok _

/-- An instruction that cannot be planned wraps no fault. -/
theorem fails_ofInstruction (i : Instruction) :
    Fails Plain (Plan.ofInstruction program m site i) := by
  unfold Plan.ofInstruction
  split
  case h_1 | h_10 | h_15 => exact fails_ok _
  case h_2 =>
    split
    · exact fails_storing m site _ _
    · exact fails_error rfl
  case h_3 =>
    refine (fails_resolve site _ _).bind fun source => ?_
    refine (fails_resolve site _ _).bind fun range => ?_
    refine (fails_bytesAt m source).bind fun bytes => ?_
    exact (fails_mapError Fault.memory (fun _ => rfl) _).bind fun _ => fails_ok _
  case h_7 =>
    refine (fails_word m site _).bind fun divisor => ?_
    split
    · exact fails_error rfl
    · exact fails_combining m site i _
  case h_4 | h_5 | h_6 | h_8 | h_9 => exact fails_combining m site i _
  case h_11 | h_12 => exact fails_jumpingIf m site _ i
  case h_13 =>
    refine (fails_callee program site _).bind fun callee => ?_
    exact (Fails.mapM (fun _ => fails_resolve site _ _) _).bind fun _ => fails_ok _
  case h_14 =>
    refine (fails_callee program site _).bind fun callee => ?_
    exact (Fails.mapM (fun _ => fails_operand m site _ _) _).bind fun _ => fails_ok _
  case h_16 => exact fails_error rfl

end Planning

namespace Interpreter

open Machine

section Actions

variable (program : Program)

/-! ## Calls and returns -/

theorem raises_writeBytes (offset : Nat) (bytes : Bytes) : Raises Plain (writeBytes offset bytes) :=
  raises_adaptExcept Fault.memory (fun _ => rfl) _

theorem raises_copyBytes (source : Address) (target : Nat) :
    Raises Plain (copyBytes source target) :=
  raises_adaptExcept Fault.memory (fun _ => rfl) _

theorem raises_passInputs (window : Window) (inputs : List (Address × Slot)) :
    Raises Plain (passInputs window inputs) := by
  induction inputs with
  | nil => exact raises_pure _
  | cons input rest ih =>
      exact (raises_check (fails_slotRange window _)).bind fun _ =>
        (raises_copyBytes _ _).bind fun _ => ih

theorem raises_passOutputs (window : Window) (caller : Site) (outputs : List (Slot × Nat × Nat)) :
    Raises Plain (passOutputs window caller outputs) := by
  induction outputs with
  | nil => exact raises_pure _
  | cons output rest ih =>
      exact (raises_check (fails_slotRange window _)).bind fun _ =>
        (raises_check (fails_resolve caller _ _)).bind fun _ =>
        (raises_copyBytes _ _).bind fun _ => ih

theorem raises_deliver (site : Site) (offset : Nat) (outputs : List Bytes) :
    Raises Plain (deliver site offset outputs) := by
  induction outputs generalizing offset with
  | nil => exact raises_pure _
  | cons bytes rest ih =>
      exact (raises_check (fails_resolve site _ _)).bind fun _ =>
        (raises_writeBytes _ _).bind fun _ => ih _

/-- A CALL wraps no fault. -/
theorem raises_call (site : Site) (function : UInt16) (callee : Routine)
    (sources : List Address) : Raises Plain (call site function callee sources) :=
  (raises_adaptExcept (Fault.exhausted site.location) (fun _ => rfl) _).bind fun _ =>
    raises_passInputs _ _

theorem fails_suspendedCall (m : Machine) (index : Nat) :
    Fails Plain (suspendedCall program m index) := by
  unfold suspendedCall
  split
  · exact fails_error rfl
  · dsimp only
    split
    · exact fails_error rfl
    · split
      · exact fails_ok _
      · exact fails_error rfl

theorem raises_completeCall (site : Site) (caller : Nat) :
    Raises Plain (completeCall program site caller) := by
  intro m cause m' h
  unfold completeCall at h
  have hsuspended := fails_suspendedCall program m caller
  cases hcall : suspendedCall program m caller with
  | error found =>
      rw [hcall] at h
      cases h
      exact hsuspended cause hcall
  | ok found =>
      have hcallee := fails_callee program site site.location.function
      rw [hcall] at h
      dsimp only at h
      cases hfound : site.callee program site.location.function with
      | error unknown =>
          rw [hfound] at h
          cases h
          exact hcallee cause hfound
      | ok callee =>
          rw [hfound] at h
          dsimp only at h
          split at h
          · rename_i hpass
            cases h
            exact raises_passOutputs _ _ _ _ _ _ hpass
          · contradiction

/-- A return wraps no fault. -/
theorem raises_ret (returnTo : Nat) (site : Site) : Raises Plain (ret program returnTo site) := by
  intro m cause m' h
  unfold ret at h
  split at h
  · cases h
    rfl
  · split at h
    · contradiction
    · split at h
      · rename_i hcomplete
        cases h
        exact raises_completeCall program site _ _ _ _ hcomplete
      · contradiction

theorem fails_fetch (m : Machine) : Fails Plain (fetch program m) := by
  unfold fetch
  split
  · exact fails_error rfl
  · dsimp only
    split
    · exact fails_error rfl
    · exact fails_ok _

end Actions

/-! ## The poison flag of a run -/

section Marks

variable {program : Program} {m : Machine} {b : Bool}

/-- The poison flag is `b`, unless a fault that wraps another one says that it is set. -/
def Marks {α : Type} (b : Bool) : EStateM.Result Fault Machine α → Prop
  | .ok _ m => m.poisoned = b
  | .error cause m => m.poisoned = (b || cause.wraps)

/-- An action that does not change the poison flag and wraps no fault. -/
theorem marks_of_raises {α : Type} {act : Action Fault α}
    (hkeeps : (after (act m)).poisoned = b) (hraises : Raises Plain act) : Marks b (act m) := by
  cases h : act m with
  | ok a m' =>
      rw [h] at hkeeps
      exact hkeeps
  | error cause m' =>
      rw [h] at hkeeps
      exact hkeeps.trans (by rw [hraises m cause m' h, Bool.or_false])

/-- A CALLBACK whose invocation is refused, or fails at once. -/
theorem marks_of_enter_error {α : Type} (h : m.poisoned = b) {function : UInt16}
    {inputs : List Bytes} {e : InvokeError} {m' : Machine}
    (henter : enter program function inputs m = .error e m') (site : Location) :
    Marks b (.error (e.atCallback site) m' : EStateM.Result Fault Machine α) := by
  have hpoisoned := poisoned_of_enter_error henter
  refine Bool.eq_iff_iff.mpr ?_
  cases e <;> simp [hpoisoned, h, InvokeError.atCallback, Fault.wraps]

/-- An instruction poisons the machine exactly if its fault wraps another one. -/
theorem execute_marks (h : m.poisoned = b) (returnTo : Nat) (site : Site) (i : Instruction) :
    Marks b (execute program returnTo site i m) := by
  have hclosed := growthClosed_poisoned program b
  unfold execute
  cases hplan : Plan.ofInstruction program m site i with
  | error cause =>
      refine h.trans ?_
      rw [fails_ofInstruction program m site i cause hplan, Bool.or_false]
  | ok plan =>
      cases planned_of_ofInstruction hplan with
      | next => exact h
      | goto target => exact h
      | store bytes hbase => exact h
      | call hcallee sources =>
          have hcall := marks_of_raises (keeps_call hclosed site hcallee sources m h)
            (raises_call site i.a _ sources)
          dsimp only
          rw [carryOut_call]
          generalize call _ _ _ _ _ = result at hcall ⊢
          cases result <;> exact hcall
      | callback inputs =>
          dsimp only
          rw [carryOut_callback]
          cases henter : enter program i.a inputs m with
          | error e m' => exact marks_of_enter_error h henter site.location
          | ok invocation m' => exact (poisoned_of_enter henter).trans h
      | ret =>
          have hret := marks_of_raises (keeps_ret hclosed.toChangeClosed returnTo site m h)
            (raises_ret program returnTo site)
          dsimp only
          rw [carryOut_ret]
          generalize ret _ _ _ _ = result at hret ⊢
          cases result with
          | error cause m' => exact hret
          | ok finished m' => exact hret

/-- Going on after a nested invocation poisons the machine exactly if its fault wraps
another one: then the invocation has not been left well. -/
theorem resume_marks (h : m.poisoned = b) (s : Suspension) : Marks b (resume s m) := by
  have hcollect := (changeClosed_poisoned b).keeps_collect s.invocation m h
  rw [resume_eq]
  cases hc : collect s.invocation m with
  | error cause m' => exact (Bool.or_true b).symm
  | ok outputs m' =>
      rw [hc] at hcollect
      have hdeliver := marks_of_raises
        (keeps_deliver (changeClosed_poisoned b).storeClosed s.site (Nat.zero_le _)
          s.destination.toNat outputs m' hcollect)
        (raises_deliver s.site s.destination.toNat outputs)
      dsimp only
      generalize deliver _ _ _ _ = result at hdeliver ⊢
      cases result with
      | error cause m'' => exact hdeliver
      | ok _ m'' => exact hdeliver

/-- Every invocation that a fault ends wraps it and poisons the machine. -/
theorem abandon_marks (suspended : List Suspension) {cause : Fault}
    (h : m.poisoned = (b || cause.wraps)) :
    (abandon suspended cause m).2.poisoned = (b || (abandon suspended cause m).1.wraps) := by
  induction suspended generalizing cause m with
  | nil => exact h
  | cons s outer ih => exact ih (Bool.or_true b).symm

/-- A run has ended in a fault that wraps another one. -/
def Wrapped (verdict : Except Fault Unit) : Bool :=
  match verdict with
  | .ok () => false
  | .error cause => cause.wraps

theorem wrapped_iff {verdict : Except Fault Unit} :
    Wrapped verdict = true ↔ ∃ site inner, verdict = .error (.callbackFault site inner) := by
  cases verdict with
  | ok _ => simp [Wrapped]
  | error cause => simp [Wrapped, Fault.wraps_iff]

/-- A step poisons the machine exactly if it ends the run in a fault that wraps another
one. -/
theorem step_marks {x : Execution} (h : x.machine.poisoned = b) :
    (step program x).Leads (fun y => y.machine.poisoned = b)
      (fun back => back.machine.poisoned = (b || Wrapped back.verdict)) := by
  rcases x with ⟨interpreter, m, returnTo, suspended⟩
  have hplain {cause : Fault} (hcause : cause.Plain) : m.poisoned = (b || cause.wraps) := by
    rw [hcause, Bool.or_false]
    exact h
  unfold step
  dsimp only
  cases hfetch : fetch program m with
  | error cause => exact abandon_marks suspended (hplain (fails_fetch program m cause hfetch))
  | ok found =>
      rcases found with ⟨site, i⟩
      dsimp only
      split
      · exact abandon_marks suspended (hplain rfl)
      · have hnoted : (m.note (.executing m.stack.activeIndex site.location i)).poisoned = b := h
        have hexecute := @execute_marks program _ _ hnoted
          (innermostReturn returnTo suspended) site i
        generalize execute _ _ _ _ _ = result at hexecute ⊢
        cases result with
        | error cause m' => exact abandon_marks suspended hexecute
        | ok progress m' =>
            cases progress with
            | running => exact hexecute
            | nested s => exact hexecute
            | returned =>
                cases suspended with
                | nil => exact hexecute.trans (Bool.or_false b).symm
                | cons s outer =>
                    have hresume := resume_marks hexecute s
                    simp only [settle]
                    generalize resume s m' = result at hresume ⊢
                    cases result with
                    | error cause m'' => exact abandon_marks outer hresume
                    | ok _ m'' => exact hresume

/-- A machine is poisoned after a run exactly if it was before, or the run has ended in a
fault that wraps another one. -/
theorem run_poisoned {interpreter : Interpreter} {start returnTo : Nat}
    {back : Comeback Interpreter}
    (hrun : run program interpreter m start returnTo = some back) :
    back.machine.poisoned = true ↔
      m.poisoned = true ∨ ∃ site inner, back.verdict = .error (.callbackFault site inner) := by
  have hmarks : back.machine.poisoned = (m.poisoned || Wrapped back.verdict) := by
    unfold run at hrun
    split at hrun
    · exact runFor_induct (fun _ => step_marks) _ ⟨interpreter, m, returnTo, []⟩ back rfl
        (runFor_of_complete hrun)
    · cases hrun
      exact (Bool.or_false _).symm
  rw [hmarks, Bool.or_eq_true, wrapped_iff]

end Marks
end Interpreter
end FrameMachine
