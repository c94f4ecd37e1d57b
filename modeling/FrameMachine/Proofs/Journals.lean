import FrameMachine.Proofs.Poisoning
import FrameMachine.Proofs.Courses

/-!
# What the journal tells of an invocation

A machine notes its events as they happen.  Of an invocation it notes one frame for
every frame that is pushed and one instruction for every instruction that the interpreter
counts, whatever the outcome.  Faults are noted as they are taken over: an invocation that
ends in a fault has noted the faults that this fault wraps, the innermost one first, and
then the fault itself.  No other invocation notes a fault.

Main results:

- Theorems `quiet_collect`, `quiet_ret` and `pushed_enter`: returns note no fault and push
  no frame, and an invocation that begins pushes one.
- Theorem `execute_told`: an instruction notes the frame that it pushes, and the faults
  that its own fault wraps.
- Theorem `abandon_notes`: a fault that ends an invocation is noted and wrapped.
- Theorems `step_told` and `runFor_told`: a step and a run note, besides, the instructions
  that they count.
- Theorem `Machine.invoke_noted`: what an invocation notes.
-/

namespace FrameMachine

/-! ## Events -/

/-- The faults that a fault wraps, outermost first. -/
def Fault.wrapped : Fault → List Fault
  | .callbackFault _ cause => cause :: cause.wrapped
  | _ => []

theorem Fault.wrapped_of_plain {cause : Fault} (h : cause.Plain) : cause.wrapped = [] := by
  cases cause with
  | callbackFault site inner => exact absurd (show true = false from h) (by decide)
  | _ => rfl

/-- The faults of an invocation that brings an error, the innermost one first. -/
def InvokeError.faults : InvokeError → List Fault
  | .rejected _ => []
  | .fault cause => (cause :: cause.wrapped).reverse

/-- The fault of a CALLBACK wraps those of its invocation. -/
theorem InvokeError.wrapped_atCallback (e : InvokeError) (site : Location) :
    (e.atCallback site).wrapped.reverse = e.faults := by
  cases e <;> rfl

namespace Event

/-- The fault that an event tells of, if any. -/
def cause? : Event → Option Fault
  | faulted cause => some cause
  | _ => none

/-- Whether an event tells that an instruction is about to run. -/
def isInstruction : Event → Bool
  | executing .. => true
  | _ => false

/-- Whether an event tells that a frame has been pushed. -/
def isPush (e : Event) : Bool := e.pushed?.isSome

/-! ### What messages tell -/

/-- The text with which all messages of a kind start. -/
def lead : Event → String
  | framePushed .. => "push frame "
  | invoked .. => "invoke fn "
  | returned .. => "fn "
  | faulted _ => ""
  | executing .. => "frame "
  | resumed .. => "return from fn "
  | measured .. => "fn "

section Messages

variable {e : Event} {mark : String}

theorem lead_isPrefix (e : Event) : e.lead.toList <+: e.message.toList := by
  cases e with
  | faulted cause => exact List.nil_prefix
  | _ =>
      unfold message
      simp only [String.toList_append, List.append_assoc]
      exact List.prefix_append ..

theorem message_startsWith (e : Event) : e.message.startsWith e.lead = true :=
  String.startsWith_string_iff.mpr (lead_isPrefix e)

/-- A message starts with nothing that its lead does not agree with. -/
theorem message_not_startsWith (h : ¬mark.toList <+: e.lead.toList)
    (h' : ¬e.lead.toList <+: mark.toList) : e.message.startsWith mark = false := by
  rw [← Bool.not_eq_true, String.startsWith_string_iff]
  intro hmark
  rcases List.prefix_or_prefix_of_prefix hmark (lead_isPrefix e) with hprefix | hprefix
  · exact h hprefix
  · exact h' hprefix

/-- Of all messages with the level of debugging those about frames that have been pushed
start in a way of their own. -/
theorem isPush_eq (e : Event) :
    e.isPush = (decide (e.level = .debug) && e.message.startsWith "push frame ") := by
  cases e with
  | framePushed index operator window =>
      exact (message_startsWith (framePushed index operator window)).symm
  | invoked function frame previous =>
      rw [message_not_startsWith (by simp [lead]) (by simp [lead])]
      rfl
  | returned function outputs =>
      rw [message_not_startsWith (by simp [lead]) (by simp [lead])]
      rfl
  | _ => rfl

/-- So do, of all messages with the level of tracing, those about instructions. -/
theorem isInstruction_eq (e : Event) :
    e.isInstruction = (decide (e.level = .trace) && e.message.startsWith "frame ") := by
  cases e with
  | executing frame site i => exact (message_startsWith (executing frame site i)).symm
  | resumed function caller =>
      rw [message_not_startsWith (by simp [lead]) (by simp [lead])]
      rfl
  | _ => rfl

/-- Errors are faults that have been noted. -/
theorem map_message_errors (events : List Event) :
    (events.filter fun e => e.level = .error).map message =
      (events.filterMap cause?).map fun cause => cause.message ++ "; machine poisoned" := by
  induction events with
  | nil => rfl
  | cons e events ih =>
      cases e with
      | faulted cause => exact congrArg (_ :: ·) ih
      | _ => exact ih

end Messages
end Event

namespace Machine

/-! ## What has been noted -/

/-- Between two machines events have been noted that tell of these faults, in order, and
of as many instructions and frames. -/
def Notes (causes : List Fault) (instructions frames : Nat) (m m' : Machine) : Prop :=
  ∃ events, m'.journal.toList = m.journal.toList ++ events ∧
    events.filterMap Event.cause? = causes ∧
    events.countP Event.isInstruction = instructions ∧ events.countP Event.isPush = frames

/-- Number of frames by which the live part of the call stack has grown. -/
def growth (m m' : Machine) : Nat := m'.stack.activeIndex - m.stack.activeIndex

/-- Nothing has been noted of faults, instructions and frames, and no frame has become
live. -/
structure Quiet (m m' : Machine) : Prop where
  notes : Notes [] 0 0 m m'
  active_le : m'.stack.activeIndex ≤ m.stack.activeIndex

/-- One frame has become live and has been noted, and nothing else. -/
structure Pushed (m m' : Machine) : Prop where
  notes : Notes [] 0 1 m m'
  active_eq : m'.stack.activeIndex = m.stack.activeIndex + 1

section Notes

variable {program : Program} {m m' m'' : Machine} {causes causes' : List Fault}
  {instructions instructions' frames frames' : Nat}

theorem notes_of_eq (h : m'.journal = m.journal) : Notes [] 0 0 m m' :=
  ⟨[], by rw [h, List.append_nil], rfl, rfl, rfl⟩

theorem notes_note (m : Machine) (e : Event) :
    Notes e.cause?.toList e.isInstruction.toNat e.isPush.toNat m (m.note e) := by
  refine ⟨[e], Array.toList_push, ?_, ?_, ?_⟩
  · cases hcause : e.cause? <;> simp [hcause]
  · cases hinstruction : e.isInstruction <;> simp [hinstruction]
  · cases hpush : e.isPush <;> simp [hpush]

theorem Notes.trans (h : Notes causes instructions frames m m')
    (h' : Notes causes' instructions' frames' m' m'') :
    Notes (causes ++ causes') (instructions + instructions') (frames + frames') m m'' := by
  rcases h with ⟨events, hjournal, rfl, rfl, rfl⟩
  rcases h' with ⟨events', hjournal', rfl, rfl, rfl⟩
  refine ⟨events ++ events', ?_, List.filterMap_append, List.countP_append, List.countP_append⟩
  rw [hjournal', hjournal, List.append_assoc]

/-- The note of an instruction stands before everything that it leads to. -/
theorem notes_of_executing {frame : Nat} {site : Location} {i : Instruction}
    (h : Notes causes 0 frames (m.note (.executing frame site i)) m') :
    Notes causes 1 frames m m' := by
  have hfirst : Notes [] 1 0 m (m.note (.executing frame site i)) :=
    notes_note m (.executing frame site i)
  have hboth := hfirst.trans h
  rw [Nat.zero_add] at hboth
  exact hboth

/-- A plain fault wraps nothing that would have to be noted. -/
theorem Notes.of_plain {cause : Fault} (h : Notes [] instructions frames m m')
    (hplain : cause.Plain) : Notes cause.wrapped.reverse instructions frames m m' := by
  rw [Fault.wrapped_of_plain hplain]
  exact h

/-- An invocation that ends in a fault notes it after those that it wraps. -/
theorem Notes.concluded {cause : Fault}
    (h : Notes cause.wrapped.reverse instructions frames m m') :
    Notes (InvokeError.fault cause).faults instructions frames m (m'.fail cause) := by
  rw [InvokeError.faults, List.reverse_cons]
  have hfail : Notes [cause] 0 0 m' (m'.fail cause) := notes_note m' (.faulted cause)
  exact h.trans hfail

theorem Quiet.refl (m : Machine) : Quiet m m :=
  ⟨notes_of_eq rfl, Nat.le_refl _⟩

theorem Quiet.trans (h : Quiet m m') (h' : Quiet m' m'') : Quiet m m'' :=
  ⟨h.notes.trans h'.notes, Nat.le_trans h'.active_le h.active_le⟩

theorem growth_eq_zero (h : m'.stack.activeIndex ≤ m.stack.activeIndex) : growth m m' = 0 :=
  Nat.sub_eq_zero_of_le h

/-- As many frames have been noted as have become live. -/
theorem Quiet.notes_growth (h : Quiet m m') : Notes [] 0 (growth m m') m m' := by
  rw [growth_eq_zero h.active_le]
  exact h.notes

theorem Pushed.notes_growth (h : Pushed m m') : Notes [] 0 (growth m m') m m' := by
  rw [growth, h.active_eq, Nat.add_sub_cancel_left]
  exact h.notes

/-! ## Quiet changes -/

theorem quiet_store (m : Machine) (offset : Nat) (bytes : Bytes) :
    Quiet m (m.modifyArena (Arena.store offset bytes)) :=
  ⟨notes_of_eq rfl, Nat.le_refl _⟩

theorem storeClosed_quiet (m : Machine) : StoreClosed 0 (Quiet m) :=
  fun n offset bytes _ h => h.trans (quiet_store n offset bytes)

theorem storeClosed_pushed (m : Machine) : StoreClosed 0 (Pushed m) :=
  fun _ _ _ _ h => ⟨h.notes, h.active_eq⟩

theorem quiet_modifyActive (m : Machine) (change : Frame → Frame) :
    Quiet m (m.modifyStack (CallStack.modifyActive change)) :=
  ⟨notes_of_eq rfl, Nat.le_refl _⟩

theorem quiet_unwindTo (m : Machine) (index : Nat) :
    Quiet m (m.modifyStack (CallStack.unwindTo index)) :=
  ⟨notes_of_eq rfl, Nat.min_le_right ..⟩

theorem quiet_releaseFrame (m : Machine) (window : Window) : Quiet m (m.releaseFrame window) := by
  unfold releaseFrame
  split
  · exact ⟨notes_of_eq rfl, Nat.le_refl _⟩
  · exact Quiet.refl m

theorem quiet_returned (m : Machine) (function : UInt16) (outputs : Nat) :
    Quiet m (m.note (.returned function outputs)) :=
  ⟨notes_note m (.returned function outputs), Nat.le_refl _⟩

theorem quiet_resumed (m : Machine) (function : UInt16) (caller : Nat) :
    Quiet m (m.note (.resumed function caller)) :=
  ⟨notes_note m (.resumed function caller), Nat.le_refl _⟩

theorem pushed_framed (m : Machine) (function : UInt16) (size : UInt32) :
    Pushed m (m.framed function size) :=
  ⟨notes_note m (.framePushed (m.stack.activeIndex + 1) function (m.nextWindow size)), rfl⟩

theorem Pushed.invoked (h : Pushed m m') (function : UInt16) (frame previous : Nat) :
    Pushed m (m'.note (.invoked function frame previous)) :=
  ⟨h.notes.trans (notes_note m' (.invoked function frame previous)), h.active_eq⟩

/-! ## The beginning and the end of an invocation -/

theorem quiet_collect (call : Invocation) (m : Machine) : Quiet m (after (collect call m)) := by
  have hjump := quiet_modifyActive m fun f => { f with instructionPointer := call.resumeAt }
  rw [collect_eq]
  split
  · dsimp only
    split
    · exact hjump
    · exact hjump.trans ((quiet_releaseFrame _ call.window).trans (quiet_returned _ _ _))
  · exact Quiet.refl m

theorem raises_collect (call : Invocation) : Raises Fault.Plain (collect call) := by
  intro m cause m' h
  have hread (n : Machine) :
      Fails Fault.Plain (n.readOutputs call.window call.descriptor.outputs) :=
    Fails.mapM (fun s => (fails_slotRange call.window s).bind (fails_bytesAt n)) _
  rw [collect_eq] at h
  split at h
  · dsimp only at h
    split at h
    · rename_i found hfound
      cases h
      exact hread _ cause hfound
    · contradiction
  · cases h
    rfl

theorem raises_writeInputs (window : Window) (inputs : List (Slot × Bytes)) :
    Raises Fault.Plain (writeInputs window inputs) := by
  induction inputs with
  | nil => exact raises_pure _
  | cons input rest ih =>
      exact (raises_check (fails_slotRange window _)).bind fun _ =>
        (Interpreter.raises_writeBytes _ _).bind fun _ => ih

/-- An invocation that fails at once wraps no fault. -/
theorem plain_of_enter_error {function : UInt16} {inputs : List Bytes} {cause : Fault}
    (h : enter program function inputs m = .error (.fault cause) m') : cause.Plain := by
  rw [enter_eq] at h
  split at h
  · cases h
  · split at h
    · cases h
    · dsimp only at h
      split at h
      · cases h
      · rename_i hwrite
        cases h
        exact raises_writeInputs _ _ _ _ _ hwrite

/-- A request that begins an invocation pushes a frame, also if it fails then. -/
theorem pushed_enter (program : Program) (function : UInt16) (inputs : List Bytes) (m : Machine) :
    match enter program function inputs m with
    | .error (.rejected _) m' => m' = m
    | .error (.fault cause) m' => ∃ n, Pushed m n ∧ m' = n.fail cause
    | .ok _ m' => Pushed m m' := by
  have henter := enter_keeps program function inputs (storeClosed_pushed m)
    (Nat.zero_le m.arena.stackPointer) fun routine _ _ =>
      (pushed_framed m function routine.descriptor.size).invoked function _ _
  generalize enter program function inputs m = result at henter ⊢
  cases result with
  | ok call m' => exact henter.1
  | error e m' => cases e <;> exact henter

/-- An invocation that fails at once notes its fault, if it has one. -/
theorem notes_of_enter_error {function : UInt16} {inputs : List Bytes} {e : InvokeError}
    (henter : enter program function inputs m = .error e m') :
    Notes e.faults 0 (growth m m') m m' := by
  have hpushed := pushed_enter program function inputs m
  rw [henter] at hpushed
  cases e with
  | rejected reason =>
      have hsame : m' = m := hpushed
      subst hsame
      exact (Quiet.refl m').notes_growth
  | fault cause =>
      rcases hpushed with ⟨n, hn, rfl⟩
      exact (hn.notes_growth.of_plain (plain_of_enter_error henter)).concluded

/-- An invocation that begins pushes its frame. -/
theorem notes_of_enter_ok {function : UInt16} {inputs : List Bytes} {call : Invocation}
    (henter : enter program function inputs m = .ok call m') :
    Notes [] 0 (growth m m') m m' := by
  have hpushed := pushed_enter program function inputs m
  rw [henter] at hpushed
  exact hpushed.notes_growth

end Notes
end Machine

namespace Interpreter

open Machine

/-! ## Instructions -/

section Instructions

variable {program : Program} {m m' : Machine}

/-- What a result says has been noted: no fault, or those that its own fault wraps. -/
def Told {α : Type} (m : Machine) : EStateM.Result Fault Machine α → Prop
  | .ok _ m' => Notes [] 0 (growth m m') m m'
  | .error cause m' => Notes cause.wrapped.reverse 0 (growth m m') m m'

theorem told_of_plain {α : Type} {result : EStateM.Result Fault Machine α}
    (hnotes : Notes [] 0 (growth m (after result)) m (after result))
    (hplain : ∀ cause m', result = .error cause m' → cause.Plain) : Told m result := by
  cases result with
  | ok a m' => exact hnotes
  | error cause m' => exact hnotes.of_plain (hplain cause m' rfl)

theorem quiet_completeCall (program : Program) (site : Site) (caller : Nat) (m : Machine) :
    Quiet m (after (completeCall program site caller m)) := by
  unfold completeCall
  cases suspendedCall program m caller with
  | error cause => exact Quiet.refl m
  | ok found =>
      rcases found with ⟨callerSite, i⟩
      dsimp only
      cases site.callee program site.location.function with
      | error cause => exact Quiet.refl m
      | ok callee =>
          have hpass := keeps_passOutputs (storeClosed_quiet m) site.window callerSite
            (Nat.zero_le _) (callee.descriptor.outputs.zip (backToBack i.c.toNat
              callee.descriptor.outputs)) m (Quiet.refl m)
          dsimp only
          generalize passOutputs _ _ _ _ = result at hpass ⊢
          cases result with
          | error cause m' => exact hpass
          | ok _ m' =>
              have hunwound : Quiet m (m'.modifyStack (CallStack.unwindTo caller)) :=
                hpass.trans (quiet_unwindTo m' caller)
              have hreleased := hunwound.trans (quiet_releaseFrame _ site.window)
              have hadvanced := hreleased.trans (quiet_modifyActive _ fun f =>
                { f with instructionPointer := f.instructionPointer + 1 })
              exact hadvanced.trans (quiet_resumed _ site.location.function caller)

/-- A return is quiet. -/
theorem quiet_ret (program : Program) (returnTo : Nat) (site : Site) (m : Machine) :
    Quiet m (after (ret program returnTo site m)) := by
  unfold ret
  split
  · exact Quiet.refl m
  · rename_i caller hcaller
    split
    · exact quiet_unwindTo m caller
    · have hcomplete := quiet_completeCall program site caller m
      generalize completeCall program site caller m = result at hcomplete ⊢
      cases result <;> exact hcomplete

/-- A CALL pushes the frame of its callee, unless there is no room for it. -/
theorem call_told (site : Site) (function : UInt16) (callee : Routine) (sources : List Address)
    (m : Machine) : Told m (call site function callee sources m) := by
  apply told_of_plain ?_ (raises_call site function callee sources m)
  rw [call_eq]
  cases m.shortage callee.descriptor.size.toNat with
  | some need => exact (Quiet.refl m).notes_growth
  | none =>
      have hpass := keeps_passInputs (storeClosed_pushed m)
        (m.nextWindow callee.descriptor.size) (Nat.zero_le _)
        (sources.zip callee.descriptor.inputs) _ (pushed_framed m function callee.descriptor.size)
      exact hpass.notes_growth

/-- What the progress of a run says has been noted: one that ends the run is quiet. -/
def ProgressTold (m : Machine) : EStateM.Result Fault Machine Progress → Prop
  | .ok .returned m' => Quiet m m'
  | .ok .running m' | .ok (.nested _) m' => Notes [] 0 (growth m m') m m'
  | .error cause m' => Notes cause.wrapped.reverse 0 (growth m m') m m'

/-- An instruction notes the frame that it pushes and the faults that its own fault
wraps. -/
theorem execute_told (program : Program) (returnTo : Nat) (site : Site) (i : Instruction)
    (m : Machine) :
    ProgressTold m (execute program returnTo site i m) := by
  unfold execute
  cases hplan : Plan.ofInstruction program m site i with
  | error cause =>
      exact (Quiet.refl m).notes_growth.of_plain (fails_ofInstruction program m site i cause hplan)
  | ok plan =>
      cases planned_of_ofInstruction hplan with
      | next => exact (quiet_modifyActive m _).notes_growth
      | goto target => exact (quiet_modifyActive m _).notes_growth
      | store bytes hbase =>
          exact ((quiet_store m _ bytes).trans (quiet_modifyActive _ _)).notes_growth
      | @call callee hcallee sources =>
          have hcall := call_told site i.a callee sources m
          dsimp only
          rw [carryOut_call]
          generalize call _ _ _ _ _ = result at hcall ⊢
          cases result <;> exact hcall
      | callback inputs =>
          dsimp only
          rw [carryOut_callback]
          cases henter : enter program i.a inputs m with
          | error e m' =>
              have hnotes := notes_of_enter_error henter
              rw [← e.wrapped_atCallback site.location] at hnotes
              exact hnotes
          | ok invocation m' => exact notes_of_enter_ok henter
      | ret =>
          have hret := quiet_ret program returnTo site m
          have hraises := raises_ret program returnTo site m
          dsimp only
          rw [carryOut_ret]
          generalize ret _ _ _ _ = result at hret hraises ⊢
          cases result with
          | error cause m' => exact told_of_plain hret.notes_growth hraises
          | ok finished m' =>
              cases finished with
              | false => exact hret.notes_growth
              | true => exact hret

/-! ## Steps and runs -/

/-- A nested invocation that is over pushes no frame.  It notes no fault, or the one that
it ends in. -/
theorem resume_told (s : Suspension) (m : Machine) :
    match resume s m with
    | .ok _ m' => Quiet m m'
    | .error cause m' =>
        Notes cause.wrapped.reverse 0 0 m m' ∧ m'.stack.activeIndex ≤ m.stack.activeIndex := by
  have hcollect := quiet_collect s.invocation m
  have hplain := raises_collect s.invocation m
  rw [resume_eq]
  generalize collect s.invocation m = result at hcollect hplain ⊢
  cases result with
  | error cause m' =>
      have hnotes := hcollect.notes.of_plain (hplain cause m' rfl)
      exact ⟨hnotes.concluded, hcollect.active_le⟩
  | ok outputs m' =>
      have hdeliver := keeps_deliver (storeClosed_quiet m) s.site (Nat.zero_le _)
        s.destination.toNat outputs m' hcollect
      have hraises := raises_deliver s.site s.destination.toNat outputs m'
      dsimp only
      generalize deliver _ _ _ _ = result at hdeliver hraises ⊢
      cases result with
      | error cause m'' =>
          exact ⟨hdeliver.notes.of_plain (hraises cause m'' rfl), hdeliver.active_le⟩
      | ok _ m'' => exact hdeliver.trans (quiet_modifyActive m'' _)

/-- A fault that ends an invocation is noted and wrapped. -/
theorem abandon_notes (suspended : List Suspension) {cause : Fault} {instructions frames : Nat}
    (h : Notes cause.wrapped.reverse instructions frames m m') :
    Notes (abandon suspended cause m').1.wrapped.reverse instructions frames m
      (abandon suspended cause m').2 := by
  induction suspended generalizing cause m' with
  | nil => exact h
  | cons s outer ih =>
      apply ih
      exact h.concluded

/-- The faults that a run has noted when it is over. -/
def notedBy : Except Fault Unit → List Fault
  | .ok () => []
  | .error cause => cause.wrapped.reverse

/-- What a last step says has been noted: the instructions that have been counted, the
frames that have been pushed, and the faults that the fault of the run wraps. -/
def EndTold (interpreter : Interpreter) (m : Machine) (back : Comeback Interpreter) : Prop :=
  ∃ instructions, back.engine.executed = interpreter.executed + instructions ∧
    Notes (notedBy back.verdict) instructions (growth m back.machine) m back.machine

/-- A fault that ends a run ends the invocations that wait for it. -/
theorem stop_told {interpreter interpreter' : Interpreter} (suspended : List Suspension)
    {cause : Fault} {instructions : Nat}
    (hcounted : interpreter'.executed = interpreter.executed + instructions)
    (hnotes : Notes cause.wrapped.reverse instructions (growth m m') m m') :
    (stop interpreter' suspended cause m').Leads
      (fun y => Notes [] 1 (growth m y.machine) m y.machine) (EndTold interpreter m) := by
  have habandon := abandon_notes suspended hnotes
  refine ⟨instructions, hcounted, ?_⟩
  rw [growth, abandon_stack]
  exact habandon

/-- What an instruction has noted stands behind the note that it is about to run. -/
theorem settle_told (interpreter : Interpreter) (returnTo : Nat) (suspended : List Suspension)
    {frame : Nat} {site : Location} {i : Instruction}
    {result : EStateM.Result Fault Machine Progress}
    (hexecute : ProgressTold (m.note (.executing frame site i)) result) :
    (settle interpreter.charge returnTo suspended result).Leads
      (fun y => Notes [] 1 (growth m y.machine) m y.machine) (EndTold interpreter m) := by
  cases result with
  | error cause m' => exact stop_told suspended rfl (notes_of_executing hexecute)
  | ok progress m' =>
      cases progress with
      | running => exact notes_of_executing hexecute
      | nested s => exact notes_of_executing hexecute
      | returned =>
          cases suspended with
          | nil => exact ⟨1, rfl, notes_of_executing hexecute.notes_growth⟩
          | cons s outer =>
              have hresume := resume_told s m'
              simp only [settle]
              generalize resume s m' = result at hresume ⊢
              cases result with
              | error cause m'' =>
                  -- The return and what follows it only pop frames, so none is to be counted.
                  have hle : m''.stack.activeIndex ≤ m.stack.activeIndex :=
                    Nat.le_trans hresume.2 hexecute.active_le
                  have hnotes : Notes cause.wrapped.reverse 1 0 m m'' :=
                    notes_of_executing (hexecute.notes.trans hresume.1)
                  rw [← growth_eq_zero hle] at hnotes
                  exact stop_told outer rfl hnotes
              | ok _ m'' => exact notes_of_executing (hexecute.trans hresume).notes_growth

/-- A step notes the instruction that it counts and the frame that it pushes, and if it is
the last one, the faults that the fault of the run wraps. -/
theorem step_told (program : Program) (x : Execution) :
    (step program x).Leads
      (fun y => Notes [] 1 (growth x.machine y.machine) x.machine y.machine)
      (EndTold x.interpreter x.machine) := by
  rcases x with ⟨interpreter, m, returnTo, suspended⟩
  have hidle : Notes [] 0 (growth m m) m m := (Quiet.refl m).notes_growth
  unfold step
  dsimp only
  cases hfetch : fetch program m with
  | error cause =>
      exact stop_told suspended rfl (hidle.of_plain (fails_fetch program m cause hfetch))
  | ok found =>
      rcases found with ⟨site, i⟩
      dsimp only
      split
      · exact stop_told suspended rfl (hidle.of_plain rfl)
      · exact settle_told interpreter returnTo suspended (execute_told program _ site i _)

/-- Number of frames that a run pushes: a frame becomes live whenever one is pushed, and
no instruction pushes more than one. -/
def framesPushed (program : Program) : (clock : Nat) → Execution → Nat
  | 0, _ => 0
  | clock + 1, x =>
      match step program x with
      | .more y => growth x.machine y.machine + framesPushed program clock y
      | .ended back => growth x.machine back.machine

/-- A run notes the instructions that it counts, the frames that it pushes and the faults
that its own fault wraps. -/
theorem runFor_told {clock : Nat} {x : Execution} {back : Comeback Interpreter}
    (hrun : runFor program clock x = some back) :
    ∃ instructions, back.engine.executed = x.interpreter.executed + instructions ∧
      Notes (notedBy back.verdict) instructions (framesPushed program clock x) x.machine
        back.machine := by
  induction clock generalizing x with
  | zero => simp [runFor] at hrun
  | succ clock ih =>
      have htold := step_told program x
      have hcounted := step_interpreter program x
      simp only [runFor, framesPushed] at hrun ⊢
      cases hs : step program x with
      | more y =>
          rw [hs] at hrun htold hcounted
          rcases ih hrun with ⟨instructions, hexecuted, hnotes⟩
          refine ⟨1 + instructions, ?_, htold.trans hnotes⟩
          rw [hexecuted, show y.interpreter = x.interpreter.charge from hcounted]
          exact Nat.add_assoc ..
      | ended back' =>
          rw [hs] at hrun htold
          cases hrun
          exact htold

end Instructions
end Interpreter

namespace Machine

/-! ## Invocations -/

section Invocations

variable {program : Program} {function : UInt16} {inputs : List Bytes}
  {interpreter : Interpreter} {m : Machine} {reply : Reply Interpreter}

/-- Number of frames that an invocation pushes, those of nested invocations included. -/
def framesPushed (program : Program) (function : UInt16) (inputs : List Bytes)
    (interpreter : Interpreter) (m : Machine) : Nat :=
  match enter program function inputs m with
  | .error _ m' => growth m m'
  | .ok call m' =>
      growth m m' + Interpreter.framesPushed program interpreter.horizon
        ⟨interpreter, m', call.previous, []⟩

/-- The faults of an outcome, the innermost one first. -/
def faultsOf : Except InvokeError (List Bytes) → List Fault
  | .error e => e.faults
  | .ok _ => []

/-- What an invocation notes: errors for the faults of its outcome, and as many
instructions and frames as it has counted and pushed. -/
structure Noted (interpreter : Interpreter) (frames : Nat) (m : Machine)
    (reply : Reply Interpreter) (events : List Event) : Prop where
  journal_eq : reply.machine.journal.toList = m.journal.toList ++ events
  errors_eq : (events.filter fun e => e.level = .error).map Event.message =
    (faultsOf reply.outcome).map fun cause => cause.message ++ "; machine poisoned"
  instructions_eq : reply.engine.executed = interpreter.executed +
    events.countP fun e => decide (e.level = .trace) && e.message.startsWith "frame "
  frames_eq :
    events.countP (fun e => decide (e.level = .debug) && e.message.startsWith "push frame ") =
      frames

theorem exists_noted {instructions frames : Nat}
    (hexecuted : reply.engine.executed = interpreter.executed + instructions)
    (hnotes : Notes (faultsOf reply.outcome) instructions frames m reply.machine) :
    ∃ events, Noted interpreter frames m reply events := by
  rcases hnotes with ⟨events, hjournal, hcauses, rfl, rfl⟩
  refine ⟨events, hjournal, ?_, ?_, ?_⟩
  · rw [Event.map_message_errors, hcauses]
  · rw [hexecuted]
    exact congrArg _ (congrArg (List.countP · events) (funext Event.isInstruction_eq))
  · exact congrArg (List.countP · events) (funext Event.isPush_eq).symm

/-- The end of an invocation notes its fault, if it has one. -/
theorem conclude_notes {back : Comeback Interpreter} {instructions frames : Nat}
    (h : Notes (Interpreter.notedBy back.verdict) instructions frames m back.machine)
    (call : Invocation) :
    Notes (faultsOf (conclude call back).outcome) instructions frames m
      (conclude call back).machine := by
  rcases back with ⟨verdict, engine, n⟩
  cases verdict with
  | error cause => exact Notes.concluded h
  | ok _ =>
      have hcollect := quiet_collect call n
      have hplain := raises_collect call n
      simp only [conclude, leave, guarded]
      generalize collect call n = result at hcollect hplain ⊢
      cases result with
      | error cause n' => exact ((h.trans hcollect.notes).of_plain (hplain cause n' rfl)).concluded
      | ok outputs n' => exact h.trans hcollect.notes

/-- What an invocation notes, however it ends and whatever it invokes itself. -/
theorem invoke_noted
    (hreply : m.invoke program (Interpreter.run program) function inputs interpreter =
      some reply) :
    ∃ events, Noted interpreter (framesPushed program function inputs interpreter m) m reply
      events := by
  rcases invoke_cases hreply with ⟨e, m', henter, rfl⟩ | ⟨call, m', back, henter, hback, rfl⟩
  · have hnotes := notes_of_enter_error henter
    rw [framesPushed, henter]
    exact exists_noted (Nat.add_zero _).symm hnotes
  · rw [Interpreter.run, if_pos (activeIndex_of_enter henter)] at hback
    rcases Interpreter.runFor_told (Interpreter.runFor_of_complete hback) with
      ⟨instructions, hexecuted, hnotes⟩
    have hboth := (notes_of_enter_ok henter).trans hnotes
    rw [Nat.zero_add] at hboth
    rw [framesPushed, henter]
    apply exists_noted ?_ (conclude_notes hboth call)
    rw [conclude_engine]
    exact hexecuted

end Invocations

/-- A program whose last function, invoked within two CALLBACKs, reads beyond its frame. -/
def collapse : Program :=
  ⟨#[⟨⟨2, [⟨0, 1⟩], [⟨1, 1⟩]⟩, #[⟨.callback, 0, 1, 0, 1⟩, ⟨.ret, 0, 0, 0, 0⟩]⟩,
    ⟨⟨2, [⟨0, 1⟩], [⟨1, 1⟩]⟩, #[⟨.callback, 0, 2, 0, 1⟩, ⟨.ret, 0, 0, 0, 0⟩]⟩,
    ⟨⟨2, [⟨0, 1⟩], [⟨1, 1⟩]⟩, #[⟨.copy, 0, 1, 0, 2⟩, ⟨.ret, 0, 0, 0, 0⟩]⟩]⟩

/-- It pushes three frames and runs three instructions, and notes its faults inside out. -/
theorem collapse_noted :
    ∃ reply cause inner origin events,
      (ofConfig ⟨24, 6, .retain⟩).invoke collapse (Interpreter.run collapse) 0 [[42]] {} =
          some reply ∧
        reply.outcome = .error (.fault cause) ∧
        cause = .callbackFault ⟨0, 0⟩ inner ∧ inner = .callbackFault ⟨1, 0⟩ origin ∧
        origin = .outOfFrame ⟨2, 0⟩ ⟨1, 2, 2⟩ ∧
        faultsOf reply.outcome = [origin, inner, cause] ∧ reply.engine.executed = 3 ∧
        Noted {} 3 (ofConfig ⟨24, 6, .retain⟩) reply events := by
  have hrun : ((ofConfig ⟨24, 6, .retain⟩).invoke collapse (Interpreter.run collapse) 0 [[42]]
      {}).map (fun reply => (reply.outcome, reply.engine.executed)) =
        some (.error (.fault (.callbackFault ⟨0, 0⟩ (.callbackFault ⟨1, 0⟩
          (.outOfFrame ⟨2, 0⟩ ⟨1, 2, 2⟩)))), 3) := by
    decide +kernel
  have hframes : framesPushed collapse 0 [[42]] {} (ofConfig ⟨24, 6, .retain⟩) = 3 := by
    decide +kernel
  rcases Option.map_eq_some_iff.mp hrun with ⟨reply, hreply, hresult⟩
  rcases Prod.mk.inj hresult with ⟨houtcome, hexecuted⟩
  rcases invoke_noted hreply with ⟨events, hnoted⟩
  rw [hframes] at hnoted
  refine ⟨reply, _, _, _, events, hreply, houtcome, rfl, rfl, rfl, ?_, hexecuted, hnoted⟩
  rw [houtcome]
  rfl

end Machine
end FrameMachine
