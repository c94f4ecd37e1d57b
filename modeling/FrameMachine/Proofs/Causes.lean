import FrameMachine.Proofs.Coherence
import FrameMachine.Proofs.Poisoning

/-!
# Causes of faults

Most faults name a place of the program.  Such a fault is *founded* if the
instruction at that place is one that raises it, and if what the fault says of
the instruction, of its frame and of its callee is true.  An invocation of a
machine that is not poisoned ends in no other faults: not even in one that is
raised on behalf of a caller, or that a CALLBACK wraps.

Main results:

- Theorem `Plan.ofInstruction_founded`: an instruction that cannot be planned is
  itself the cause.
- Theorem `step_founded`: a step keeps an execution coherent, or ends it in a
  founded fault.
- Theorem `Machine.Sound.invoke_founded`: so does an invocation.
- Theorem `Machine.invoke_blames`: so it is in every machine that can be reached.
-/

namespace FrameMachine

/-! ## Founded faults -/

/-- All layouts of a program are valid. -/
def Program.Valid (program : Program) : Prop :=
  ∀ routine ∈ program.routines, routine.descriptor.validate = .ok ()

instance (program : Program) : Decidable program.Valid :=
  inferInstanceAs (Decidable (∀ routine ∈ program.routines, _))

theorem Program.Valid.misfit?_eq_none {program : Program} (h : program.Valid)
    {function : UInt16} {routine : Routine} (hroutine : program.routine? function = some routine) :
    routine.descriptor.misfit? = none :=
  Descriptor.validate_eq_ok_iff.mp (h routine (Array.mem_of_getElem? hroutine))

/-- The instruction at a place of a program. -/
def Program.instruction? (program : Program) (site : Location) : Option Instruction := do
  let routine ← program.routine? site.function
  routine.code[site.position]?

/-- Whether an instruction reads or writes its frame. -/
def Opcode.addresses : Opcode → Bool
  | .const | .copy | .add | .sub | .mul | .div | .eq | .lt | .jz | .jnz | .call | .callback => true
  | .jmp | .ret | .trap | .nop => false

/-- A fault that the instruction at its place accounts for.  A slot outside its frame
names no place; it accounts for itself unless all layouts are valid.  The faults by
which a machine guards itself are never founded. -/
inductive Fault.Founded (program : Program) : Fault → Prop
  | unknownFunction {site : Location} {i : Instruction}
      (hinstruction : program.instruction? site = some i)
      (hopcode : i.opcode = .call ∨ i.opcode = .callback)
      (hmissing : program.routine? i.a = none) :
      Founded program (.unknownFunction site i.a)
  | endOfCode {site : Location} {routine : Routine}
      (hroutine : program.routine? site.function = some routine)
      (hend : routine.code.size ≤ site.position) :
      Founded program (.endOfCode site)
  | outOfFrame {site : Location} {routine : Routine} {i : Instruction} {range : OutOfFrame}
      (hroutine : program.routine? site.function = some routine)
      (hinstruction : program.instruction? site = some i)
      (haddresses : i.opcode.addresses = true)
      (hsize : range.size = routine.descriptor.size.toNat)
      (hout : range.size < range.offset + range.length) :
      Founded program (.outOfFrame site range)
  | slotOutOfFrame (range : OutOfFrame) (hinvalid : ¬program.Valid) :
      Founded program (.slotOutOfFrame range)
  | invalidWidth {site : Location} {i : Instruction}
      (hinstruction : program.instruction? site = some i) (hopcode : i.opcode = .const)
      (hwidth : ¬(i.width = 1 ∨ i.width = 2 ∨ i.width = 4)) :
      Founded program (.invalidWidth site i.width)
  | divisionByZero {site : Location} {i : Instruction}
      (hinstruction : program.instruction? site = some i) (hopcode : i.opcode = .div) :
      Founded program (.divisionByZero site)
  | exhausted {site : Location} {i : Instruction} {callee : Routine} {need : Exhaustion}
      (hinstruction : program.instruction? site = some i) (hopcode : i.opcode = .call)
      (hcallee : program.routine? i.a = some callee)
      (hneed : ∀ requested available, need = .memory requested available →
        requested = callee.descriptor.size.toNat ∧ available < requested) :
      Founded program (.exhausted site need)
  | callbackRejected {site : Location} {i : Instruction} {reason : Rejection}
      (hinstruction : program.instruction? site = some i) (hopcode : i.opcode = .callback)
      (hreason : program.Valid → ∃ need, reason = .exhausted need) :
      Founded program (.callbackRejected site reason)
  | callbackFault {site : Location} {i : Instruction} {cause : Fault}
      (hinstruction : program.instruction? site = some i) (hopcode : i.opcode = .callback)
      (hcause : Founded program cause) :
      Founded program (.callbackFault site cause)
  | trap {site : Location} {i : Instruction}
      (hinstruction : program.instruction? site = some i) (hopcode : i.opcode = .trap) :
      Founded program (.trap site i.a)
  | fuelExhausted {site : Location} {i : Instruction}
      (hinstruction : program.instruction? site = some i) :
      Founded program (.fuelExhausted site)

/-! ## Planning -/

section Planning

open Fault (Founded)

variable {program : Program} {a : Activation program} {i : Instruction} {m : Machine}

/-- The next instruction of an activation is that at its place. -/
theorem Activation.instruction?_location (a : Activation program) :
    program.instruction? a.location = a.instruction? := by
  simp only [Program.instruction?, location, a.routine_eq]
  rfl

/-- A range outside the frame of an instruction that addresses its frame. -/
theorem founded_outOfFrame (hinstruction : a.instruction? = some i)
    (haddresses : i.opcode.addresses = true) {offset length : Nat}
    (hout : ¬offset + length ≤ a.site.window.size) :
    Founded program (.outOfFrame a.location ⟨offset, length, a.site.window.size⟩) :=
  .outOfFrame a.routine_eq (a.instruction?_location.trans hinstruction) haddresses rfl
    (Nat.not_le.mp hout)

theorem founded_of_outside? (hinstruction : a.instruction? = some i)
    (haddresses : i.opcode.addresses = true) {ranges : List (Nat × Nat)} {cause : Fault}
    (h : a.site.outside? ranges = some cause) : Founded program cause := by
  simp only [Site.outside?, Option.map_eq_some_iff] at h
  rcases h with ⟨range, hrange, rfl⟩
  have hout := List.find?_some hrange
  exact founded_outOfFrame hinstruction haddresses
    (Nat.not_le.mpr (of_decide_eq_true hout))

theorem operand_founded (hinstruction : a.instruction? = some i)
    (hin : a.site.window.Inside m.arena) (haddresses : i.opcode.addresses = true)
    (offset length : Nat) : Fails (Founded program) (a.site.operand m offset length) := by
  rw [Site.operand_eq hin]
  split
  · exact fails_ok _
  · exact fails_error (founded_outOfFrame hinstruction haddresses ‹_›)

namespace Plan

theorem storing_founded (hinstruction : a.instruction? = some i)
    (hin : a.site.window.Inside m.arena) (haddresses : i.opcode.addresses = true)
    (destination : UInt16) (bytes : Bytes) :
    Fails (Founded program) (storing m a.site destination bytes) := by
  unfold storing
  rw [Site.resolve_eq hin]
  by_cases hfit : destination.toNat + bytes.length ≤ a.site.window.size
  · rw [if_pos hfit]
    simp only [bind, Except.bind, Arena.check, if_pos (Window.contains_eq hin hfit)]
    exact fails_ok _
  · rw [if_neg hfit]
    exact fails_error (founded_outOfFrame hinstruction haddresses hfit)

theorem combining_founded (hinstruction : a.instruction? = some i)
    (hin : a.site.window.Inside m.arena) (haddresses : i.opcode.addresses = true)
    (result : Int32 → Int32 → Bytes) :
    Fails (Founded program) (combining m a.site i result) := by
  have hword : ∀ offset, Fails (Founded program) (a.site.word m offset) := by
    intro offset
    exact (operand_founded hinstruction hin haddresses _ _).bind fun _ => fails_ok _
  exact (hword i.b).bind fun _ => (hword i.c).bind fun _ =>
    storing_founded hinstruction hin haddresses _ _

theorem jumpingIf_founded (hinstruction : a.instruction? = some i)
    (hin : a.site.window.Inside m.arena) (haddresses : i.opcode.addresses = true)
    (wanted : Bool) : Fails (Founded program) (jumpingIf wanted m a.site i) := by
  have hflag : Fails (Founded program) (a.site.flag m i.a) :=
    (operand_founded hinstruction hin haddresses _ _).bind fun _ => fails_ok _
  exact hflag.bind fun _ => fails_ok _

/-- A COPY resolves both of its ranges before it reads the source. -/
theorem copy_founded (hinstruction : a.instruction? = some i)
    (hin : a.site.window.Inside m.arena) (hopcode : i.opcode = .copy) :
    Fails (Founded program) (ofInstruction program m a.site i) := by
  have haddresses : i.opcode.addresses = true := by rw [hopcode]; rfl
  simp only [ofInstruction, hopcode]
  rw [Site.resolve_eq hin, Site.resolve_eq hin]
  by_cases hsource : i.b.toNat + i.c.toNat ≤ a.site.window.size
  · by_cases htarget : i.a.toNat + i.c.toNat ≤ a.site.window.size
    · rw [if_pos hsource, if_pos htarget]
      simp only [bind, Except.bind, Machine.bytesAt_eq hin hsource, Arena.check,
        if_pos (Window.contains_eq hin htarget)]
      exact fails_ok _
    · rw [if_pos hsource, if_neg htarget]
      exact fails_error (founded_outOfFrame hinstruction haddresses htarget)
  · rw [if_neg hsource]
    exact fails_error (founded_outOfFrame hinstruction haddresses hsource)

/-- A plain instruction that cannot be planned is itself the cause. -/
theorem ofInstruction_founded (hinstruction : a.instruction? = some i)
    (hin : a.site.window.Inside m.arena) (hplain : i.opcode.transfers = false) :
    Fails (Founded program) (ofInstruction program m a.site i) := by
  have hplace := a.instruction?_location.trans hinstruction
  cases hopcode : i.opcode with
  | call | callback | ret => simp [hopcode, Opcode.transfers] at hplain
  | copy => exact copy_founded hinstruction hin hopcode
  | const =>
      simp only [ofInstruction, hopcode]
      split
      · exact storing_founded hinstruction hin (by rw [hopcode]; rfl) _ _
      · exact fails_error (.invalidWidth hplace hopcode ‹_›)
  | div =>
      have hword : Fails (Founded program) (a.site.word m i.c) :=
        (operand_founded hinstruction hin (by rw [hopcode]; rfl) _ _).bind fun _ => fails_ok _
      simp only [ofInstruction, hopcode]
      refine hword.bind fun divisor => ?_
      split
      · exact fails_error (.divisionByZero hplace hopcode)
      · exact combining_founded hinstruction hin (by rw [hopcode]; rfl) _
  | add | sub | mul | eq | lt =>
      simp only [ofInstruction, hopcode]
      exact combining_founded hinstruction hin (by rw [hopcode]; rfl) _
  | jz | jnz =>
      simp only [ofInstruction, hopcode]
      exact jumpingIf_founded hinstruction hin (by rw [hopcode]; rfl) _
  | jmp | nop =>
      simp only [ofInstruction, hopcode]
      exact fails_ok _
  | trap =>
      simp only [ofInstruction, hopcode]
      exact fails_error (.trap hplace hopcode)

end Plan
end Planning

/-! ## Suspended callers -/

section Suspensions

variable {program : Program} {depth : Nat} {live : List (Activation program)} {cause : Fault}

/-- Every suspension waits at a CALLBACK. -/
theorem instruction?_of_mem_suspensions {s : Interpreter.Suspension}
    (hs : s ∈ suspensions depth live) :
    ∃ i, program.instruction? s.site.location = some i ∧ i.opcode = .callback := by
  fun_induction suspensions depth live with
  | case1 b a below i hinstruction hopcode ih =>
      rcases List.mem_cons.mp hs with rfl | hs
      · exact ⟨i, a.instruction?_location.trans hinstruction, hopcode⟩
      · exact ih hs
  | case2 b a below i hinstruction hopcode ih => exact ih hs
  | case3 b a below hinstruction ih => exact ih hs
  | case4 live hshort => simp at hs

/-- The callers that wait for a founded fault wrap it in founded ones. -/
theorem Fault.Founded.abandon {suspended : List Interpreter.Suspension}
    (hsuspended : ∀ s ∈ suspended, ∃ i, program.instruction? s.site.location = some i ∧
      i.opcode = .callback)
    (h : cause.Founded program) (m : Machine) :
    (Interpreter.abandon suspended cause m).1.Founded program := by
  induction suspended generalizing cause m with
  | nil => exact h
  | cons s outer ih =>
      rcases hsuspended s (List.mem_cons_self ..) with ⟨i, hinstruction, hopcode⟩
      apply ih
      · intro t ht
        exact hsuspended t (List.mem_cons_of_mem _ ht)
      · exact .callbackFault hinstruction hopcode h

end Suspensions

namespace Interpreter

open Fault (Founded)
open Machine

section Runs

variable {program : Program} {function : UInt16} {depth floor : Nat}

/-! ## Coherent runs -/

/-- An execution of an invocation by the frame `depth` that is coherent. -/
def CoherentExecution (program : Program) (function : UInt16) (depth floor : Nat)
    (x : Execution) : Prop :=
  x.returnTo = depth ∧ ∃ (a : Activation program) (below : List (Activation program)),
    Coherent function depth floor (a :: below) x.machine x.suspended

/-- A run has ended in a founded fault, or with the return of its first frame. -/
def FoundedEnd (program : Program) (function : UInt16) (depth floor : Nat)
    (back : Comeback Interpreter) : Prop :=
  match back.verdict with
  | .error cause => cause.Founded program
  | .ok () => ∃ (a : Activation program) (m : Machine), Coherent function depth floor [a] m [] ∧
      back.machine = m.modifyStack (CallStack.unwindTo depth)

/-- Stopping wraps a founded fault in founded ones. -/
theorem stop_foundedEnd (live : List (Activation program)) (interpreter : Interpreter)
    {cause : Fault} (h : cause.Founded program) (m : Machine) :
    (stop interpreter (suspensions depth live) cause m).Leads
      (CoherentExecution program function depth floor)
      (FoundedEnd program function depth floor) := by
  rw [stop_eq]
  exact h.abandon (fun _ => instruction?_of_mem_suspensions) m

variable {a : Activation program} {below : List (Activation program)} {m : Machine}
  {suspended : List Suspension} {i : Instruction}

/-- A plain instruction. -/
theorem settle_plain_founded (h : Coherent function depth floor (a :: below) m suspended)
    (hinstruction : a.instruction? = some i) (hplain : i.opcode.transfers = false)
    (interpreter : Interpreter) (returnTo : Nat) :
    (settle interpreter depth suspended (execute program returnTo a.site i m)).Leads
      (CoherentExecution program function depth floor)
      (FoundedEnd program function depth floor) := by
  have hin : a.site.window.Inside m.arena := h.layout.inside (a := a) (by simp)
  have hfounded := Plan.ofInstruction_founded hinstruction hin hplain
  have hplan := Plan.alike program program (.refl hin) hplain
  generalize hresult : Plan.ofInstruction program m a.site i = result at hplan hfounded
  cases hplan with
  | fault hlocal =>
      rw [execute_of_fault hresult, h.suspended_eq]
      exact stop_foundedEnd _ _ (hfounded _ rfl) _
  | next =>
      rw [execute_of_plan hresult]
      exact ⟨rfl, _, _, h.advance⟩
  | goto target =>
      rw [execute_of_plan hresult]
      exact ⟨rfl, _, _, h.jump target.toNat⟩
  | store hfit =>
      rw [execute_of_plan hresult]
      exact ⟨rfl, _, _, (h.store _ _).advance⟩

/-- What a CALL finds short is what its callee needs. -/
theorem founded_of_shortage (hinstruction : a.instruction? = some i) (hopcode : i.opcode = .call)
    {callee : Routine} (hcallee : program.routine? i.a = some callee) {need : Exhaustion}
    (hshort : m.shortage callee.descriptor.size.toNat = some need) :
    Founded program (.exhausted a.location need) := by
  refine .exhausted (a.instruction?_location.trans hinstruction) hopcode hcallee ?_
  rintro requested available rfl
  unfold shortage at hshort
  split at hshort
  · split at hshort
    · contradiction
    · cases hshort
      exact ⟨rfl, Nat.not_le.mp ‹_›⟩
  · cases hshort

/-- A CALL. -/
theorem settle_call_founded (h : Coherent function depth floor (a :: below) m suspended)
    (hinstruction : a.instruction? = some i) (hopcode : i.opcode = .call)
    (interpreter : Interpreter) (returnTo : Nat) :
    (settle interpreter depth suspended (execute program returnTo a.site i m)).Leads
      (CoherentExecution program function depth floor)
      (FoundedEnd program function depth floor) := by
  have hplace := a.instruction?_location.trans hinstruction
  have hsuspended := h.suspended_eq
  cases hcallee : program.routine? i.a with
  | none =>
      rw [execute_of_fault (Plan.ofInstruction_unknown (Or.inl hopcode) hcallee), hsuspended]
      exact stop_foundedEnd _ _ (.unknownFunction hplace (Or.inl hopcode) hcallee) _
  | some callee =>
      cases hfit : a.site.outside? (backToBack i.b.toNat callee.descriptor.inputs) with
      | some cause =>
          rw [execute_of_outside h.layout (Or.inl hopcode) hcallee hfit, hsuspended]
          exact stop_foundedEnd _ _
            (founded_of_outside? hinstruction (by rw [hopcode]; rfl) hfit) _
      | none =>
          cases hroom : m.shortage callee.descriptor.size.toNat with
          | some need =>
              rw [execute_call_of_shortage h.layout hopcode hcallee hfit hroom, hsuspended]
              exact stop_foundedEnd _ _
                (founded_of_shortage hinstruction hopcode hcallee hroom) _
          | none =>
              have hcall := execute_call_brings returnTo h.layout hopcode hcallee
                hfit hroom
              cases hslot : (m.nextWindow callee.descriptor.size).misfit?
                  callee.descriptor.inputs with
              | some range =>
                  rw [hslot] at hcall
                  rcases hcall with ⟨m', hm', -⟩
                  rw [hm', hsuspended]
                  apply stop_foundedEnd
                  apply Founded.slotOutOfFrame
                  intro hvalid
                  have hfits : (m.nextWindow callee.descriptor.size).misfit?
                      callee.descriptor.inputs = none :=
                    Descriptor.inputs_fit (hvalid.misfit?_eq_none hcallee) _
                  exact absurd (hslot.symm.trans hfits) (by simp)
              | none =>
                  rw [hslot] at hcall
                  have hcall : execute program returnTo a.site i m = .ok .running _ := hcall
                  rw [hcall]
                  exact ⟨rfl, _, _, h.entering_call hinstruction hopcode hcallee hroom _⟩

/-- A CALLBACK. -/
theorem settle_callback_founded (h : Coherent function depth floor (a :: below) m suspended)
    (hinstruction : a.instruction? = some i) (hopcode : i.opcode = .callback)
    (interpreter : Interpreter) (returnTo : Nat) :
    (settle interpreter depth suspended (execute program returnTo a.site i m)).Leads
      (CoherentExecution program function depth floor)
      (FoundedEnd program function depth floor) := by
  have hplace := a.instruction?_location.trans hinstruction
  have hsuspended := h.suspended_eq
  cases hcallee : program.routine? i.a with
  | none =>
      rw [execute_of_fault (Plan.ofInstruction_unknown (Or.inr hopcode) hcallee), hsuspended]
      exact stop_foundedEnd _ _ (.unknownFunction hplace (Or.inr hopcode) hcallee) _
  | some callee =>
      cases hfit : a.site.outside? (backToBack i.b.toNat callee.descriptor.inputs) with
      | some cause =>
          rw [execute_of_outside h.layout (Or.inr hopcode) hcallee hfit, hsuspended]
          exact stop_foundedEnd _ _
            (founded_of_outside? hinstruction (by rw [hopcode]; rfl) hfit) _
      | none =>
          rw [execute_callback_eq _ h hopcode hcallee hfit]
          cases hmisfit : callee.descriptor.misfit? with
          | some misfit =>
              rw [hsuspended]
              apply stop_foundedEnd
              refine .callbackRejected hplace hopcode ?_
              intro hvalid
              exact absurd (hmisfit.symm.trans (hvalid.misfit?_eq_none hcallee)) (by simp)
          | none =>
              cases hroom : m.shortage callee.descriptor.size.toNat with
              | some need =>
                  rw [hsuspended]
                  exact stop_foundedEnd _ _
                    (.callbackRejected hplace hopcode fun _ => ⟨need, rfl⟩) _
              | none =>
                  exact ⟨rfl, _, _, (h.entering_callback hinstruction hopcode hcallee hmisfit
                    hroom _).note _⟩

/-- What stands in the way of outputs is a slot of the callee, or the place of one in
the caller, which rests on its CALL. -/
theorem founded_of_passing? (hinstruction : a.instruction? = some i)
    (haddresses : i.opcode.addresses = true) {b : Activation program} {offset : Nat}
    {cause : Fault}
    (h : passing? b.window a.site offset b.routine.descriptor.outputs = some cause) :
    Founded program cause := by
  by_cases hvalid : program.Valid
  · have hfit : b.window.misfit? b.routine.descriptor.outputs = none :=
      Descriptor.outputs_fit (hvalid.misfit?_eq_none b.routine_eq) b.base
    rw [passing?_eq_outside? hfit] at h
    exact founded_of_outside? hinstruction haddresses h
  · generalize b.routine.descriptor.outputs = slots at h
    induction slots generalizing offset with
    | nil => simp [passing?] at h
    | cons s slots ih =>
        unfold passing? at h
        split at h
        · cases h
          exact .slotOutOfFrame _ hvalid
        · split at h
          · cases h
            exact founded_outOfFrame hinstruction haddresses (Nat.not_le.mpr ‹_›)
          · exact ih h

/-- A return.  A fault of it is the fault of the caller's instruction. -/
theorem settle_ret_founded (h : Coherent function depth floor (a :: below) m suspended)
    (hopcode : i.opcode = .ret) (interpreter : Interpreter) :
    (settle interpreter depth suspended
        (execute program (innermostReturn depth suspended) a.site i m)).Leads
      (CoherentExecution program function depth floor)
      (FoundedEnd program function depth floor) := by
  have hsuspended := h.suspended_eq
  subst hsuspended
  cases h.called with
  | root hfunction hbase =>
      have hreturn : execute program (innermostReturn depth (suspensions depth [a])) a.site i m =
          .ok .returned (m.modifyStack (CallStack.unwindTo depth)) :=
        execute_ret_of_eq h.layout hopcode rfl
      rw [hreturn]
      exact ⟨a, m, h, rfl⟩
  | @call _ c below j hinstruction hcall hcallee hcalled =>
      have hreturn := execute_ret_call h.layout hinstruction hcall hopcode
        (innermostReturn_le (a := c))
      have hnext := h.returning (c.base + j.c.toNat) (a.outputs m.arena).flatten
      rw [suspensions_call hinstruction hcall]
      cases hobstacle : passing? a.window c.site j.c.toNat a.routine.descriptor.outputs with
      | some cause =>
          rw [hobstacle] at hreturn
          rcases hreturn with ⟨m', hm', -⟩
          rw [hm']
          exact stop_foundedEnd _ _
            (founded_of_passing? hinstruction (by rw [hcall]; rfl) hobstacle) _
      | none =>
          rw [hobstacle] at hreturn
          have hreturn : execute program _ a.site i m = .ok .running _ := hreturn
          rw [hreturn]
          exact ⟨rfl, _, _, hnext.note _⟩
  | @callback _ c below j hinstruction hcallback hcallee hvalid hcalled =>
      have hreturn := settle_ret_callback h.layout hinstruction hcallback hvalid hopcode
        interpreter
      have hnext := h.returning (c.base + j.c.toNat) (a.outputs m.arena).flatten
      dsimp only at hreturn
      cases hobstacle : c.site.outside?
          (backToBack j.c.toNat a.routine.descriptor.outputs) with
      | some cause =>
          rw [hobstacle] at hreturn
          rcases hreturn with ⟨m', hm', -⟩
          rw [hm']
          exact stop_foundedEnd _ _
            (founded_of_outside? hinstruction (by rw [hcallback]; rfl) hobstacle) _
      | none =>
          rw [hobstacle] at hreturn
          rw [hreturn]
          exact ⟨rfl, _, _, hnext.note _⟩

/-- A step keeps an execution coherent, or ends it in a founded fault. -/
theorem step_founded {x : Execution} (h : CoherentExecution program function depth floor x) :
    (step program x).Leads (CoherentExecution program function depth floor)
      (FoundedEnd program function depth floor) := by
  rcases x with ⟨interpreter, m, returnTo, suspended⟩
  rcases h with ⟨hreturn, a, below, h⟩
  dsimp only at hreturn h
  subst hreturn
  rw [step_eq h.layout]
  cases hinstruction : a.instruction? with
  | none =>
      have hend : a.routine.code.size ≤ a.position := Array.getElem?_eq_none_iff.mp hinstruction
      rw [h.suspended_eq]
      exact stop_foundedEnd _ _ (.endOfCode a.routine_eq hend) _
  | some i =>
      dsimp only
      split
      · rw [h.suspended_eq]
        exact stop_foundedEnd _ _
          (.fuelExhausted (a.instruction?_location.trans hinstruction)) _
      · have h := h.note (.executing m.stack.activeIndex a.location i)
        cases hplain : i.opcode.transfers with
        | false => exact settle_plain_founded h hinstruction hplain _ _
        | true =>
            cases hopcode : i.opcode with
            | call => exact settle_call_founded h hinstruction hopcode _ _
            | callback => exact settle_callback_founded h hinstruction hopcode _ _
            | ret => exact settle_ret_founded h hopcode _
            | _ => simp [hopcode, Opcode.transfers] at hplain

/-- A coherent run ends in a founded fault, or with the return of its first frame. -/
theorem run_founded {a : Activation program} {m : Machine} {interpreter : Interpreter}
    {back : Comeback Interpreter} (h : Coherent function depth floor [a] m [])
    (hrun : run program interpreter m (depth + 1) depth = some back) :
    FoundedEnd program function depth floor back := by
  rw [run_eq h.layout] at hrun
  exact runFor_induct (fun _ => step_founded) _ _ _ ⟨rfl, a, [], h⟩ (runFor_of_complete hrun)

end Runs
end Interpreter

namespace Machine

/-! ## Invocations -/

section Invocations

variable {program : Program} {m : Machine} {function : UInt16} {inputs : List Bytes}
  {interpreter : Interpreter} {reply : Reply Interpreter} {cause : Fault}

/-- In a sound machine that is not poisoned, an invocation ends in no fault that is not
founded. -/
theorem Sound.invoke_founded (h : m.Sound) (hpoisoned : m.poisoned = false)
    (hreply : m.invoke program (Interpreter.run program) function inputs interpreter = some reply)
    (hfault : reply.outcome = .error (.fault cause)) : cause.Founded program := by
  rw [invoke_eq h] at hreply
  cases haccept : accept program m function inputs with
  | error reason =>
      rw [haccept] at hreply
      cases hreply
      cases hfault
  | ok d =>
      rw [haccept] at hreply
      rcases accept_eq_ok_iff.mp haccept with ⟨-, routine, hroutine, rfl, hmisfit, -⟩
      dsimp only at hreply
      cases hroom : m.shortage routine.descriptor.size.toNat with
      | some need =>
          rw [hroom] at hreply
          cases hreply
          cases hfault
      | none =>
          rw [hroom] at hreply
          rcases Option.map_eq_some_iff.mp hreply with ⟨back, hrun, rfl⟩
          have hend := Interpreter.run_founded
            ((h.coherent_entering hpoisoned hroutine hroom inputs).note _) hrun
          rcases back with ⟨verdict, engine, m'⟩
          cases verdict with
          | error found =>
              cases hfault
              exact hend
          | ok _ =>
              rcases hend with ⟨a, m'', hlast, hmachine⟩
              dsimp only at hmachine
              subst hmachine
              have hdone := conclude_eq hlast hroutine hmisfit
                m.stack.active.instructionPointer engine
              have hok := hfault.symm.trans (congrArg Reply.outcome hdone)
              contradiction

/-- However a machine has been reached, as long as it is not poisoned, the fault in which
an invocation ends is founded: each of its levels blames an instruction of the program
that accounts for it. -/
theorem invoke_blames (h : Reachable program m) (hpoisoned : m.poisoned = false)
    (hreply : m.invoke program (Interpreter.run program) function inputs interpreter = some reply)
    (hfault : reply.outcome = .error (.fault cause)) : cause.Founded program :=
  h.sound.invoke_founded hpoisoned hreply hfault

end Invocations

/-- A program in which the output of the last function has no place in the frame of its
caller, which runs within a CALLBACK. -/
def misdelivery : Program :=
  ⟨#[⟨⟨4, [⟨0, 1⟩], [⟨1, 1⟩]⟩, #[⟨.callback, 0, 1, 0, 1⟩, ⟨.ret, 0, 0, 0, 0⟩]⟩,
    ⟨⟨3, [⟨0, 1⟩], [⟨2, 1⟩]⟩, #[⟨.call, 0, 2, 0, 3⟩, ⟨.ret, 0, 0, 0, 0⟩]⟩,
    ⟨⟨2, [⟨0, 1⟩], [⟨1, 1⟩]⟩, #[⟨.copy, 0, 1, 0, 1⟩, ⟨.ret, 0, 0, 0, 0⟩]⟩]⟩

/-- The return of the last function blames the CALL of the second one. -/
theorem misdelivery_blames :
    ∃ reply cause, (ofConfig ⟨24, 6, .retain⟩).invoke misdelivery (Interpreter.run misdelivery) 0
        [[42]] {} = some reply ∧
      reply.outcome = .error (.fault cause) ∧
      cause = .callbackFault ⟨0, 0⟩ (.outOfFrame ⟨1, 0⟩ ⟨3, 1, 3⟩) ∧
      cause.Founded misdelivery := by
  have houtcome : ((ofConfig ⟨24, 6, .retain⟩).invoke misdelivery (Interpreter.run misdelivery) 0
      [[42]] {}).map Reply.outcome =
        some (.error (.fault (.callbackFault ⟨0, 0⟩ (.outOfFrame ⟨1, 0⟩ ⟨3, 1, 3⟩)))) := by
    decide +kernel
  rcases Option.map_eq_some_iff.mp houtcome with ⟨reply, hreply, hfault⟩
  exact ⟨reply, _, hreply, hfault, rfl,
    invoke_blames (.create (by decide)) rfl hreply hfault⟩

end Machine
end FrameMachine
