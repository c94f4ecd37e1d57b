import FrameMachine.Proofs.Consistency

/-!
# CALL and CALLBACK are interchangeable

In a program all of whose layouts are valid, any CALL may be replaced by a
CALLBACK and any CALLBACK by a CALL: an invocation comes back with the same
outputs, the same number of instructions executed and the same machine, or with
the same fault once the wrapping of CALLBACKs is taken off.  Two executions of the
programs run in lockstep.  They have the same live frames; only their suspensions
differ, which are those of the callers that rest on a CALLBACK.

Main results:

- Theorems `settle_call_goes` and `settle_ret_goes`: a call and a return lead to the
  same execution whether the call is a CALL or a CALLBACK.
- Theorem `step_interchanged`: interchanged executions step alike.
- Theorem `Machine.invoke_interchangeable`: so do invocations on a fresh machine.
-/

namespace FrameMachine

/-! ## Changing calls -/

/-- A CALL instead of a CALLBACK and the other way round, with the same operands. -/
def Instruction.toggleCall (i : Instruction) : Instruction :=
  match i.opcode with
  | .call => { i with opcode := .callback }
  | .callback => { i with opcode := .call }
  | _ => i

/-- Change the calls at the chosen positions of a function. -/
def Routine.toggleCalls (chosen : Nat → Bool) (r : Routine) : Routine :=
  { r with code := r.code.mapIdx fun k i => if chosen k then i.toggleCall else i }

/-- Change the calls at the chosen positions of each function. -/
def Program.toggleCalls (chosen : Nat → Nat → Bool) (p : Program) : Program :=
  ⟨p.routines.mapIdx fun f r => r.toggleCalls (chosen f)⟩

section Toggle

variable {chosen : Nat → Nat → Bool} {program : Program}

theorem Program.routine?_toggleCalls (function : UInt16) :
    (program.toggleCalls chosen).routine? function =
      (program.routine? function).map (Routine.toggleCalls (chosen function.toNat)) := by
  simp [Program.routine?, Program.toggleCalls]

/-- The same place in the changed program. -/
def Activation.toggleCalls (chosen : Nat → Nat → Bool) (a : Activation program) :
    Activation (program.toggleCalls chosen) where
  function := a.function
  routine := a.routine.toggleCalls (chosen a.function.toNat)
  routine_eq := by rw [Program.routine?_toggleCalls, a.routine_eq]; rfl
  position := a.position
  base := a.base

theorem Activation.instruction?_toggleCalls (a : Activation program)
    (chosen : Nat → Nat → Bool) :
    (a.toggleCalls chosen).instruction? =
      a.instruction?.map fun i =>
        if chosen a.function.toNat a.position then i.toggleCall else i := by
  simp [Activation.instruction?, Activation.toggleCalls, Routine.toggleCalls]

/-- A changed instruction is still a call of the same function with the same
operands, and every other instruction is as it was. -/
theorem Instruction.toggleCall_cases (choose : Bool) (i : Instruction) :
    (if choose then i.toggleCall else i) = i ∨
      (i.opcode = .call ∨ i.opcode = .callback) ∧
        ((if choose then i.toggleCall else i).opcode = .call ∨
          (if choose then i.toggleCall else i).opcode = .callback) ∧
        (if choose then i.toggleCall else i).a = i.a ∧
        (if choose then i.toggleCall else i).b = i.b ∧
        (if choose then i.toggleCall else i).c = i.c := by
  cases choose with
  | false => exact Or.inl rfl
  | true =>
      cases hopcode : i.opcode <;> simp [Instruction.toggleCall, hopcode]

end Toggle

/-! ## Flat faults -/

/-- A fault without the wrapping of CALLBACKs: the innermost fault, or the
exhaustion for which the innermost invocation was refused. -/
def Fault.flatten : Fault → Fault
  | .callbackFault _ cause => cause.flatten
  | .callbackRejected site (.exhausted need) => .exhausted site need
  | cause => cause

/-- The error of an invocation without the wrapping of CALLBACKs. -/
def InvokeError.flatten : InvokeError → InvokeError
  | .rejected reason => .rejected reason
  | .fault cause => .fault cause.flatten

theorem Interpreter.flatten_abandon (suspended : List Interpreter.Suspension) (cause : Fault)
    (m : Machine) : (Interpreter.abandon suspended cause m).1.flatten = cause.flatten := by
  induction suspended generalizing cause m with
  | nil => rfl
  | cons s outer ih => exact ih _ _

namespace Machine

/-! ## Machines up to their journals -/

section Journal

variable (m : Machine)

@[simp]
theorem clearJournal_note (e : Event) : (m.note e).clearJournal = m.clearJournal := rfl

/-- Machines that differ only in their journals have the same parts. -/
theorem parts_eq_of_clearJournal_eq {m m' : Machine} (h : m.clearJournal = m'.clearJournal) :
    m.arena = m'.arena ∧ m.stack = m'.stack ∧ m.poisoned = m'.poisoned := by
  rcases m with ⟨arena, stack, reclaim, poisoned, journal⟩
  rcases m' with ⟨arena', stack', reclaim', poisoned', journal'⟩
  simp only [clearJournal, Machine.mk.injEq] at h
  exact ⟨h.1, h.2.1, h.2.2.2.1⟩

theorem reclaim_eq_of_clearJournal_eq {m m' : Machine} (h : m.clearJournal = m'.clearJournal) :
    m.reclaim = m'.reclaim := by
  rcases m with ⟨arena, stack, reclaim, poisoned, journal⟩
  rcases m' with ⟨arena', stack', reclaim', poisoned', journal'⟩
  simp only [clearJournal, Machine.mk.injEq] at h
  exact h.2.2.1

theorem clearJournal_returning (caller : Nat) (window : Window) (target : Nat)
    (outputs : Bytes) :
    (m.returning caller window target outputs).clearJournal =
      (m.clearJournal.returning caller window target outputs).clearJournal := by
  by_cases h : m.reclaim = .release ∧ window.stop = m.arena.stackPointer <;>
    simp [returning, releaseFrame, Interpreter.advance, clearJournal, modifyStack, modifyArena, h]

theorem clearJournal_leaving (call : Invocation) :
    (m.leaving call).clearJournal = (m.clearJournal.leaving call).clearJournal := by
  by_cases h : m.reclaim = .release ∧ call.window.stop = m.arena.stackPointer <;>
    simp [leaving, releaseFrame, clearJournal, modifyStack, modifyArena, h]

end Journal
end Machine

namespace Interpreter

open Machine

/-! ## Calls and returns, however they are made -/

/-- A turn that ends in a fault which is `flat` but for the wrapping of CALLBACKs, if
there is such a fault, and otherwise goes on with an execution. -/
def Turn.GoesTo (interpreter : Interpreter) (flat : Option Fault) (x : Execution)
    (turn : Turn) : Prop :=
  match flat with
  | some flat => ∃ suspended cause m, turn = stop interpreter suspended cause m ∧
      cause.flatten = flat
  | none => ∃ m, turn = .more { x with machine := m } ∧
      m.clearJournal = x.machine.clearJournal

section Calls

variable {program : Program} {function : UInt16} {depth floor : Nat}
  {a b : Activation program} {below : List (Activation program)} {m : Machine}
  {suspended : List Suspension} {i : Instruction} {callee : Routine}

/-- What stands in the way of a call: an operand outside the frame, or something
that is short. -/
def entryObstacle (site : Site) (i : Instruction) (d : Descriptor) (m : Machine) :
    Option Fault :=
  match site.outside? (backToBack i.b.toNat d.inputs) with
  | some cause => some cause
  | none => (m.shortage d.size.toNat).map (.exhausted site.location)

theorem flatten_of_outside? {site : Site} {ranges : List (Nat × Nat)} {cause : Fault}
    (h : site.outside? ranges = some cause) : cause.flatten = cause := by
  simp only [Site.outside?, Option.map_eq_some_iff] at h
  rcases h with ⟨range, -, rfl⟩
  rfl

/-- A call whose operands and slots fit enters its function, unless something is short,
whether it is a CALL or a CALLBACK. -/
theorem settle_call_goes (h : Coherent function depth floor (a :: below) m suspended)
    (hinstruction : a.instruction? = some i) (hopcode : i.opcode = .call ∨ i.opcode = .callback)
    (hcallee : program.routine? i.a = some callee)
    (hfit : a.site.outside? (backToBack i.b.toNat callee.descriptor.inputs) = none)
    (hslots : ∀ s ∈ callee.descriptor.inputs,
      s.offset.toNat + s.size.toNat ≤ callee.descriptor.size.toNat)
    (hvalid : i.opcode = .callback → callee.descriptor.misfit? = none)
    (interpreter : Interpreter) (returnTo : Nat) :
    (settle interpreter depth suspended (execute program returnTo a.site i m)).GoesTo interpreter
      ((m.shortage callee.descriptor.size.toNat).map (.exhausted a.location))
      ⟨interpreter, m.entering i.a callee.descriptor
          (a.site.parts m (backToBack i.b.toNat callee.descriptor.inputs)), depth,
        suspensions depth (Activation.entered hcallee m.arena.stackPointer :: a :: below)⟩ := by
  cases hroom : m.shortage callee.descriptor.size.toNat with
  | some need =>
      rcases hopcode with hopcode | hopcode
      · rw [execute_call_of_shortage h.layout hopcode hcallee hfit hroom]
        exact ⟨suspended, _, m, rfl, rfl⟩
      · rw [execute_callback_eq _ h hopcode hcallee hfit, hvalid hopcode, hroom]
        exact ⟨suspended, _, m, rfl, rfl⟩
  | none =>
      rcases hopcode with hopcode | hopcode
      · have hslot : (m.nextWindow callee.descriptor.size).misfit? callee.descriptor.inputs =
            none := Window.misfit?_eq_none_iff.mpr hslots
        have hcall := execute_call_brings returnTo h.layout hopcode hcallee hfit hroom
        rw [hslot] at hcall
        have hcall : execute program returnTo a.site i m = .ok .running _ := hcall
        rw [hcall, suspensions_call hinstruction hopcode, ← h.suspended_eq]
        exact ⟨_, rfl, rfl⟩
      · have hnext := h.entering_callback hinstruction hopcode hcallee (hvalid hopcode) hroom
          (a.site.parts m (backToBack i.b.toNat callee.descriptor.inputs))
        rw [execute_callback_eq _ h hopcode hcallee hfit, hvalid hopcode, hroom,
          ← hnext.suspended_eq]
        exact ⟨_, rfl, rfl⟩

/-- A call of a function with a valid layout enters it, whether it is a CALL or a
CALLBACK. -/
theorem settle_enters (h : Coherent function depth floor (a :: below) m suspended)
    (hinstruction : a.instruction? = some i) (hopcode : i.opcode = .call ∨ i.opcode = .callback)
    (hcallee : program.routine? i.a = some callee)
    (hvalid : callee.descriptor.misfit? = none) (interpreter : Interpreter) (returnTo : Nat) :
    (settle interpreter depth suspended (execute program returnTo a.site i m)).GoesTo interpreter
      (entryObstacle a.site i callee.descriptor m)
      ⟨interpreter, m.entering i.a callee.descriptor
          (a.site.parts m (backToBack i.b.toNat callee.descriptor.inputs)), depth,
        suspensions depth (Activation.entered hcallee m.arena.stackPointer :: a :: below)⟩ := by
  cases hfit : a.site.outside? (backToBack i.b.toNat callee.descriptor.inputs) with
  | some cause =>
      rw [execute_of_outside h.layout hopcode hcallee hfit, entryObstacle, hfit]
      exact ⟨suspended, cause, m, rfl, flatten_of_outside? hfit⟩
  | none =>
      have hslots := Window.misfit?_eq_none_iff.mp
        (Descriptor.inputs_fit hvalid m.arena.stackPointer)
      rw [entryObstacle, hfit]
      exact settle_call_goes h hinstruction hopcode hcallee hfit hslots (fun _ => hvalid) _ _

/-- A call leads to a coherent execution, whether it is a CALL or a CALLBACK. -/
theorem Coherent.entering (h : Coherent function depth floor (a :: below) m suspended)
    (hinstruction : a.instruction? = some i) (hopcode : i.opcode = .call ∨ i.opcode = .callback)
    (hcallee : program.routine? i.a = some callee)
    (hvalid : callee.descriptor.misfit? = none)
    (hroom : m.shortage callee.descriptor.size.toNat = none) (inputs : List Bytes) :
    Coherent function depth floor
      (Activation.entered hcallee m.arena.stackPointer :: a :: below)
      (m.entering i.a callee.descriptor inputs)
      (suspensions depth (Activation.entered hcallee m.arena.stackPointer :: a :: below)) := by
  rcases hopcode with hopcode | hopcode
  · have hnext := h.entering_call hinstruction hopcode hcallee hroom inputs
    exact hnext.suspended_eq ▸ hnext
  · have hnext := h.entering_callback hinstruction hopcode hcallee hvalid hroom inputs
    exact hnext.suspended_eq ▸ hnext

theorem flatten_of_passing? {w : Window} {caller : Site} {offset : Nat} {slots : List Slot}
    {cause : Fault} (h : passing? w caller offset slots = some cause) :
    cause.flatten = cause := by
  induction slots generalizing offset with
  | nil => contradiction
  | cons s slots ih =>
      simp only [passing?] at h
      split at h
      · cases h
        rfl
      · split at h
        · cases h
          rfl
        · exact ih h

/-- A return to a caller within an invocation goes on there unless something is in the way
of the outputs, whether the caller rests on a CALL or a CALLBACK. -/
theorem settle_ret_goes (h : Coherent function depth floor (b :: a :: below) m suspended)
    (hinstruction : a.instruction? = some i) {j : Instruction} (hret : j.opcode = .ret)
    (interpreter : Interpreter) :
    (settle interpreter depth suspended
        (execute program (innermostReturn depth suspended) b.site j m)).GoesTo interpreter
      (passing? b.window a.site i.c.toNat b.routine.descriptor.outputs)
      ⟨interpreter, m.returning (depth + below.length + 1) b.window (a.base + i.c.toNat)
          (b.outputs m.arena).flatten, depth, suspensions depth (a :: below)⟩ := by
  have hsuspended := h.suspended_eq
  subst hsuspended
  cases h.called with
  | call hinstruction' hopcode _ _ =>
      cases hinstruction.symm.trans hinstruction'
      have hreturn := execute_ret_call h.layout hinstruction hopcode hret
        (innermostReturn_le (a := a))
      rw [suspensions_call hinstruction hopcode]
      cases hobstacle : passing? b.window a.site i.c.toNat b.routine.descriptor.outputs with
      | some cause =>
          rw [hobstacle] at hreturn
          rcases hreturn with ⟨m', hm', -⟩
          rw [hm']
          exact ⟨_, cause, m', rfl, flatten_of_passing? hobstacle⟩
      | none =>
          rw [hobstacle] at hreturn
          have hreturn : execute program _ b.site j m = .ok .running _ := hreturn
          rw [hreturn]
          exact ⟨_, rfl, rfl⟩
  | callback hinstruction' hopcode _ hvalid _ =>
      cases hinstruction.symm.trans hinstruction'
      have hfit : b.window.misfit? b.routine.descriptor.outputs = none :=
        Descriptor.outputs_fit hvalid b.base
      have hreturn := settle_ret_callback h.layout hinstruction hopcode hvalid hret interpreter
      rw [passing?_eq_outside? hfit]
      dsimp only at hreturn
      cases hobstacle : a.site.outside?
          (backToBack i.c.toNat b.routine.descriptor.outputs) with
      | some cause =>
          rw [hobstacle] at hreturn
          rcases hreturn with ⟨m', hm', -⟩
          rw [hm']
          exact ⟨_, cause, m', rfl, flatten_of_outside? hobstacle⟩
      | none =>
          rw [hobstacle] at hreturn
          rw [hreturn]
          exact ⟨_, rfl, rfl⟩

/-- A return from a function with a valid layout. -/
theorem settle_returns (h : Coherent function depth floor (b :: a :: below) m suspended)
    (hinstruction : a.instruction? = some i)
    (hvalid : b.routine.descriptor.misfit? = none) {j : Instruction} (hret : j.opcode = .ret)
    (interpreter : Interpreter) :
    (settle interpreter depth suspended
        (execute program (innermostReturn depth suspended) b.site j m)).GoesTo interpreter
      (a.site.outside? (backToBack i.c.toNat b.routine.descriptor.outputs))
      ⟨interpreter, m.returning (depth + below.length + 1) b.window (a.base + i.c.toNat)
          (b.outputs m.arena).flatten, depth, suspensions depth (a :: below)⟩ := by
  have hfit : b.window.misfit? b.routine.descriptor.outputs = none :=
    Descriptor.outputs_fit hvalid b.base
  rw [← passing?_eq_outside? hfit]
  exact settle_ret_goes h hinstruction hret interpreter

end Calls

/-! ## Executions in lockstep -/

section Lockstep

variable {program : Program} {chosen : Nat → Nat → Bool} {function : UInt16}
  {depth floor : Nat}

/-- Only the journal of a machine has no part in coherence. -/
theorem Coherent.congr {live : List (Activation program)} {m m' : Machine}
    {suspended : List Suspension} (h : Coherent function depth floor live m suspended)
    (hsame : m'.clearJournal = m.clearJournal) :
    Coherent function depth floor live m' suspended := by
  rcases parts_eq_of_clearJournal_eq hsame with ⟨harena, hstack, hpoisoned⟩
  exact ⟨h.layout.congr (h.layout.sound.congr harena hstack) (by rw [harena]) hstack,
    hpoisoned.trans h.unpoisoned, h.called, h.suspended_eq⟩

/-- Two coherent executions, one of a program and one of the changed program, with the
same live frames, the same budget, and machines that differ only in their journals. -/
structure Interchanged (program : Program) (chosen : Nat → Nat → Bool) (function : UInt16)
    (depth floor : Nat) (x x' : Execution) : Prop where
  interpreter_eq : x.interpreter = x'.interpreter
  returnTo_eq : x.returnTo = depth
  returnTo_eq' : x'.returnTo = depth
  machine_eq : x.machine.clearJournal = x'.machine.clearJournal
  coherent : ∃ (a : Activation program) (below : List (Activation program)),
    Coherent function depth floor (a :: below) x.machine x.suspended ∧
      Coherent function depth floor
        (a.toggleCalls chosen :: below.map (Activation.toggleCalls chosen)) x'.machine x'.suspended

/-- Two runs have ended with the same fault but for the wrapping of CALLBACKs, or with
the return of the first frame in machines that differ only in their journals. -/
def InterchangedEnd (program : Program) (chosen : Nat → Nat → Bool) (function : UInt16)
    (depth floor : Nat) (back back' : Comeback Interpreter) : Prop :=
  back.engine = back'.engine ∧
    match back.verdict, back'.verdict with
    | .error cause, .error cause' => cause.flatten = cause'.flatten
    | .ok (), .ok () => ∃ (a : Activation program) (m m' : Machine),
        Coherent function depth floor [a] m [] ∧
          Coherent function depth floor [a.toggleCalls chosen] m' [] ∧
          m.clearJournal = m'.clearJournal ∧
          back.machine = m.modifyStack (CallStack.unwindTo depth) ∧
          back'.machine = m'.modifyStack (CallStack.unwindTo depth)
    | _, _ => False

variable {x x' : Execution}

theorem Interchanged.congr (h : Interchanged program chosen function depth floor x x')
    {m m' : Machine} (hm : m.clearJournal = x.machine.clearJournal)
    (hm' : m'.clearJournal = x'.machine.clearJournal) :
    Interchanged program chosen function depth floor { x with machine := m }
      { x' with machine := m' } where
  interpreter_eq := h.interpreter_eq
  returnTo_eq := h.returnTo_eq
  returnTo_eq' := h.returnTo_eq'
  machine_eq := hm.trans (h.machine_eq.trans hm'.symm)
  coherent := by
    rcases h.coherent with ⟨a, below, hcoherent, hcoherent'⟩
    exact ⟨a, below, hcoherent.congr hm, hcoherent'.congr hm'⟩

/-- Two turns that stop with the same flat fault. -/
theorem stop_interchanged {interpreter : Interpreter} {suspended suspended' : List Suspension}
    {cause cause' : Fault} {m m' : Machine} (h : cause.flatten = cause'.flatten) :
    (stop interpreter suspended cause m).Rel
      (Interchanged program chosen function depth floor)
      (InterchangedEnd program chosen function depth floor)
      (stop interpreter suspended' cause' m') := by
  rw [stop_eq, stop_eq]
  refine ⟨rfl, ?_⟩
  simp only [flatten_abandon]
  exact h

/-- Two turns that go on with interchanged executions, or stop with one flat fault. -/
theorem Turn.GoesTo.interchanged {turn turn' : Turn} {interpreter : Interpreter}
    {flat flat' : Option Fault} (h : turn.GoesTo interpreter flat x)
    (h' : turn'.GoesTo interpreter flat' x') (hflat : flat = flat')
    (hnext : flat = none → Interchanged program chosen function depth floor x x') :
    turn.Rel (Interchanged program chosen function depth floor)
      (InterchangedEnd program chosen function depth floor) turn' := by
  subst hflat
  cases flat with
  | some cause =>
      rcases h with ⟨suspended, c, m, rfl, hc⟩
      rcases h' with ⟨suspended', c', m', rfl, hc'⟩
      exact stop_interchanged (hc.trans hc'.symm)
  | none =>
      rcases h with ⟨m, rfl, hm⟩
      rcases h' with ⟨m', rfl, hm'⟩
      exact (hnext rfl).congr hm hm'

variable {a : Activation program} {below : List (Activation program)} {m m' : Machine}
  {suspended suspended' : List Suspension} {i : Instruction}

/-- A plain instruction of both programs. -/
theorem settle_plain_interchanged
    (h : Coherent function depth floor (a :: below) m suspended)
    (h' : Coherent function depth floor
      (a.toggleCalls chosen :: below.map (Activation.toggleCalls chosen)) m' suspended')
    (hsame : m.clearJournal = m'.clearJournal) (hplain : i.opcode.transfers = false)
    (interpreter : Interpreter) (returnTo returnTo' : Nat) :
    (settle interpreter depth suspended (execute program returnTo a.site i m)).Rel
      (Interchanged program chosen function depth floor)
      (InterchangedEnd program chosen function depth floor)
      (settle interpreter depth suspended'
        (execute (program.toggleCalls chosen) returnTo' a.site i m')) := by
  have harena := (parts_eq_of_clearJournal_eq hsame).1
  have hin : a.site.window.Inside m.arena := h.layout.inside (a := a) (by simp)
  have hagree : a.site.Agree a.site m m' :=
    ⟨rfl, harena ▸ .refl _ _, hin, harena ▸ hin⟩
  have hplan := Plan.alike program (program.toggleCalls chosen) hagree hplain
  generalize hresult : Plan.ofInstruction program m a.site i = result at hplan
  generalize hresult' : Plan.ofInstruction (program.toggleCalls chosen) m' a.site i = result'
    at hplan
  cases hplan with
  | fault hlocal =>
      rw [execute_of_fault hresult, execute_of_fault hresult']
      exact stop_interchanged rfl
  | next =>
      rw [execute_of_plan hresult, execute_of_plan hresult']
      exact ⟨rfl, rfl, rfl, congrArg Interpreter.advance hsame, _, _, h.advance, h'.advance⟩
  | goto target =>
      rw [execute_of_plan hresult, execute_of_plan hresult']
      exact ⟨rfl, rfl, rfl, congrArg (Machine.modifyStack (CallStack.jump target.toNat)) hsame,
        _, _, h.jump target.toNat, h'.jump target.toNat⟩
  | @store offset bytes hfit =>
      rw [execute_of_plan hresult, execute_of_plan hresult']
      exact ⟨rfl, rfl, rfl,
        congrArg (fun m : Machine => Interpreter.advance
          (m.modifyArena (Arena.store (a.site.window.base + offset) bytes))) hsame,
        _, _, (h.store _ _).advance, (h'.store _ _).advance⟩

/-- A call of both programs. -/
theorem settle_call_interchanged (hvalid : program.Valid)
    (h : Coherent function depth floor (a :: below) m suspended)
    (h' : Coherent function depth floor
      (a.toggleCalls chosen :: below.map (Activation.toggleCalls chosen)) m' suspended')
    (hsame : m.clearJournal = m'.clearJournal) {i' : Instruction}
    (hinstruction : a.instruction? = some i) (hopcode : i.opcode = .call ∨ i.opcode = .callback)
    (hinstruction' : (a.toggleCalls chosen).instruction? = some i')
    (hopcode' : i'.opcode = .call ∨ i'.opcode = .callback) (ha : i'.a = i.a) (hb : i'.b = i.b)
    (interpreter : Interpreter) (returnTo returnTo' : Nat) :
    (settle interpreter depth suspended (execute program returnTo a.site i m)).Rel
      (Interchanged program chosen function depth floor)
      (InterchangedEnd program chosen function depth floor)
      (settle interpreter depth suspended'
        (execute (program.toggleCalls chosen) returnTo' a.site i' m')) := by
  cases hcallee : program.routine? i.a with
  | none =>
      have hcallee' : (program.toggleCalls chosen).routine? i'.a = none := by
        rw [ha, Program.routine?_toggleCalls, hcallee]
        rfl
      rw [execute_of_fault (Plan.ofInstruction_unknown hopcode hcallee),
        execute_of_fault (Plan.ofInstruction_unknown hopcode' hcallee'), ha]
      exact stop_interchanged rfl
  | some callee =>
      have hcallee' : (program.toggleCalls chosen).routine? i'.a =
          some (callee.toggleCalls (chosen i.a.toNat)) := by
        rw [ha, Program.routine?_toggleCalls, hcallee]
        rfl
      have hfit := hvalid.misfit?_eq_none hcallee
      have henters := settle_enters h hinstruction hopcode hcallee hfit interpreter returnTo
      have henters' := settle_enters h' hinstruction' hopcode' hcallee' hfit interpreter returnTo'
      have hroom_eq : m.shortage callee.descriptor.size.toNat =
          m'.shortage callee.descriptor.size.toNat := by
        have hclear := congrArg (fun m : Machine => m.shortage callee.descriptor.size.toNat) hsame
        exact hclear
      apply henters.interchanged henters'
      · simp only [entryObstacle, hb]
        rw [hroom_eq]
        rfl
      · intro hnone
        have hroom : m.shortage callee.descriptor.size.toNat = none := by
          unfold entryObstacle at hnone
          split at hnone
          · contradiction
          · simpa using hnone
        refine ⟨rfl, rfl, rfl, ?_, Activation.entered hcallee m.arena.stackPointer, a :: below,
          h.entering hinstruction hopcode hcallee hfit hroom _, ?_⟩
        · have hclear := congrArg (fun m : Machine => (m.entering i.a callee.descriptor
            (a.site.parts m (backToBack i.b.toNat callee.descriptor.inputs))).clearJournal) hsame
          dsimp only
          rw [ha, hb]
          exact hclear
        · have hsame_frame : Activation.entered hcallee' m'.arena.stackPointer =
              (Activation.entered hcallee m.arena.stackPointer).toggleCalls chosen := by
            simp only [Activation.entered, Activation.toggleCalls, ha,
              (parts_eq_of_clearJournal_eq hsame).1]
          rw [← hsame_frame]
          exact h'.entering hinstruction' hopcode' hcallee' hfit (hroom_eq ▸ hroom) _

/-- A return of both programs. -/
theorem settle_ret_interchanged (hvalid : program.Valid)
    (h : Coherent function depth floor (a :: below) m suspended)
    (h' : Coherent function depth floor
      (a.toggleCalls chosen :: below.map (Activation.toggleCalls chosen)) m' suspended')
    (hsame : m.clearJournal = m'.clearJournal) (hret : i.opcode = .ret)
    (interpreter : Interpreter) :
    (settle interpreter depth suspended
        (execute program (innermostReturn depth suspended) a.site i m)).Rel
      (Interchanged program chosen function depth floor)
      (InterchangedEnd program chosen function depth floor)
      (settle interpreter depth suspended'
        (execute (program.toggleCalls chosen) (innermostReturn depth suspended') a.site i m')) := by
  cases below with
  | nil =>
      have hsuspended : suspended = [] := h.suspended_eq
      have hsuspended' : suspended' = [] := h'.suspended_eq
      subst hsuspended
      subst hsuspended'
      have hreturn : execute program (innermostReturn depth []) a.site i m =
          .ok .returned (m.modifyStack (CallStack.unwindTo depth)) :=
        execute_ret_of_eq h.layout hret rfl
      have hreturn' : execute (program.toggleCalls chosen) (innermostReturn depth []) a.site i m' =
          .ok .returned (m'.modifyStack (CallStack.unwindTo depth)) :=
        execute_ret_of_eq h'.layout hret rfl
      rw [hreturn, hreturn']
      exact ⟨rfl, a, m, m', h, h', hsame, rfl, rfl⟩
  | cons c below =>
      rcases h.called.exists_instruction with ⟨j, hj⟩
      have hj' := c.instruction?_toggleCalls chosen
      rw [hj] at hj'
      have hoperand : (if chosen c.function.toNat c.position then j.toggleCall else j).c = j.c := by
        rcases j.toggleCall_cases (chosen c.function.toNat c.position) with heq | ⟨-, -, -, -, heq⟩
        · rw [heq]
        · exact heq
      have hvalid_a := hvalid.misfit?_eq_none a.routine_eq
      have hreturns := settle_returns h hj hvalid_a hret interpreter
      have hreturns' := settle_returns h' hj' hvalid_a hret interpreter
      apply hreturns.interchanged hreturns'
      · rw [hoperand]
        rfl
      · intro _
        refine ⟨rfl, rfl, rfl, ?_, c.next, below, h.returning _ _, ?_⟩
        · dsimp only
          rw [hoperand, List.length_map, clearJournal_returning, clearJournal_returning m', hsame,
            (parts_eq_of_clearJournal_eq hsame).1]
          rfl
        · exact h'.returning _ _

/-- Interchanged executions step alike. -/
theorem step_interchanged (hvalid : program.Valid)
    (h : Interchanged program chosen function depth floor x x') :
    (step program x).Rel (Interchanged program chosen function depth floor)
      (InterchangedEnd program chosen function depth floor)
      (step (program.toggleCalls chosen) x') := by
  rcases x with ⟨interpreter, m, returnTo, suspended⟩
  rcases x' with ⟨interpreter', m', returnTo', suspended'⟩
  rcases h with ⟨hinterpreter, hreturn, hreturn', hsame, a, below, h, h'⟩
  dsimp only at hinterpreter hreturn hreturn' hsame h h'
  subst hinterpreter
  subst hreturn
  subst hreturn'
  rw [step_eq h.layout, step_eq h'.layout]
  have hinstruction' := a.instruction?_toggleCalls chosen
  cases hinstruction : a.instruction? with
  | none =>
      rw [hinstruction] at hinstruction'
      rw [hinstruction']
      exact stop_interchanged rfl
  | some i =>
      rw [hinstruction, Option.map_some] at hinstruction'
      simp only [hinstruction']
      split
      · exact stop_interchanged rfl
      · generalize Event.executing m.stack.activeIndex a.location i = event
        generalize Event.executing .. = event'
        have h := h.note event
        have h' := h'.note event'
        have hsame : (m.note event).clearJournal = (m'.note event').clearJournal := hsame
        rcases i.toggleCall_cases (chosen a.function.toNat a.position) with
          heq | ⟨hopcode, hopcode', ha, hb, -⟩
        · rw [heq] at hinstruction' ⊢
          cases hplain : i.opcode.transfers with
          | false => exact settle_plain_interchanged h h' hsame hplain _ _ _
          | true =>
              cases hopcode : i.opcode with
              | call | callback =>
                  exact settle_call_interchanged hvalid h h' hsame hinstruction (by simp [hopcode])
                    hinstruction' (by simp [hopcode]) rfl rfl _ _ _
              | ret => exact settle_ret_interchanged hvalid h h' hsame hopcode _
              | _ => simp [hopcode, Opcode.transfers] at hplain
        · exact settle_call_interchanged hvalid h h' hsame hinstruction hopcode hinstruction'
            hopcode' ha hb _ _ _

/-- Interchanged runs end alike, if they end. -/
theorem run_interchanged (hvalid : program.Valid) (h : Coherent function depth floor [a] m [])
    (h' : Coherent function depth floor [a.toggleCalls chosen] m' [])
    (hsame : m.clearJournal = m'.clearJournal) (interpreter : Interpreter) :
    Option.Rel (InterchangedEnd program chosen function depth floor)
      (run program interpreter m (depth + 1) depth)
      (run (program.toggleCalls chosen) interpreter m' (depth + 1) depth) := by
  rw [run_eq h.layout, run_eq h'.layout]
  have hrel := runFor_rel (fun _ _ => step_interchanged hvalid) interpreter.horizon
    ⟨interpreter, m, depth, []⟩ ⟨interpreter, m', depth, []⟩
    ⟨rfl, rfl, rfl, hsame, a, [], h, h'⟩
  exact complete_rel rfl hrel fun _ _ hend => hend.1

end Lockstep
end Interpreter

namespace Machine

/-! ## Invocations in lockstep -/

/-- Two invocations have executed the same number of instructions and have brought the
same outputs and the same machine but for its journal, or the same error but for the
wrapping of CALLBACKs. -/
def SameReply (reply reply' : Reply Interpreter) : Prop :=
  reply.engine = reply'.engine ∧
    match reply.outcome, reply'.outcome with
    | .ok outputs, .ok outputs' =>
        outputs = outputs' ∧ reply.machine.clearJournal = reply'.machine.clearJournal
    | .error e, .error e' => e.flatten = e'.flatten
    | _, _ => False

section Invocations

variable {program : Program} {m : Machine} {function : UInt16} {inputs : List Bytes}

/-- A request is accepted or refused for what the layouts say. -/
theorem accept_toggleCalls (chosen : Nat → Nat → Bool) :
    accept (program.toggleCalls chosen) m function inputs =
      accept program m function inputs := by
  unfold accept
  rw [Program.routine?_toggleCalls]
  cases program.routine? function <;> rfl

/-- Two interchanged runs bring the same reply. -/
theorem conclude_interchanged {chosen : Nat → Nat → Bool} {depth floor : Nat}
    {back back' : Comeback Interpreter} {routine : Routine}
    (h : Interpreter.InterchangedEnd program chosen function depth floor back back')
    (hroutine : program.routine? function = some routine)
    (hvalid : routine.descriptor.misfit? = none) (resumeAt : Nat) :
    let call : Invocation :=
      ⟨function, routine.descriptor, ⟨floor, routine.descriptor.size.toNat⟩, depth, resumeAt⟩
    SameReply (conclude call back) (conclude call back') := by
  rcases back with ⟨verdict, engine, n⟩
  rcases back' with ⟨verdict', engine', n'⟩
  rcases h with ⟨hengine, h⟩
  dsimp only at hengine
  subst hengine
  cases verdict with
  | error cause =>
      cases verdict' with
      | error cause' => exact ⟨rfl, congrArg InvokeError.fault h⟩
      | ok _ => exact h.elim
  | ok u =>
      cases verdict' with
      | error cause' => exact h.elim
      | ok u' =>
          cases u
          cases u'
          rcases h with ⟨a, m, m', h, h', hsame, hback, hback'⟩
          dsimp only at hback hback'
          subst hback
          subst hback'
          rcases parts_eq_of_clearJournal_eq hsame with ⟨harena, -, -⟩
          have hroutine' : (program.toggleCalls chosen).routine? function =
              some (routine.toggleCalls (chosen function.toNat)) := by
            rw [Program.routine?_toggleCalls, hroutine]
            rfl
          have hdone' : conclude ⟨function, routine.descriptor,
              ⟨floor, routine.descriptor.size.toNat⟩, depth, resumeAt⟩
              ⟨.ok (), engine, m'.modifyStack (CallStack.unwindTo depth)⟩ =
              ⟨.ok (a.outputs m'.arena), engine, (m'.leaving (a.invocation depth resumeAt)).note
                (.returned a.function a.routine.descriptor.outputs.length)⟩ :=
            conclude_eq h' hroutine' hvalid resumeAt engine
          dsimp only
          rw [conclude_eq h hroutine hvalid resumeAt engine, hdone']
          refine ⟨rfl, by rw [harena], ?_⟩
          dsimp only
          rw [clearJournal_note, clearJournal_note, clearJournal_leaving,
            clearJournal_leaving m', hsame]

end Invocations

/-- Changing calls does not change an invocation in a sound machine that is not
poisoned. -/
theorem Sound.invoke_interchanged {program : Program} (hvalid : program.Valid)
    (chosen : Nat → Nat → Bool) {m : Machine} (h : m.Sound) (hpoisoned : m.poisoned = false)
    (function : UInt16) (inputs : List Bytes) (interpreter : Interpreter) :
    Option.Rel SameReply
      (m.invoke program (Interpreter.run program) function inputs interpreter)
      (m.invoke (program.toggleCalls chosen) (Interpreter.run (program.toggleCalls chosen))
        function inputs interpreter) := by
  rw [invoke_eq h, invoke_eq h, accept_toggleCalls]
  cases haccept : accept program m function inputs with
  | error reason => exact .some ⟨rfl, rfl⟩
  | ok d =>
      rcases accept_eq_ok_iff.mp haccept with ⟨-, routine, hroutine, rfl, hmisfit, -⟩
      have hroutine' : (program.toggleCalls chosen).routine? function =
          some (routine.toggleCalls (chosen function.toNat)) := by
        rw [Program.routine?_toggleCalls, hroutine]
        rfl
      dsimp only
      cases hroom : m.shortage routine.descriptor.size.toNat with
      | some need => exact .some ⟨rfl, rfl⟩
      | none =>
          dsimp only
          generalize Event.invoked .. = event
          have hstart := (h.coherent_entering hpoisoned hroutine hroom inputs).note event
          have hstart' : Interpreter.Coherent function m.stack.activeIndex m.arena.stackPointer
              [(Activation.entered hroutine m.arena.stackPointer).toggleCalls chosen]
              ((m.entering function routine.descriptor inputs).note event) [] :=
            (h.coherent_entering hpoisoned hroutine' hroom inputs).note event
          have hrel := Interpreter.run_interchanged hvalid hstart hstart' rfl interpreter
          generalize Interpreter.run program _ _ _ _ = result at hrel ⊢
          generalize Interpreter.run (program.toggleCalls chosen) _ _ _ _ = result' at hrel ⊢
          cases hrel with
          | none => exact .none
          | some hend =>
              refine .some ?_
              exact conclude_interchanged hend hroutine hmisfit _

/-- In a program all of whose layouts are valid, changing any CALLs to CALLBACKs and
any CALLBACKs to CALLs does not change what an invocation on a fresh machine brings:
whether it comes back, the number of instructions executed, the outputs and the
machine, or the error but for the wrapping of CALLBACKs. -/
theorem invoke_interchangeable {program : Program} (hvalid : program.Valid)
    (chosen : Nat → Nat → Bool) {c : Config} (hconfig : c.validate = .ok ())
    (function : UInt16) (inputs : List Bytes) (interpreter : Interpreter) :
    Option.Rel SameReply
      ((ofConfig c).invoke program (Interpreter.run program) function inputs interpreter)
      ((ofConfig c).invoke (program.toggleCalls chosen)
        (Interpreter.run (program.toggleCalls chosen)) function inputs interpreter) :=
  (sound_ofConfig hconfig).invoke_interchanged hvalid chosen rfl function inputs interpreter

/-- A CALLBACK that becomes a CALL, and a CALL that becomes a CALLBACK. -/
theorem invoke_interchangeable_relay :
    let reply := (ofConfig ⟨24, 6, .release⟩).invoke relay (Interpreter.run relay) 0 [[42]] {}
    let reply' := (ofConfig ⟨24, 6, .release⟩).invoke (relay.toggleCalls fun _ _ => true)
      (Interpreter.run (relay.toggleCalls fun _ _ => true)) 0 [[42]] {}
    reply.map Reply.outcome = some (.ok [[42]]) ∧ Option.Rel SameReply reply reply' :=
  ⟨by decide +kernel, invoke_interchangeable (by decide) _ (by decide) 0 [[42]] {}⟩

end Machine
end FrameMachine
