import FrameMachine.Proofs.Budgets
import FrameMachine.Proofs.Mirrors

/-!
# Independence of history and position

An invocation sees nothing of its machine but the room that is left.  As long as
two machines have the same policy and the same room, an invocation with the same
budget brings the same result on both.  The two runs are compared side by side,
with live frames that mirror each other.

Main results:

- Theorem `step_alongside`: executions whose live frames mirror each other step
  alike.
- Theorem `run_alongside`: two runs with the same budget end alike.
- Theorem `Machine.invoke_independent`: an invocation brings the same result in
  every machine with the same room.
-/

namespace FrameMachine
namespace Interpreter

open Machine

/-! ## Budgets -/

/-- Number of instructions that are left, if there is a budget. -/
def remaining (interpreter : Interpreter) : Option Nat :=
  interpreter.fuel.map (· - interpreter.executed)

/-- Where an invocation starts: the active frame, the stack pointer and the number of
instructions executed. -/
structure Origin where
  depth : Nat
  floor : Nat
  executed : Nat

/-- Two interpreters have executed the same number of instructions since their origins
and have the same number left. -/
structure SameBudget (origin origin' : Origin) (interpreter interpreter' : Interpreter) :
    Prop where
  executed_eq : interpreter.executed + origin'.executed =
    interpreter'.executed + origin.executed
  remaining_eq : interpreter.remaining = interpreter'.remaining

section Budget

variable {origin origin' : Origin} {interpreter interpreter' : Interpreter}

theorem SameBudget.charge (h : SameBudget origin origin' interpreter interpreter') :
    SameBudget origin origin' interpreter.charge interpreter'.charge := by
  rcases interpreter with ⟨fuel, executed⟩
  rcases interpreter' with ⟨fuel', executed'⟩
  rcases h with ⟨hexecuted, hremaining⟩
  constructor
  · simp only [Interpreter.charge] at hexecuted ⊢
    omega
  · cases fuel with
    | none =>
        cases fuel' with
        | none => rfl
        | some fuel' => simp [remaining] at hremaining
    | some fuel =>
        cases fuel' with
        | none => simp [remaining] at hremaining
        | some fuel' =>
            simp only [remaining, Interpreter.charge, Option.map_some, Option.some.injEq] at *
            omega

theorem SameBudget.exhausted_eq (h : SameBudget origin origin' interpreter interpreter') :
    interpreter.exhausted = interpreter'.exhausted := by
  rcases interpreter with ⟨fuel, executed⟩
  rcases interpreter' with ⟨fuel', executed'⟩
  have hremaining := h.remaining_eq
  cases fuel with
  | none =>
      cases fuel' with
      | none => rfl
      | some fuel' => simp [remaining] at hremaining
  | some fuel =>
      cases fuel' with
      | none => simp [remaining] at hremaining
      | some fuel' =>
          simp only [remaining, Option.map_some, Option.some.injEq] at hremaining
          simp only [exhausted, decide_eq_decide]
          omega

end Budget

/-! ## Executions side by side -/

section Alongside

variable {program : Program} {function : UInt16} {origin origin' : Origin}

/-- Two coherent executions of one function, whose live frames mirror each other, with
the same budget and the same room. -/
structure Alongside (program : Program) (function : UInt16) (origin origin' : Origin)
    (x x' : Execution) : Prop where
  budget : SameBudget origin origin' x.interpreter x'.interpreter
  returnTo_eq : x.returnTo = origin.depth
  returnTo_eq' : x'.returnTo = origin'.depth
  frames : ∃ (a a' : Activation program) (below below' : List (Activation program)),
    Coherent function origin.depth origin.floor (a :: below) x.machine x.suspended ∧
      Coherent function origin'.depth origin'.floor (a' :: below') x'.machine x'.suspended ∧
      Mirrors origin.depth origin.floor origin'.depth origin'.floor (a :: below)
        (a' :: below') x.machine x'.machine

/-- Two runs have ended with the same fault, but for the number of call stack slots, or
with the return of first frames that mirror each other; either way they have executed as
many instructions and have moved the stack pointer as far. -/
structure AlongsideEnd (program : Program) (function : UInt16) (origin origin' : Origin)
    (back back' : Comeback Interpreter) : Prop where
  budget : SameBudget origin origin' back.engine back'.engine
  pointer_eq : back.machine.arena.stackPointer + origin'.floor =
    back'.machine.arena.stackPointer + origin.floor
  verdict :
    match back.verdict, back'.verdict with
    | .error cause, .error cause' => cause.masked = cause'.masked
    | .ok (), .ok () => ∃ (a a' : Activation program) (m m' : Machine),
        Coherent function origin.depth origin.floor [a] m [] ∧
          Coherent function origin'.depth origin'.floor [a'] m' [] ∧
          Mirrors origin.depth origin.floor origin'.depth origin'.floor [a] [a'] m m' ∧
          back.machine = m.modifyStack (CallStack.unwindTo origin.depth) ∧
          back'.machine = m'.modifyStack (CallStack.unwindTo origin'.depth)
    | _, _ => False

variable {interpreter interpreter' : Interpreter} {suspended suspended' : List Suspension}
  {m m' : Machine} {live live' : List (Activation program)}

/-- Two runs that stop with the same fault, but for the number of call stack slots. -/
theorem stop_alongside {cause cause' : Fault}
    (hbudget : SameBudget origin origin' interpreter interpreter')
    (hlocations : suspended.map (fun s => s.site.location) =
      suspended'.map fun s => s.site.location)
    (hpointer : m.arena.stackPointer + origin'.floor = m'.arena.stackPointer + origin.floor)
    (hcause : cause.masked = cause'.masked) :
    (stop interpreter suspended cause m).Rel (Alongside program function origin origin')
      (AlongsideEnd program function origin origin')
      (stop interpreter' suspended' cause' m') := by
  rw [stop_eq, stop_eq]
  refine ⟨hbudget, ?_, ?_⟩
  · rw [abandon_arena, abandon_arena]
    exact hpointer
  · exact masked_abandon hlocations hcause

/-- Two runs go on side by side, or stop with the same fault. -/
theorem settle_brings_alongside {obstacle obstacle' : Option Fault} {pointer pointer' : Nat}
    {done done' : Machine} {result result' : EStateM.Result Fault Machine Progress}
    (h : Brings obstacle pointer .running done result)
    (h' : Brings obstacle' pointer' .running done' result')
    (hbudget : SameBudget origin origin' interpreter interpreter')
    (hlocations : suspended.map (fun s => s.site.location) =
      suspended'.map fun s => s.site.location)
    (hobstacle : obstacle = obstacle')
    (hpointer : pointer + origin'.floor = pointer' + origin.floor)
    (hnext : obstacle = none → Alongside program function origin origin'
      ⟨interpreter, done, origin.depth, suspended⟩
      ⟨interpreter', done', origin'.depth, suspended'⟩) :
    (settle interpreter origin.depth suspended result).Rel
      (Alongside program function origin origin') (AlongsideEnd program function origin origin')
      (settle interpreter' origin'.depth suspended' result') := by
  subst hobstacle
  cases obstacle with
  | some cause =>
      rcases h with ⟨m, hm, hpoint⟩
      rcases h' with ⟨m', hm', hpoint'⟩
      rw [hm, hm']
      exact stop_alongside hbudget hlocations (by rw [hpoint, hpoint']; exact hpointer) rfl
  | none =>
      have hresult : result = .ok .running done := h
      have hresult' : result' = .ok .running done' := h'
      rw [hresult, hresult']
      exact hnext rfl

/-! ## One instruction side by side -/

section Instructions

variable {a a' : Activation program} {below below' : List (Activation program)} {i : Instruction}

theorem locations_eq (h : Coherent function origin.depth origin.floor live m suspended)
    (h' : Coherent function origin'.depth origin'.floor live' m' suspended')
    (hmirrors : Mirrors origin.depth origin.floor origin'.depth origin'.floor live live' m m') :
    suspended.map (fun s => s.site.location) = suspended'.map fun s => s.site.location := by
  rw [h.suspended_eq, h'.suspended_eq]
  exact location_suspensions hmirrors.frames

/-- An instruction that brings the same fault in both runs. -/
theorem settle_error_alongside
    (h : Coherent function origin.depth origin.floor live m suspended)
    (h' : Coherent function origin'.depth origin'.floor live' m' suspended')
    (hmirrors : Mirrors origin.depth origin.floor origin'.depth origin'.floor live live' m m')
    (hbudget : SameBudget origin origin' interpreter interpreter') {cause cause' : Fault}
    {result result' : EStateM.Result Fault Machine Progress}
    (hresult : result = .error cause m) (hresult' : result' = .error cause' m')
    (hcause : cause.masked = cause'.masked) :
    (settle interpreter origin.depth suspended result).Rel
      (Alongside program function origin origin') (AlongsideEnd program function origin origin')
      (settle interpreter' origin'.depth suspended' result') := by
  rw [hresult, hresult']
  exact stop_alongside hbudget (locations_eq h h' hmirrors) hmirrors.pointer_eq hcause

/-- A plain instruction in both runs. -/
theorem settle_plain_alongside
    (h : Coherent function origin.depth origin.floor (a :: below) m suspended)
    (h' : Coherent function origin'.depth origin'.floor (a' :: below') m' suspended')
    (hmirrors : Mirrors origin.depth origin.floor origin'.depth origin'.floor (a :: below)
      (a' :: below') m m')
    (hbudget : SameBudget origin origin' interpreter interpreter')
    (hplain : i.opcode.transfers = false) (returnTo returnTo' : Nat) :
    (settle interpreter origin.depth suspended (execute program returnTo a.site i m)).Rel
      (Alongside program function origin origin') (AlongsideEnd program function origin origin')
      (settle interpreter' origin'.depth suspended'
        (execute program returnTo' a'.site i m')) := by
  have hagree : a.site.Agree a'.site m m' :=
    ⟨hmirrors.head.location_eq, hmirrors.head.bytes, h.layout.inside (by simp),
      h'.layout.inside (by simp)⟩
  have hplan := Plan.alike program program hagree hplain
  generalize hresult : Plan.ofInstruction program m a.site i = result at hplan
  generalize hresult' : Plan.ofInstruction program m' a'.site i = result' at hplan
  cases hplan with
  | fault _ =>
      exact settle_error_alongside h h' hmirrors hbudget (execute_of_fault hresult)
        (execute_of_fault hresult') rfl
  | next =>
      rw [execute_of_plan hresult, execute_of_plan hresult']
      exact ⟨hbudget, rfl, rfl, _, _, _, _, h.advance, h'.advance, hmirrors.advance⟩
  | goto target =>
      rw [execute_of_plan hresult, execute_of_plan hresult']
      exact ⟨hbudget, rfl, rfl, _, _, _, _, h.jump target.toNat, h'.jump target.toNat,
        hmirrors.jump target.toNat⟩
  | @store offset bytes _ =>
      rw [execute_of_plan hresult, execute_of_plan hresult']
      exact ⟨hbudget, rfl, rfl, _, _, _, _, (h.store _ _).advance, (h'.store _ _).advance,
        (hmirrors.store h.layout h'.layout offset bytes).advance⟩

/-- A CALL in both runs. -/
theorem settle_call_alongside
    (h : Coherent function origin.depth origin.floor (a :: below) m suspended)
    (h' : Coherent function origin'.depth origin'.floor (a' :: below') m' suspended')
    (hmirrors : Mirrors origin.depth origin.floor origin'.depth origin'.floor (a :: below)
      (a' :: below') m m')
    (hbudget : SameBudget origin origin' interpreter interpreter')
    (hinstruction : a.instruction? = some i) (hopcode : i.opcode = .call)
    (returnTo returnTo' : Nat) :
    (settle interpreter origin.depth suspended (execute program returnTo a.site i m)).Rel
      (Alongside program function origin origin') (AlongsideEnd program function origin origin')
      (settle interpreter' origin'.depth suspended'
        (execute program returnTo' a'.site i m')) := by
  have hpointer := hmirrors.pointer_eq
  have hlocation : a.location = a'.location := hmirrors.head.location_eq
  have hinstruction' := hmirrors.head.instruction?_eq.symm.trans hinstruction
  cases hcallee : program.routine? i.a with
  | none =>
      apply settle_error_alongside h h' hmirrors hbudget
      · exact execute_of_fault (Plan.ofInstruction_unknown (Or.inl hopcode) hcallee)
      · exact execute_of_fault (Plan.ofInstruction_unknown (Or.inl hopcode) hcallee)
      · exact congrArg (Fault.masked <| .unknownFunction · i.a) hlocation
  | some callee =>
      have hfit_eq := hmirrors.head.outside?_eq (backToBack i.b.toNat callee.descriptor.inputs)
      cases hfit : a.site.outside? (backToBack i.b.toNat callee.descriptor.inputs) with
      | some cause =>
          exact settle_error_alongside h h' hmirrors hbudget
            (execute_of_outside h.layout (Or.inl hopcode) hcallee hfit)
            (execute_of_outside h'.layout (Or.inl hopcode) hcallee (hfit_eq ▸ hfit)) rfl
      | none =>
          have hfit' := hfit_eq ▸ hfit
          rcases hmirrors.shortage_cases h.layout h'.layout callee.descriptor.size.toNat with
            ⟨need, need', hshort, hshort', hneed⟩ | ⟨hroom, hroom'⟩
          · apply settle_error_alongside h h' hmirrors hbudget
            · exact execute_call_of_shortage h.layout hopcode hcallee hfit hshort
            · exact execute_call_of_shortage h'.layout hopcode hcallee hfit' hshort'
            · simp only [Fault.masked, hneed, hlocation]
          · have hcall := execute_call_brings returnTo h.layout hopcode hcallee hfit hroom
            have hcall' := execute_call_brings returnTo' h'.layout hopcode hcallee hfit' hroom'
            rw [← hmirrors.head.parts_eq hfit] at hcall'
            apply settle_brings_alongside hcall hcall' hbudget (locations_eq h h' hmirrors) rfl
            · omega
            · intro _
              exact ⟨hbudget, rfl, rfl, Activation.entered hcallee m.arena.stackPointer,
                Activation.entered hcallee m'.arena.stackPointer, a :: below, a' :: below',
                h.entering_call hinstruction hopcode hcallee hroom _,
                h'.entering_call hinstruction' hopcode hcallee hroom' _,
                hmirrors.entering h.layout h'.layout hcallee hroom hroom' _⟩

/-- A CALLBACK in both runs. -/
theorem settle_callback_alongside
    (h : Coherent function origin.depth origin.floor (a :: below) m suspended)
    (h' : Coherent function origin'.depth origin'.floor (a' :: below') m' suspended')
    (hmirrors : Mirrors origin.depth origin.floor origin'.depth origin'.floor (a :: below)
      (a' :: below') m m')
    (hbudget : SameBudget origin origin' interpreter interpreter')
    (hinstruction : a.instruction? = some i) (hopcode : i.opcode = .callback)
    (returnTo returnTo' : Nat) :
    (settle interpreter origin.depth suspended (execute program returnTo a.site i m)).Rel
      (Alongside program function origin origin') (AlongsideEnd program function origin origin')
      (settle interpreter' origin'.depth suspended'
        (execute program returnTo' a'.site i m')) := by
  have hlocation : a.location = a'.location := hmirrors.head.location_eq
  have hinstruction' := hmirrors.head.instruction?_eq.symm.trans hinstruction
  cases hcallee : program.routine? i.a with
  | none =>
      apply settle_error_alongside h h' hmirrors hbudget
      · exact execute_of_fault (Plan.ofInstruction_unknown (Or.inr hopcode) hcallee)
      · exact execute_of_fault (Plan.ofInstruction_unknown (Or.inr hopcode) hcallee)
      · exact congrArg (Fault.masked <| .unknownFunction · i.a) hlocation
  | some callee =>
      have hfit_eq := hmirrors.head.outside?_eq (backToBack i.b.toNat callee.descriptor.inputs)
      cases hfit : a.site.outside? (backToBack i.b.toNat callee.descriptor.inputs) with
      | some cause =>
          exact settle_error_alongside h h' hmirrors hbudget
            (execute_of_outside h.layout (Or.inr hopcode) hcallee hfit)
            (execute_of_outside h'.layout (Or.inr hopcode) hcallee (hfit_eq ▸ hfit)) rfl
      | none =>
          have hcallback := execute_callback_eq returnTo h hopcode hcallee hfit
          have hcallback' := execute_callback_eq returnTo' h' hopcode hcallee
            (hfit_eq ▸ hfit)
          rw [← hmirrors.head.parts_eq hfit] at hcallback'
          cases hmisfit : callee.descriptor.misfit? with
          | some misfit =>
              rw [hmisfit] at hcallback hcallback'
              apply settle_error_alongside h h' hmirrors hbudget hcallback hcallback'
              simp only [Fault.masked, hlocation]
          | none =>
              rw [hmisfit] at hcallback hcallback'
              rcases hmirrors.shortage_cases h.layout h'.layout callee.descriptor.size.toNat with
                ⟨need, need', hshort, hshort', hneed⟩ | ⟨hroom, hroom'⟩
              · rw [hshort] at hcallback
                rw [hshort'] at hcallback'
                apply settle_error_alongside h h' hmirrors hbudget hcallback hcallback'
                simp only [Fault.masked, Rejection.masked, hneed, hlocation]
              · rw [hroom] at hcallback
                rw [hroom'] at hcallback'
                rw [hcallback, hcallback']
                exact ⟨hbudget, rfl, rfl, Activation.entered hcallee m.arena.stackPointer,
                  Activation.entered hcallee m'.arena.stackPointer, a :: below, a' :: below',
                  (h.entering_callback hinstruction hopcode hcallee hmisfit hroom _).note _,
                  (h'.entering_callback hinstruction' hopcode hcallee hmisfit hroom' _).note _,
                  (hmirrors.entering h.layout h'.layout hcallee hroom hroom' _).note _ _⟩

/-- The last return of both runs. -/
theorem settle_last_ret_alongside
    (h : Coherent function origin.depth origin.floor [a] m suspended)
    (h' : Coherent function origin'.depth origin'.floor [a'] m' suspended')
    (hmirrors : Mirrors origin.depth origin.floor origin'.depth origin'.floor [a] [a'] m m')
    (hbudget : SameBudget origin origin' interpreter interpreter') (hret : i.opcode = .ret) :
    (settle interpreter origin.depth suspended
        (execute program (innermostReturn origin.depth suspended) a.site i m)).Rel
      (Alongside program function origin origin') (AlongsideEnd program function origin origin')
      (settle interpreter' origin'.depth suspended'
        (execute program (innermostReturn origin'.depth suspended') a'.site i m')) := by
  have hsuspended : suspended = [] := h.suspended_eq
  have hsuspended' : suspended' = [] := h'.suspended_eq
  subst hsuspended
  subst hsuspended'
  have hreturn : execute program (innermostReturn origin.depth []) a.site i m =
      .ok .returned (m.modifyStack (CallStack.unwindTo origin.depth)) :=
    execute_ret_of_eq h.layout hret rfl
  have hreturn' : execute program (innermostReturn origin'.depth []) a'.site i m' =
      .ok .returned (m'.modifyStack (CallStack.unwindTo origin'.depth)) :=
    execute_ret_of_eq h'.layout hret rfl
  rw [hreturn, hreturn']
  exact ⟨hbudget, hmirrors.pointer_eq, a, a', m, m', h, h', hmirrors, rfl, rfl⟩

/-- A return to the frame of a CALL in both runs. -/
theorem settle_ret_call_alongside {c c' : Activation program} {j : Instruction}
    (h : Coherent function origin.depth origin.floor (a :: c :: below) m suspended)
    (h' : Coherent function origin'.depth origin'.floor (a' :: c' :: below') m' suspended')
    (hmirrors : Mirrors origin.depth origin.floor origin'.depth origin'.floor (a :: c :: below)
      (a' :: c' :: below') m m')
    (hbudget : SameBudget origin origin' interpreter interpreter') (hret : i.opcode = .ret)
    (hinstruction : c.instruction? = some j) (hopcode : j.opcode = .call) :
    (settle interpreter origin.depth suspended
        (execute program (innermostReturn origin.depth suspended) a.site i m)).Rel
      (Alongside program function origin origin') (AlongsideEnd program function origin origin')
      (settle interpreter' origin'.depth suspended'
        (execute program (innermostReturn origin'.depth suspended') a'.site i m')) := by
  rcases List.forall₂_cons.mp hmirrors.frames with ⟨ha, hcallers⟩
  have hc := (List.forall₂_cons.mp hcallers).1
  have hinstruction' := hc.instruction?_eq.symm.trans hinstruction
  have hsuspended := h.suspended_eq.trans (suspensions_call hinstruction hopcode)
  have hsuspended' := h'.suspended_eq.trans (suspensions_call hinstruction' hopcode)
  have hreturn := execute_ret_call h.layout hinstruction hopcode hret
    (hsuspended ▸ innermostReturn_le)
  have hreturn' := execute_ret_call h'.layout hinstruction' hopcode hret
    (hsuspended' ▸ innermostReturn_le)
  have hobstacle : passing? a.window c.site j.c.toNat a.routine.descriptor.outputs =
      passing? a'.window c'.site j.c.toNat a'.routine.descriptor.outputs := by
    rw [ha.routine_eq]
    exact passing?_congr ha.bytes.size_eq hc.bytes.size_eq hc.location_eq _ _
  apply settle_brings_alongside hreturn hreturn' hbudget (locations_eq h h' hmirrors) hobstacle
    hmirrors.pointer_eq
  intro hnone
  have houtputs := ha.outputs_eq (misfit?_of_passing? hnone)
  refine ⟨hbudget, rfl, rfl, c.next, c'.next, below, below', ?_, ?_, ?_⟩
  · exact hsuspended ▸ (h.returning _ _).note _
  · exact hsuspended' ▸ (h'.returning _ _).note _
  · dsimp only
    rw [houtputs]
    exact (hmirrors.returning h.layout h'.layout _ _).note _ _

/-- A return to the frame of a CALLBACK in both runs. -/
theorem settle_ret_callback_alongside {c c' : Activation program} {j : Instruction}
    (h : Coherent function origin.depth origin.floor (a :: c :: below) m suspended)
    (h' : Coherent function origin'.depth origin'.floor (a' :: c' :: below') m' suspended')
    (hmirrors : Mirrors origin.depth origin.floor origin'.depth origin'.floor (a :: c :: below)
      (a' :: c' :: below') m m')
    (hbudget : SameBudget origin origin' interpreter interpreter') (hret : i.opcode = .ret)
    (hinstruction : c.instruction? = some j) (hopcode : j.opcode = .callback)
    (hvalid : a.routine.descriptor.misfit? = none) :
    (settle interpreter origin.depth suspended
        (execute program (innermostReturn origin.depth suspended) a.site i m)).Rel
      (Alongside program function origin origin') (AlongsideEnd program function origin origin')
      (settle interpreter' origin'.depth suspended'
        (execute program (innermostReturn origin'.depth suspended') a'.site i m')) := by
  rcases List.forall₂_cons.mp hmirrors.frames with ⟨ha, hcallers⟩
  have hc := (List.forall₂_cons.mp hcallers).1
  have hinstruction' := hc.instruction?_eq.symm.trans hinstruction
  have hvalid' := ha.routine_eq ▸ hvalid
  have hturn := settle_ret_callback h.layout hinstruction hopcode hvalid hret interpreter
  have hturn' := settle_ret_callback h'.layout hinstruction' hopcode hvalid' hret interpreter'
  have hobstacle := hc.outside?_eq (backToBack j.c.toNat a.routine.descriptor.outputs)
  have houtputs := ha.outputs_eq (Descriptor.outputs_fit hvalid a.base)
  have hdone := hmirrors.returning h.layout h'.layout j.c.toNat (a.outputs m.arena).flatten
  have hcallers_eq : (suspensions origin.depth (c :: below)).map (fun s => s.site.location) =
      (suspensions origin'.depth (c' :: below')).map fun s => s.site.location :=
    location_suspensions hcallers
  dsimp only at hturn hturn'
  rw [← h.suspended_eq] at hturn
  rw [← h'.suspended_eq, ← ha.routine_eq, ← hobstacle, ← houtputs] at hturn'
  cases hfit : c.site.outside? (backToBack j.c.toNat a.routine.descriptor.outputs) with
  | some cause =>
      rw [hfit] at hturn hturn'
      rcases hturn with ⟨n, hn, hpointer⟩
      rcases hturn' with ⟨n', hn', hpointer'⟩
      rw [hn, hn']
      refine stop_alongside hbudget hcallers_eq ?_ rfl
      rw [hpointer, hpointer']
      exact hdone.pointer_eq
  | none =>
      rw [hfit] at hturn hturn'
      rw [hturn, hturn']
      refine ⟨hbudget, rfl, rfl, c.next, c'.next, below, below', ?_, ?_, ?_⟩
      · exact (h.returning _ _).note _
      · exact (h'.returning _ _).note _
      · exact hdone.note _ _

/-- A return in both runs. -/
theorem settle_ret_alongside
    (h : Coherent function origin.depth origin.floor (a :: below) m suspended)
    (h' : Coherent function origin'.depth origin'.floor (a' :: below') m' suspended')
    (hmirrors : Mirrors origin.depth origin.floor origin'.depth origin'.floor (a :: below)
      (a' :: below') m m')
    (hbudget : SameBudget origin origin' interpreter interpreter') (hret : i.opcode = .ret) :
    (settle interpreter origin.depth suspended
        (execute program (innermostReturn origin.depth suspended) a.site i m)).Rel
      (Alongside program function origin origin') (AlongsideEnd program function origin origin')
      (settle interpreter' origin'.depth suspended'
        (execute program (innermostReturn origin'.depth suspended') a'.site i m')) := by
  cases below with
  | nil =>
      cases below' with
      | nil => exact settle_last_ret_alongside h h' hmirrors hbudget hret
      | cons c' below' =>
          have hlength := hmirrors.frames.length_eq
          simp at hlength
  | cons c below =>
      cases below' with
      | nil =>
          have hlength := hmirrors.frames.length_eq
          simp at hlength
      | cons c' below' =>
          cases h.called with
          | call hinstruction hopcode _ _ =>
              exact settle_ret_call_alongside h h' hmirrors hbudget hret hinstruction hopcode
          | callback hinstruction hopcode _ hvalid _ =>
              exact settle_ret_callback_alongside h h' hmirrors hbudget hret hinstruction hopcode
                hvalid

end Instructions

/-- Executions whose live frames mirror each other step alike. -/
theorem step_alongside {x x' : Execution} (h : Alongside program function origin origin' x x') :
    (step program x).Rel (Alongside program function origin origin')
      (AlongsideEnd program function origin origin') (step program x') := by
  rcases x with ⟨interpreter, m, returnTo, suspended⟩
  rcases x' with ⟨interpreter', m', returnTo', suspended'⟩
  rcases h with ⟨hbudget, hreturn, hreturn', a, a', below, below', h, h', hmirrors⟩
  dsimp only at hbudget hreturn hreturn' h h' hmirrors
  subst hreturn
  subst hreturn'
  have hlocations := locations_eq h h' hmirrors
  have hhead := hmirrors.head
  rw [step_eq h.layout, step_eq h'.layout, ← hhead.instruction?_eq, ← hhead.location_eq,
    ← hbudget.exhausted_eq]
  cases hinstruction : a.instruction? with
  | none => exact stop_alongside hbudget hlocations hmirrors.pointer_eq rfl
  | some i =>
      dsimp only
      split
      · exact stop_alongside hbudget hlocations hmirrors.pointer_eq rfl
      · have h := h.note (.executing m.stack.activeIndex a.location i)
        have h' := h'.note (.executing m'.stack.activeIndex a.location i)
        have hmirrors := hmirrors.note (.executing m.stack.activeIndex a.location i)
          (.executing m'.stack.activeIndex a.location i)
        cases hplain : i.opcode.transfers with
        | false => exact settle_plain_alongside h h' hmirrors hbudget.charge hplain _ _
        | true =>
            cases hopcode : i.opcode with
            | call =>
                exact settle_call_alongside h h' hmirrors hbudget.charge hinstruction hopcode _ _
            | callback =>
                exact settle_callback_alongside h h' hmirrors hbudget.charge hinstruction hopcode
                  _ _
            | ret => exact settle_ret_alongside h h' hmirrors hbudget.charge hopcode
            | _ => simp [hopcode, Opcode.transfers] at hplain

/-- Two runs end alike.  The second one does not end only if it has no budget and its
instruction counter would no longer be a word. -/
theorem run_alongside {a a' : Activation program}
    (h : Coherent function origin.depth origin.floor [a] m [])
    (h' : Coherent function origin'.depth origin'.floor [a'] m' [])
    (hmirrors : Mirrors origin.depth origin.floor origin'.depth origin'.floor [a] [a'] m m')
    (hbudget : SameBudget origin origin' interpreter interpreter') {back : Comeback Interpreter}
    (hrun : run program interpreter m (origin.depth + 1) origin.depth = some back) :
    match run program interpreter' m' (origin'.depth + 1) origin'.depth with
    | some back' => AlongsideEnd program function origin origin' back back'
    | none => interpreter'.fuel = none ∧
        Word.count ≤ interpreter'.executed + (back.engine.executed - interpreter.executed) := by
  rw [run_eq h.layout] at hrun
  rw [run_eq h'.layout]
  have hrun := runFor_of_complete hrun
  have hrel : ∀ clock, Option.Rel (AlongsideEnd program function origin origin')
      (runFor program clock ⟨interpreter, m, origin.depth, []⟩)
      (runFor program clock ⟨interpreter', m', origin'.depth, []⟩) :=
    fun clock => runFor_rel (fun _ _ => step_alongside) clock _ _
      ⟨hbudget, rfl, rfl, a, a', [], [], h, h', hmirrors⟩
  cases hrun' : complete program ⟨interpreter', m', origin'.depth, []⟩ with
  | some back' =>
      -- the clocks may differ, but both runs are over at the later one
      have hboth := hrel (max interpreter.horizon interpreter'.horizon)
      rw [runFor_mono (Nat.le_max_left ..) hrun,
        runFor_mono (Nat.le_max_right ..) (runFor_of_complete hrun')] at hboth
      cases hboth with
      | some hend => exact hend
  | none =>
      have hboth := hrel interpreter.horizon
      rw [hrun] at hboth
      cases hlong : runFor program interpreter.horizon ⟨interpreter', m', origin'.depth, []⟩ with
      | none =>
          rw [hlong] at hboth
          cases hboth
      | some back' =>
          rw [hlong] at hboth
          cases hboth with
          | some hend =>
              rcases uncountable_of_complete_eq_none hrun' hlong with ⟨hfuel, hcount⟩
              have hexecuted := hbudget.executed_eq
              have hexecuted' := hend.budget.executed_eq
              exact ⟨hfuel, by omega⟩

end Alongside
end Interpreter

namespace Machine

/-! ## Invocations side by side -/

/-- Two machines have the same policy, as many free arena bytes and as many free call
stack slots. -/
structure SameRoom (m m' : Machine) : Prop where
  reclaim_eq : m.reclaim = m'.reclaim
  available_eq : m.arena.available = m'.arena.available
  slots_eq : m.stack.capacity - (m.stack.activeIndex + 1) =
    m'.stack.capacity - (m'.stack.activeIndex + 1)

/-- Two invocations have brought the same outputs, or the same error but for the number
of call stack slots; they have executed as many instructions and have moved the stack
pointer up as far. -/
structure SameResult (m m' : Machine) (interpreter interpreter' : Interpreter)
    (reply reply' : Reply Interpreter) : Prop where
  outcome_eq : reply.outcome.mapError InvokeError.masked =
    reply'.outcome.mapError InvokeError.masked
  executed_eq : ∃ count, reply.engine.executed = interpreter.executed + count ∧
    reply'.engine.executed = interpreter'.executed + count
  pointer_eq : ∃ advance,
    reply.machine.arena.stackPointer = m.arena.stackPointer + advance ∧
      reply'.machine.arena.stackPointer = m'.arena.stackPointer + advance

section Invocations

variable {program : Program} {m m' : Machine} {function : UInt16} {inputs : List Bytes}
  {interpreter interpreter' : Interpreter}

/-- With no live frames, having the same room is all there is to mirror. -/
theorem SameRoom.mirrors (program : Program) (h : SameRoom m m') (hsound : m.Sound)
    (hsound' : m'.Sound) :
    Mirrors m.stack.activeIndex m.arena.stackPointer m'.stack.activeIndex m'.arena.stackPointer
      ([] : List (Activation program)) [] m m' where
  reclaim_eq := h.reclaim_eq
  pointer_eq := Nat.add_comm ..
  arenaRoom_eq := by
    have havailable := h.available_eq
    have hpointer := hsound.stackPointer_le
    have hpointer' := hsound'.stackPointer_le
    simp only [Arena.available] at havailable
    omega
  stackRoom_eq := by
    have hslots := h.slots_eq
    have hactive := hsound.active_lt
    have hactive' := hsound'.active_lt
    omega
  frames := .nil

/-- An invocation starts side by side with one in a machine with the same room. -/
theorem SameRoom.mirrors_entering (h : SameRoom m m') (hsound : m.Sound) (hsound' : m'.Sound)
    {routine : Routine} (hroutine : program.routine? function = some routine)
    (hroom : m.shortage routine.descriptor.size.toNat = none)
    (hroom' : m'.shortage routine.descriptor.size.toNat = none) (inputs : List Bytes) :
    Mirrors m.stack.activeIndex m.arena.stackPointer m'.stack.activeIndex m'.arena.stackPointer
      [Activation.entered hroutine m.arena.stackPointer]
      [Activation.entered hroutine m'.arena.stackPointer]
      (m.entering function routine.descriptor inputs)
      (m'.entering function routine.descriptor inputs) :=
  (h.mirrors program hsound hsound').entering hsound.layout_nil hsound'.layout_nil hroutine
    hroom hroom' inputs

/-- Two runs that end alike conclude their invocations alike. -/
theorem conclude_alongside {origin origin' : Interpreter.Origin}
    {back back' : Comeback Interpreter} {routine : Routine}
    (h : Interpreter.AlongsideEnd program function origin origin' back back')
    (hroutine : program.routine? function = some routine)
    (hvalid : routine.descriptor.misfit? = none) (resumeAt resumeAt' : Nat) :
    let window : Nat → Window := fun floor => ⟨floor, routine.descriptor.size.toNat⟩
    let reply := conclude ⟨function, routine.descriptor, window origin.floor, origin.depth,
      resumeAt⟩ back
    let reply' := conclude ⟨function, routine.descriptor, window origin'.floor, origin'.depth,
      resumeAt'⟩ back'
    reply.outcome.mapError InvokeError.masked = reply'.outcome.mapError InvokeError.masked ∧
      reply.machine.arena.stackPointer + origin'.floor =
        reply'.machine.arena.stackPointer + origin.floor := by
  rcases back with ⟨verdict, engine, n⟩
  rcases back' with ⟨verdict', engine', n'⟩
  rcases h with ⟨-, hpointer, h⟩
  cases verdict with
  | error cause =>
      cases verdict' with
      | error cause' =>
          have hmasked : cause.masked = cause'.masked := h
          exact ⟨congrArg (fun f => Except.error (InvokeError.fault f)) hmasked, hpointer⟩
      | ok _ => exact h.elim
  | ok u =>
      cases verdict' with
      | error cause' => exact h.elim
      | ok u' =>
          cases u
          cases u'
          rcases h with ⟨a, a', m, m', h, h', hmirrors, hback, hback'⟩
          dsimp only at hback hback'
          subst hback
          subst hback'
          have hfit := h.called.outputs_fit hroutine hvalid
          dsimp only
          rw [conclude_eq h hroutine hvalid, conclude_eq h' hroutine hvalid]
          constructor
          · rw [hmirrors.head.outputs_eq hfit]
          · have hleft := hmirrors.pop h.layout h'.layout origin.depth origin'.depth
            simp only [arena_note, arena_leaving]
            exact hleft.pointer_eq

/-- Invocations with the same budget start with the same budget. -/
theorem sameBudget_start (m m' : Machine)
    (hremaining : interpreter.remaining = interpreter'.remaining) :
    Interpreter.SameBudget ⟨m.stack.activeIndex, m.arena.stackPointer, interpreter.executed⟩
      ⟨m'.stack.activeIndex, m'.arena.stackPointer, interpreter'.executed⟩ interpreter
      interpreter' :=
  ⟨Nat.add_comm .., hremaining⟩

/-- Two runs side by side of a function that two machines with the same room have
entered bring the same result, or the second one does not end. -/
theorem SameRoom.entered_alongside (h : m.SameRoom m') (hsound : m.Sound) (hsound' : m'.Sound)
    (hpoisoned : m.poisoned = false) (hpoisoned' : m'.poisoned = false)
    (hremaining : interpreter.remaining = interpreter'.remaining) {routine : Routine}
    (hroutine : program.routine? function = some routine)
    (hmisfit : routine.descriptor.misfit? = none)
    (hroom : m.shortage routine.descriptor.size.toNat = none)
    (hroom' : m'.shortage routine.descriptor.size.toNat = none) (inputs : List Bytes)
    (event event' : Event) (resumeAt resumeAt' : Nat) {back : Comeback Interpreter}
    (hrun : Interpreter.run program interpreter
      ((m.entering function routine.descriptor inputs).note event) (m.stack.activeIndex + 1)
      m.stack.activeIndex = some back) :
    let reply := conclude ⟨function, routine.descriptor, m.nextWindow routine.descriptor.size,
      m.stack.activeIndex, resumeAt⟩ back
    m.arena.stackPointer ≤ reply.machine.arena.stackPointer →
    match Interpreter.run program interpreter'
        ((m'.entering function routine.descriptor inputs).note event') (m'.stack.activeIndex + 1)
        m'.stack.activeIndex with
    | some back' =>
        SameResult m m' interpreter interpreter' reply (conclude ⟨function, routine.descriptor,
          m'.nextWindow routine.descriptor.size, m'.stack.activeIndex, resumeAt'⟩ back')
    | none => interpreter'.fuel = none ∧
        Word.count ≤ interpreter'.executed + (reply.engine.executed - interpreter.executed) := by
  intro reply hfloor
  have hstart := (hsound.coherent_entering hpoisoned hroutine hroom inputs).note event
  have hstart' := (hsound'.coherent_entering hpoisoned' hroutine hroom' inputs).note event'
  have hmirrors := (h.mirrors_entering hsound hsound' hroutine hroom hroom' inputs).note
    event event'
  have hend := Interpreter.run_alongside hstart hstart' hmirrors
    (sameBudget_start m m' hremaining) hrun
  have hengine : reply.engine = back.engine := conclude_engine ..
  cases hrun' : Interpreter.run program interpreter'
      ((m'.entering function routine.descriptor inputs).note event') (m'.stack.activeIndex + 1)
      m'.stack.activeIndex with
  | none =>
      rw [hrun'] at hend
      rw [hengine]
      exact hend
  | some back' =>
      rw [hrun'] at hend
      rcases conclude_alongside hend hroutine hmisfit resumeAt resumeAt' with ⟨houtcome, hpointer⟩
      have hexecuted := hend.budget.executed_eq
      have hle := Interpreter.executed_le_of_run hrun
      dsimp only [reply, nextWindow] at hfloor hpointer hexecuted ⊢
      refine ⟨houtcome, ⟨back.engine.executed - interpreter.executed, ?_, ?_⟩,
        _ - m.arena.stackPointer, (Nat.add_sub_of_le hfloor).symm, by omega⟩
      · rw [conclude_engine, Nat.add_sub_of_le hle]
      · rw [conclude_engine]
        omega

end Invocations

/-- Two invocations with the same budget in sound machines with the same room, neither
of which is poisoned, bring the same result.  The second one does not come back only if
it has no budget and its instruction counter would no longer be a word. -/
theorem Sound.invoke_alongside {program : Program} {m m' : Machine} (h : m.Sound)
    (h' : m'.Sound) (hpoisoned : m.poisoned = false) (hpoisoned' : m'.poisoned = false)
    (hroom : m.SameRoom m') {interpreter interpreter' : Interpreter}
    (hremaining : interpreter.remaining = interpreter'.remaining) {function : UInt16}
    {inputs : List Bytes} {reply : Reply Interpreter}
    (hreply : m.invoke program (Interpreter.run program) function inputs interpreter =
      some reply) :
    match m'.invoke program (Interpreter.run program) function inputs interpreter' with
    | some reply' => SameResult m m' interpreter interpreter' reply reply'
    | none => interpreter'.fuel = none ∧
        Word.count ≤ interpreter'.executed +
          (reply.engine.executed - interpreter.executed) := by
  have haccept_eq : accept program m' function inputs = accept program m function inputs := by
    simp only [accept, hpoisoned, hpoisoned']
  have hfloor := (sheltered_invoke hreply).floor_le
  rw [invoke_eq h] at hreply
  rw [invoke_eq h', haccept_eq]
  cases haccept : accept program m function inputs with
  | error reason =>
      rw [haccept] at hreply
      cases hreply
      exact ⟨rfl, ⟨0, rfl, rfl⟩, 0, rfl, rfl⟩
  | ok d =>
      rcases accept_eq_ok_iff.mp haccept with ⟨-, routine, hroutine, rfl, hmisfit, -⟩
      have hshortage := (hroom.mirrors program h h').shortage_cases h.layout_nil h'.layout_nil
        routine.descriptor.size.toNat
      rw [haccept] at hreply
      dsimp only at hreply ⊢
      rcases hshortage with ⟨need, need', hshort, hshort', hneed⟩ | ⟨hshort, hshort'⟩
      · rw [hshort] at hreply
        rw [hshort']
        cases hreply
        exact ⟨congrArg (fun n => Except.error (InvokeError.rejected (.exhausted n))) hneed,
          ⟨0, rfl, rfl⟩, 0, rfl, rfl⟩
      · rw [hshort] at hreply
        rw [hshort']
        dsimp only at hreply ⊢
        rcases Option.map_eq_some_iff.mp hreply with ⟨back, hrun, rfl⟩
        have hend := hroom.entered_alongside h h' hpoisoned hpoisoned' hremaining hroutine hmisfit
          hshort hshort' inputs _
          (.invoked function (m'.stack.activeIndex + 1) m'.stack.activeIndex) _
          m'.stack.active.instructionPointer hrun hfloor
        generalize Interpreter.run program interpreter' _ _ _ = result at hend ⊢
        cases result with
        | none => exact hend
        | some back' => exact hend

/-- An invocation brings the same result in any two machines that can be reached over a
program, have the same room and are not poisoned: neither the bytes that are there nor
the frames below it nor its place have any influence.  If it comes back in one of them,
it does in the other, unless it has no budget and the instruction counter would pass the
end of a word there. -/
theorem invoke_independent {program : Program} {m m' : Machine} (h : Reachable program m)
    (h' : Reachable program m') (hpoisoned : m.poisoned = false)
    (hpoisoned' : m'.poisoned = false) (hroom : m.SameRoom m')
    {interpreter interpreter' : Interpreter}
    (hremaining : interpreter.remaining = interpreter'.remaining) {function : UInt16}
    {inputs : List Bytes} {reply : Reply Interpreter}
    (hreply : m.invoke program (Interpreter.run program) function inputs interpreter =
      some reply) :
    (∀ reply', m'.invoke program (Interpreter.run program) function inputs interpreter' =
        some reply' → SameResult m m' interpreter interpreter' reply reply') ∧
      (m'.invoke program (Interpreter.run program) function inputs interpreter' = none →
        interpreter'.fuel = none ∧ Word.count ≤ interpreter'.executed +
          (reply.engine.executed - interpreter.executed)) := by
  have hsame := h.sound.invoke_alongside h'.sound hpoisoned hpoisoned' hroom hremaining hreply
  constructor
  · intro reply' hreply'
    rw [hreply'] at hsame
    exact hsame
  · intro hnone
    rw [hnone] at hsame
    exact hsame

/-- A fresh machine and a busy one, and an interpreter that has been used before. -/
theorem invoke_independent_relay :
    ∃ reply reply',
      (ofConfig ⟨19, 5, .release⟩).invoke relay (Interpreter.run relay) 0 [[42]] ⟨some 10, 0⟩ =
        some reply ∧
      (busy .release).invoke relay (Interpreter.run relay) 0 [[42]] ⟨some 17, 7⟩ = some reply' ∧
      SameResult (ofConfig ⟨19, 5, .release⟩) (busy .release) ⟨some 10, 0⟩ ⟨some 17, 7⟩ reply
        reply' := by
  have hfresh : ((ofConfig ⟨19, 5, .release⟩).invoke relay (Interpreter.run relay) 0 [[42]]
      ⟨some 10, 0⟩).isSome := by decide +kernel
  have hbusy : ((busy .release).invoke relay (Interpreter.run relay) 0 [[42]]
      ⟨some 17, 7⟩).isSome := by decide +kernel
  have hreachable : Reachable relay (ofConfig ⟨19, 5, .release⟩) := .create rfl
  have hreachable' : Reachable relay (busy .release) := .perform (.perform (.create rfl) _) _
  have hpoisoned : (ofConfig ⟨19, 5, .release⟩).poisoned = false := rfl
  have hpoisoned' : (busy .release).poisoned = false := rfl
  have hroom : SameRoom (ofConfig ⟨19, 5, .release⟩) (busy .release) :=
    ⟨by decide +kernel, by decide +kernel, by decide +kernel⟩
  have hremaining : Interpreter.remaining ⟨some 10, 0⟩ = Interpreter.remaining ⟨some 17, 7⟩ := rfl
  rcases Option.isSome_iff_exists.mp hfresh with ⟨reply, hreply⟩
  rcases Option.isSome_iff_exists.mp hbusy with ⟨reply', hreply'⟩
  have hsame := invoke_independent hreachable hreachable' hpoisoned hpoisoned' hroom hremaining
    hreply
  exact ⟨reply, reply', hreply, hreply', hsame.1 reply' hreply'⟩

end Machine
end FrameMachine
