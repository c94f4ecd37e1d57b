import FrameMachine.Proofs.Transfers

/-!
# Refused invocations

There may be several objections to an invocation: to the machine, to the function, to
its slots, to the inputs, or for want of room.  This file states them as a relation of
its own, with the order in which they count, and shows that an invocation is refused
exactly for the first one.  Whether the engine has been asked to run is seen from an
engine that keeps a record of that.

Main results:

- Theorem `Machine.refusal?_spec`: the checks find the first objection, if there is any.
- Theorem `Machine.invoke_recorded`: keeping a record changes nothing else.
- Theorem `Machine.invoke_refusals`: an invocation is refused exactly for the first
  objection, and then nothing has changed and the engine has not been asked; an error
  after that is a fault and has poisoned the machine.
-/

namespace FrameMachine

/-! ## The order of rejections -/

namespace Rejection

/-- Place of a rejection among the kinds of rejections. -/
def stage : Rejection → Nat
  | .poisoned => 0
  | .unknownFunction _ => 1
  | .descriptor _ ⟨.input, _, _, _⟩ => 2
  | .descriptor _ ⟨.output, _, _, _⟩ => 3
  | .inputCount .. => 4
  | .inputLength .. => 5
  | .exhausted (.callStack _) => 6
  | .exhausted (.memory ..) => 7

/-- Place of a rejection among those of its kind: the index of the slot or the input. -/
def index : Rejection → Nat
  | .descriptor _ misfit => misfit.index
  | .inputLength _ index _ _ => index
  | _ => 0

/-- Of two rejections the one that counts. -/
def Precedes (reason other : Rejection) : Prop :=
  reason.stage < other.stage ∨ reason.stage = other.stage ∧ reason.index ≤ other.index

theorem Precedes.of_stage_le {reason other : Rejection} (hstage : reason.stage ≤ other.stage)
    (hindex : other.stage = reason.stage → reason.index ≤ other.index) :
    reason.Precedes other := by
  rcases Nat.lt_or_eq_of_le hstage with hlt | heq
  · exact Or.inl hlt
  · exact Or.inr ⟨heq, hindex heq.symm⟩

theorem stage_le (reason : Rejection) : reason.stage ≤ 7 := by
  unfold stage
  split <;> omega

end Rejection

namespace Machine

section Objections

variable {program : Program} {m : Machine} {function : UInt16} {inputs : List Bytes}
  {reason other : Rejection} {routine : Routine}

/-! ## Objections -/

/-- What there may be to object to an invocation. -/
inductive Objection (program : Program) (m : Machine) (function : UInt16)
    (inputs : List Bytes) : Rejection → Prop
  | poisoned (hpoisoned : m.poisoned = true) : Objection program m function inputs .poisoned
  | unknownFunction (hroutine : program.routine? function = none) :
      Objection program m function inputs (.unknownFunction function)
  | inputSlot {routine : Routine} {k : Nat} {s : Slot}
      (hroutine : program.routine? function = some routine)
      (hslot : routine.descriptor.inputs[k]? = some s)
      (hout : routine.descriptor.size.toNat < s.offset.toNat + s.size.toNat) :
      Objection program m function inputs
        (.descriptor function ⟨.input, k, s, routine.descriptor.size⟩)
  | outputSlot {routine : Routine} {k : Nat} {s : Slot}
      (hroutine : program.routine? function = some routine)
      (hslot : routine.descriptor.outputs[k]? = some s)
      (hout : routine.descriptor.size.toNat < s.offset.toNat + s.size.toNat) :
      Objection program m function inputs
        (.descriptor function ⟨.output, k, s, routine.descriptor.size⟩)
  | inputCount {routine : Routine} (hroutine : program.routine? function = some routine)
      (hcount : inputs.length ≠ routine.descriptor.inputs.length) :
      Objection program m function inputs
        (.inputCount function routine.descriptor.inputs.length inputs.length)
  | inputLength {routine : Routine} {k : Nat} {s : Slot} {input : Bytes}
      (hroutine : program.routine? function = some routine)
      (hslot : routine.descriptor.inputs[k]? = some s) (hinput : inputs[k]? = some input)
      (hlength : input.length ≠ s.size.toNat) :
      Objection program m function inputs
        (.inputLength function k s.size.toNat input.length)
  | callStack (hfull : m.stack.capacity ≤ m.stack.activeIndex + 1) :
      Objection program m function inputs (.exhausted (.callStack m.stack.capacity))
  | memory {routine : Routine} (hroutine : program.routine? function = some routine)
      (hlarge : m.arena.available < routine.descriptor.size.toNat) :
      Objection program m function inputs
        (.exhausted (.memory routine.descriptor.size.toNat m.arena.available))

/-- The objection that counts. -/
structure FirstObjection (program : Program) (m : Machine) (function : UInt16)
    (inputs : List Bytes) (reason : Rejection) : Prop where
  objection : Objection program m function inputs reason
  precedes : ∀ other, Objection program m function inputs other → reason.Precedes other

/-- There is one objection at most of each kind and index. -/
theorem Objection.unique (h : Objection program m function inputs reason)
    (h' : Objection program m function inputs other) (hstage : reason.stage = other.stage)
    (hindex : reason.index = other.index) : reason = other := by
  cases h with
  | poisoned | unknownFunction | callStack =>
      cases h' <;> first | rfl | simp [Rejection.stage] at hstage
  | inputSlot hroutine hslot _ | outputSlot hroutine hslot _ =>
      cases h' with
      | inputSlot hroutine' hslot' _ | outputSlot hroutine' hslot' _ =>
          cases hroutine.symm.trans hroutine'
          simp_all [Rejection.stage, Rejection.index]
      | _ => simp [Rejection.stage] at hstage
  | inputCount hroutine _ | memory hroutine _ =>
      cases h' with
      | inputCount hroutine' _ | memory hroutine' _ =>
          cases hroutine.symm.trans hroutine'
          simp_all [Rejection.stage]
      | _ => simp [Rejection.stage] at hstage
  | inputLength hroutine hslot hinput _ =>
      cases h' with
      | inputLength hroutine' hslot' hinput' _ =>
          cases hroutine.symm.trans hroutine'
          simp_all [Rejection.index]
      | _ => simp [Rejection.stage] at hstage

/-- There is one first objection at most. -/
theorem FirstObjection.unique (h : FirstObjection program m function inputs reason)
    (h' : FirstObjection program m function inputs other) : reason = other := by
  have hle := h.precedes other h'.objection
  have hge := h'.precedes reason h.objection
  simp only [Rejection.Precedes] at hle hge
  exact h.objection.unique h'.objection (by omega) (by omega)

/-! ## What passed checks rule out -/

theorem Objection.stage_ne_of_unpoisoned (h : Objection program m function inputs reason)
    (hpoisoned : m.poisoned = false) : reason.stage ≠ 0 := by
  cases h with
  | poisoned hpoisoned' => simp [hpoisoned] at hpoisoned'
  | _ => simp [Rejection.stage]

theorem Objection.stage_ne_of_known (h : Objection program m function inputs reason)
    (hroutine : program.routine? function = some routine) : reason.stage ≠ 1 := by
  cases h with
  | unknownFunction hunknown => simp [hroutine] at hunknown
  | _ => simp [Rejection.stage]

theorem Objection.stage_ne_of_inputs_fit (h : Objection program m function inputs reason)
    (hroutine : program.routine? function = some routine)
    (hfit : firstMisfit? .input routine.descriptor.size 0 routine.descriptor.inputs = none) :
    reason.stage ≠ 2 := by
  cases h with
  | inputSlot hroutine' hslot hout =>
      cases hroutine.symm.trans hroutine'
      have hle := fits_of_firstMisfit?_eq_none hfit _ (List.mem_of_getElem? hslot)
      omega
  | _ => simp [Rejection.stage]

theorem Objection.stage_ne_of_outputs_fit (h : Objection program m function inputs reason)
    (hroutine : program.routine? function = some routine)
    (hfit : firstMisfit? .output routine.descriptor.size 0 routine.descriptor.outputs = none) :
    reason.stage ≠ 3 := by
  cases h with
  | outputSlot hroutine' hslot hout =>
      cases hroutine.symm.trans hroutine'
      have hle := fits_of_firstMisfit?_eq_none hfit _ (List.mem_of_getElem? hslot)
      omega
  | _ => simp [Rejection.stage]

theorem Objection.stage_ne_of_count (h : Objection program m function inputs reason)
    (hroutine : program.routine? function = some routine)
    (hcount : inputs.length = routine.descriptor.inputs.length) : reason.stage ≠ 4 := by
  cases h with
  | inputCount hroutine' hcount' =>
      cases hroutine.symm.trans hroutine'
      exact absurd hcount hcount'
  | _ => simp [Rejection.stage]

theorem Objection.stage_ne_of_lengthsMatch (h : Objection program m function inputs reason)
    (hroutine : program.routine? function = some routine)
    (hlengths : LengthsMatch routine.descriptor.inputs inputs) : reason.stage ≠ 5 := by
  cases h with
  | @inputLength _ k s input hroutine' hslot hinput hlength =>
      cases hroutine.symm.trans hroutine'
      have hk := congrArg (fun lengths => lengths[k]?) hlengths
      simp only [List.getElem?_map, hslot, hinput, Option.map_some, Option.some.injEq] at hk
      exact absurd hk hlength
  | _ => simp [Rejection.stage]

theorem Objection.stage_ne_of_hasRoom (h : Objection program m function inputs reason)
    (hroom : m.stack.hasRoom = true) : reason.stage ≠ 6 := by
  cases h with
  | callStack hfull =>
      simp only [CallStack.hasRoom, decide_eq_true_eq] at hroom
      omega
  | _ => simp [Rejection.stage]

theorem Objection.stage_ne_of_available (h : Objection program m function inputs reason)
    (hroutine : program.routine? function = some routine)
    (hsize : routine.descriptor.size.toNat ≤ m.arena.available) : reason.stage ≠ 7 := by
  cases h with
  | memory hroutine' hlarge =>
      cases hroutine.symm.trans hroutine'
      omega
  | _ => simp [Rejection.stage]

end Objections
end Machine

/-! ## The first objection -/

/-- The first misfit is that of the first slot outside the frame. -/
theorem firstMisfit?_eq_some {kind : SlotKind} {frameSize : UInt32} {start : Nat}
    {slots : List Slot} {misfit : SlotMisfit}
    (h : firstMisfit? kind frameSize start slots = some misfit) :
    ∃ k s, slots[k]? = some s ∧ frameSize.toNat < s.offset.toNat + s.size.toNat ∧
      misfit = ⟨kind, start + k, s, frameSize⟩ ∧
      ∀ (j : Nat) (t : Slot), slots[j]? = some t →
        frameSize.toNat < t.offset.toNat + t.size.toNat → k ≤ j := by
  induction slots generalizing start with
  | nil => simp [firstMisfit?] at h
  | cons s slots ih =>
      unfold firstMisfit? at h
      split at h
      · rename_i hfit
        rcases ih h with ⟨k, s', hslot, hout, rfl, hfirst⟩
        refine ⟨k + 1, s', hslot, hout, by rw [Nat.add_right_comm, Nat.add_assoc], ?_⟩
        intro j t ht hj
        cases j with
        | zero =>
            cases ht
            exact absurd (Slot.fits_iff.mp hfit) (Nat.not_le.mpr hj)
        | succ j => exact Nat.succ_le_succ (hfirst j t ht hj)
      · rename_i hfit
        cases h
        rw [Slot.fits_iff, Nat.not_le] at hfit
        exact ⟨0, s, rfl, hfit, rfl, fun _ _ _ _ => Nat.zero_le _⟩

/-- The first mismatch is that of the first input without the length of its slot. -/
theorem firstLengthMismatch?_eq_some {function : UInt16} {start : Nat} {slots : List Slot}
    {inputs : List Bytes} {reason : Rejection}
    (h : firstLengthMismatch? function start slots inputs = some reason) :
    ∃ k s input, slots[k]? = some s ∧ inputs[k]? = some input ∧ input.length ≠ s.size.toNat ∧
      reason = .inputLength function (start + k) s.size.toNat input.length ∧
      ∀ (j : Nat) (t : Slot) (other : Bytes), slots[j]? = some t → inputs[j]? = some other →
        other.length ≠ t.size.toNat → k ≤ j := by
  induction slots generalizing start inputs with
  | nil => simp [firstLengthMismatch?] at h
  | cons s slots ih =>
      cases inputs with
      | nil => simp [firstLengthMismatch?] at h
      | cons input inputs =>
          unfold firstLengthMismatch? at h
          split at h
          · rename_i hlength
            rcases ih h with ⟨k, s', input', hslot, hinput, hmismatch, rfl, hfirst⟩
            refine ⟨k + 1, s', input', hslot, hinput, hmismatch,
              by rw [Nat.add_right_comm, Nat.add_assoc], ?_⟩
            intro j t other ht ho hj
            cases j with
            | zero =>
                cases ht
                cases ho
                exact absurd hlength hj
            | succ j => exact Nat.succ_le_succ (hfirst j t other ht ho hj)
          · rename_i hlength
            cases h
            exact ⟨0, s, input, rfl, rfl, hlength, rfl, fun _ _ _ _ _ _ => Nat.zero_le _⟩

namespace Machine

section Refusals

variable {program : Program} {m : Machine} {function : UInt16} {inputs : List Bytes}
  {reason : Rejection} {routine : Routine}

/-- Only the slots, the inputs and the room are left to object to. -/
theorem Objection.two_le_stage (h : Objection program m function inputs reason)
    (hpoisoned : m.poisoned = false) (hroutine : program.routine? function = some routine) :
    2 ≤ reason.stage := by
  have h0 := h.stage_ne_of_unpoisoned hpoisoned
  have h1 := h.stage_ne_of_known hroutine
  omega

/-- Only the inputs and the room are left to object to. -/
theorem Objection.four_le_stage (h : Objection program m function inputs reason)
    (hpoisoned : m.poisoned = false) (hroutine : program.routine? function = some routine)
    (hvalid : routine.descriptor.misfit? = none) : 4 ≤ reason.stage := by
  have hfits := Descriptor.misfit?_eq_none_iff.mp hvalid
  have hle := h.two_le_stage hpoisoned hroutine
  have h2 := h.stage_ne_of_inputs_fit hroutine hfits.1
  have h3 := h.stage_ne_of_outputs_fit hroutine hfits.2
  omega

/-- Only the room is left to object to. -/
theorem Objection.six_le_stage (h : Objection program m function inputs reason)
    (hpoisoned : m.poisoned = false) (hroutine : program.routine? function = some routine)
    (hvalid : routine.descriptor.misfit? = none)
    (hlengths : LengthsMatch routine.descriptor.inputs inputs) : 6 ≤ reason.stage := by
  have hle := h.four_le_stage hpoisoned hroutine hvalid
  have h4 := h.stage_ne_of_count hroutine hlengths.length_eq
  have h5 := h.stage_ne_of_lengthsMatch hroutine hlengths
  omega

/-- The first misfit comes before all other objections to a known function. -/
theorem firstObjection_of_misfit {misfit : SlotMisfit} (hpoisoned : m.poisoned = false)
    (hroutine : program.routine? function = some routine)
    (h : routine.descriptor.misfit? = some misfit) :
    FirstObjection program m function inputs (.descriptor function misfit) := by
  unfold Descriptor.misfit? at h
  cases hinputs : firstMisfit? .input routine.descriptor.size 0 routine.descriptor.inputs with
  | some found =>
      rw [hinputs] at h
      cases h
      rcases firstMisfit?_eq_some hinputs with ⟨k, s, hslot, hout, rfl, hfirst⟩
      rw [Nat.zero_add]
      refine ⟨.inputSlot hroutine hslot hout, ?_⟩
      intro other hother
      refine .of_stage_le (hother.two_le_stage hpoisoned hroutine) ?_
      intro hstage
      cases hother with
      | inputSlot hroutine' hslot' hout' =>
          cases hroutine.symm.trans hroutine'
          exact hfirst _ _ hslot' hout'
      | _ => simp [Rejection.stage] at hstage
  | none =>
      rw [hinputs] at h
      have houtputs : firstMisfit? .output routine.descriptor.size 0
          routine.descriptor.outputs = some misfit := h
      rcases firstMisfit?_eq_some houtputs with ⟨k, s, hslot, hout, rfl, hfirst⟩
      rw [Nat.zero_add]
      refine ⟨.outputSlot hroutine hslot hout, ?_⟩
      intro other hother
      have hle := hother.two_le_stage hpoisoned hroutine
      have h2 := hother.stage_ne_of_inputs_fit hroutine hinputs
      refine .of_stage_le (show 3 ≤ other.stage by omega) ?_
      intro hstage
      cases hother with
      | outputSlot hroutine' hslot' hout' =>
          cases hroutine.symm.trans hroutine'
          exact hfirst _ _ hslot' hout'
      | _ => simp [Rejection.stage] at hstage

/-- A request that is not in order is refused for the first objection. -/
theorem firstObjection_of_checkInputs (hpoisoned : m.poisoned = false)
    (hroutine : program.routine? function = some routine)
    (h : checkInputs function routine.descriptor inputs = .error reason) :
    FirstObjection program m function inputs reason := by
  unfold checkInputs at h
  cases hmisfit : routine.descriptor.misfit? with
  | some misfit =>
      rw [hmisfit] at h
      cases h
      exact firstObjection_of_misfit hpoisoned hroutine hmisfit
  | none =>
      rw [hmisfit] at h
      by_cases hcount : inputs.length = routine.descriptor.inputs.length
      · cases hmismatch : firstLengthMismatch? function 0 routine.descriptor.inputs inputs with
        | none => simp [hcount, hmismatch] at h
        | some mismatch =>
            simp only [hcount, hmismatch, if_true] at h
            cases h
            rcases firstLengthMismatch?_eq_some hmismatch with
              ⟨k, s, input, hslot, hinput, hlength, rfl, hfirst⟩
            rw [Nat.zero_add]
            refine ⟨.inputLength hroutine hslot hinput hlength, ?_⟩
            intro other hother
            have hle := hother.four_le_stage hpoisoned hroutine hmisfit
            have h4 := hother.stage_ne_of_count hroutine hcount
            refine .of_stage_le (show 5 ≤ other.stage by omega) ?_
            intro hstage
            cases hother with
            | inputLength hroutine' hslot' hinput' hlength' =>
                cases hroutine.symm.trans hroutine'
                exact hfirst _ _ _ hslot' hinput' hlength'
            | _ => simp [Rejection.stage] at hstage
      · simp only [hcount, if_false] at h
        cases h
        refine ⟨.inputCount hroutine hcount, ?_⟩
        intro other hother
        exact .of_stage_le (hother.four_le_stage hpoisoned hroutine hmisfit)
          fun _ => Nat.zero_le _

/-- A request that is in order is refused for want of room, if at all. -/
theorem firstObjection_of_shortage {need : Exhaustion} (hpoisoned : m.poisoned = false)
    (hroutine : program.routine? function = some routine)
    (hvalid : routine.descriptor.misfit? = none)
    (hlengths : LengthsMatch routine.descriptor.inputs inputs)
    (h : m.shortage routine.descriptor.size.toNat = some need) :
    FirstObjection program m function inputs (.exhausted need) := by
  unfold shortage at h
  split at h
  · rename_i hroom
    split at h
    · contradiction
    · rename_i hlarge
      cases h
      refine ⟨.memory hroutine (Nat.lt_of_not_le hlarge), ?_⟩
      intro other hother
      have hle := hother.six_le_stage hpoisoned hroutine hvalid hlengths
      have h6 := hother.stage_ne_of_hasRoom hroom
      exact .of_stage_le (show 7 ≤ other.stage by omega) fun _ => Nat.zero_le _
  · rename_i hroom
    cases h
    simp only [CallStack.hasRoom, decide_eq_true_eq, Nat.not_lt] at hroom
    refine ⟨.callStack hroom, ?_⟩
    intro other hother
    exact .of_stage_le (hother.six_le_stage hpoisoned hroutine hvalid hlengths)
      fun _ => Nat.zero_le _

/-- There is nothing to object to a request that is in order and finds room. -/
theorem not_objection_of_shortage_eq_none (hpoisoned : m.poisoned = false)
    (hroutine : program.routine? function = some routine)
    (hvalid : routine.descriptor.misfit? = none)
    (hlengths : LengthsMatch routine.descriptor.inputs inputs)
    (h : m.shortage routine.descriptor.size.toNat = none) :
    ¬ Objection program m function inputs reason := by
  intro hobjection
  have hle := hobjection.six_le_stage hpoisoned hroutine hvalid hlengths
  have hmost := reason.stage_le
  have h6 := hobjection.stage_ne_of_hasRoom
    (by simpa [CallStack.hasRoom] using hasRoom_of_shortage_eq_none h)
  have h7 := hobjection.stage_ne_of_available hroutine (available_of_shortage_eq_none h)
  omega

/-- An invocation that is not accepted is refused for the first objection. -/
theorem firstObjection_of_accept (h : accept program m function inputs = .error reason) :
    FirstObjection program m function inputs reason := by
  unfold accept at h
  split at h
  · rename_i hpoisoned
    cases h
    exact ⟨.poisoned hpoisoned, fun _ _ => .of_stage_le (Nat.zero_le _) fun _ => Nat.zero_le _⟩
  · rename_i hpoisoned
    rw [Bool.not_eq_true] at hpoisoned
    split at h
    · rename_i hroutine
      cases h
      refine ⟨.unknownFunction hroutine, ?_⟩
      intro other hother
      have h0 := hother.stage_ne_of_unpoisoned hpoisoned
      exact .of_stage_le (Nat.one_le_iff_ne_zero.mpr h0) fun _ => Nat.zero_le _
    · rename_i routine hroutine
      split at h
      · rename_i e hcheck
        cases h
        exact firstObjection_of_checkInputs hpoisoned hroutine hcheck
      · contradiction

/-- The rejection that the checks find. -/
def refusal? (program : Program) (m : Machine) (function : UInt16) (inputs : List Bytes) :
    Option Rejection :=
  match accept program m function inputs with
  | .error reason => some reason
  | .ok d => (m.shortage d.size.toNat).map .exhausted

/-- The checks find the first objection, if there is any. -/
theorem refusal?_spec (program : Program) (m : Machine) (function : UInt16)
    (inputs : List Bytes) :
    match refusal? program m function inputs with
    | some reason => FirstObjection program m function inputs reason
    | none => ∀ reason, ¬ Objection program m function inputs reason := by
  unfold refusal?
  cases haccept : accept program m function inputs with
  | error reason => exact firstObjection_of_accept haccept
  | ok d =>
      rcases accept_eq_ok_iff.mp haccept with ⟨hpoisoned, routine, hroutine, rfl, hvalid, hlengths⟩
      cases hroom : m.shortage routine.descriptor.size.toNat with
      | some need =>
          simp only [hroom, Option.map_some]
          exact firstObjection_of_shortage hpoisoned hroutine hvalid hlengths hroom
      | none =>
          simp only [hroom, Option.map_none]
          intro reason
          exact not_objection_of_shortage_eq_none hpoisoned hroutine hvalid hlengths hroom

theorem refusal?_eq_some_iff :
    refusal? program m function inputs = some reason ↔
      FirstObjection program m function inputs reason := by
  have hspec := refusal?_spec program m function inputs
  constructor
  · intro h
    rw [h] at hspec
    exact hspec
  · intro h
    cases hr : refusal? program m function inputs with
    | some other =>
        rw [hr] at hspec
        rw [h.unique hspec]
    | none =>
        rw [hr] at hspec
        exact absurd h.objection (hspec reason)

/-- A request is refused for the rejection that the checks find. -/
theorem enter_of_refusal?_eq_some (h : refusal? program m function inputs = some reason) :
    enter program function inputs m = .error (.rejected reason) m := by
  unfold refusal? at h
  rw [enter_eq]
  cases haccept : accept program m function inputs with
  | error e =>
      rw [haccept] at h
      cases h
      rfl
  | ok d =>
      rw [haccept] at h
      rcases Option.map_eq_some_iff.mp h with ⟨need, hneed, rfl⟩
      simp only [hneed]

/-- A request for which the checks find nothing is not refused. -/
theorem enter_of_refusal?_eq_none (h : refusal? program m function inputs = none) {e : InvokeError}
    {m' : Machine} (henter : enter program function inputs m = .error e m') :
    ∃ cause, e = .fault cause := by
  unfold refusal? at h
  rw [enter_eq] at henter
  cases haccept : accept program m function inputs with
  | error reason =>
      rw [haccept] at h
      contradiction
  | ok d =>
      rw [haccept] at h henter
      simp only [Option.map_eq_none_iff] at h
      simp only [h] at henter
      generalize writeInputs _ _ _ = result at henter
      cases result with
      | ok _ n => contradiction
      | error cause n =>
          cases henter
          exact ⟨cause, rfl⟩

/-- What is known of a request to which there is nothing to object. -/
theorem exists_of_not_objection (h : ∀ reason, ¬ Objection program m function inputs reason) :
    ∃ routine, m.poisoned = false ∧ program.routine? function = some routine ∧
      routine.descriptor.misfit? = none ∧ LengthsMatch routine.descriptor.inputs inputs ∧
      accept program m function inputs = .ok routine.descriptor ∧
      m.shortage routine.descriptor.size.toNat = none := by
  have hspec := refusal?_spec program m function inputs
  cases hr : refusal? program m function inputs with
  | some reason =>
      rw [hr] at hspec
      exact absurd hspec.objection (h reason)
  | none =>
      unfold refusal? at hr
      cases haccept : accept program m function inputs with
      | error reason => simp [haccept] at hr
      | ok d =>
          rw [haccept] at hr
          rcases accept_eq_ok_iff.mp haccept with
            ⟨hpoisoned, routine, hroutine, rfl, hvalid, hlengths⟩
          exact ⟨routine, hpoisoned, hroutine, hvalid, hlengths, rfl,
            Option.map_eq_none_iff.mp hr⟩

end Refusals
end Machine

/-! ## Keeping a record of the engine -/

/-- An engine is asked to run a frame of a machine until another one is active. -/
structure Summons where
  machine : Machine
  start : Nat
  returnTo : Nat

/-- An engine that also records when it is asked to run. -/
def Engine.recorded {σ : Type} (run : Engine σ) : Engine (σ × List Summons) :=
  fun (engine, seen) m start returnTo =>
    (run engine m start returnTo).map fun back =>
      ⟨back.verdict, (back.engine, seen ++ [⟨m, start, returnTo⟩]), back.machine⟩

/-- A reply without the record. -/
def Reply.unrecorded {σ : Type} (reply : Reply (σ × List Summons)) : Reply σ :=
  ⟨reply.outcome, reply.engine.1, reply.machine⟩

namespace Machine

section Invocations

variable {σ : Type} {program : Program} {m : Machine} {function : UInt16}
  {inputs : List Bytes} (run : Engine σ) (engine : σ) (seen : List Summons)

/-- An accepted invocation asks its engine once. -/
theorem invoke_recorded_of_enter {call : Invocation} {m' : Machine}
    (h : enter program function inputs m = .ok call m') :
    m.invoke program run.recorded function inputs (engine, seen) =
      (run engine m' call.start call.previous).map fun back =>
        let reply := conclude call back
        ⟨reply.outcome, (reply.engine, seen ++ [⟨m', call.start, call.previous⟩]),
          reply.machine⟩ := by
  simp only [invoke, h, Engine.recorded]
  cases run engine m' call.start call.previous with
  | none => rfl
  | some back =>
      simp only [Option.map_some, conclude_engine_eq, conclude_engine]

/-- Keeping a record changes nothing else. -/
theorem invoke_recorded (program : Program) (m : Machine) (function : UInt16)
    (inputs : List Bytes) :
    (m.invoke program run.recorded function inputs (engine, seen)).map Reply.unrecorded =
      m.invoke program run function inputs engine := by
  cases h : enter program function inputs m with
  | error e m' =>
      simp only [invoke, h]
      rfl
  | ok call m' =>
      rw [invoke_recorded_of_enter run engine seen h]
      simp only [invoke, h]
      cases run engine m' call.start call.previous <;> rfl

/-- An invocation that ends in an error after its engine has come back has found a fault
and poisoned the machine. -/
theorem conclude_eq_error {call : Invocation} {back : Comeback σ} {e : InvokeError}
    (h : (conclude call back).outcome = .error e) :
    (∃ cause, e = .fault cause) ∧ (conclude call back).machine.poisoned = true := by
  rcases back with ⟨verdict, engine, n⟩
  cases verdict with
  | error cause =>
      cases h
      exact ⟨⟨cause, rfl⟩, rfl⟩
  | ok _ =>
      simp only [conclude, leave, guarded] at h ⊢
      cases hc : collect call n with
      | ok outputs n' => simp [hc] at h
      | error cause n' =>
          simp only [hc] at h
          cases h
          exact ⟨⟨cause, rfl⟩, rfl⟩

/-- A refusal leaves the machine and the engine as they were, and comes of the checks. -/
theorem invoke_eq_rejected {reply : Reply σ} {reason : Rejection}
    (h : m.invoke program run function inputs engine = some reply)
    (hrejected : reply.outcome = .error (.rejected reason)) :
    refusal? program m function inputs = some reason ∧ reply.machine = m ∧
      reply.engine = engine := by
  cases hr : refusal? program m function inputs with
  | some found =>
      simp only [invoke, enter_of_refusal?_eq_some hr] at h
      cases h
      cases hrejected
      exact ⟨rfl, rfl, rfl⟩
  | none =>
      have hfault : ∃ cause, InvokeError.rejected reason = .fault cause := by
        rcases invoke_cases h with ⟨e, m', he, rfl⟩ | ⟨call, m', back, -, -, rfl⟩
        · cases hrejected
          exact enter_of_refusal?_eq_none hr he
        · exact (conclude_eq_error hrejected).1
      rcases hfault with ⟨cause, hcause⟩
      contradiction

/-- An invocation is refused exactly if there is an objection to it, and then for the
first one.  A refusal leaves the machine as it was, and the engine has not been asked to
run.  Once the engine has been asked, an error is a fault, and the machine is poisoned. -/
theorem invoke_refusals (program : Program) (run : Engine σ) (m : Machine) (function : UInt16)
    (inputs : List Bytes) (engine : σ) :
    (∀ reason, (∃ reply, m.invoke program run function inputs engine = some reply ∧
        reply.outcome = .error (.rejected reason)) ↔
      FirstObjection program m function inputs reason) ∧
    ((∃ reason, Objection program m function inputs reason) →
      ∃ reason, FirstObjection program m function inputs reason) ∧
    ∀ seen, (m.invoke program run.recorded function inputs (engine, seen)).map
        Reply.unrecorded = m.invoke program run function inputs engine ∧
      ∀ reply, m.invoke program run.recorded function inputs (engine, seen) = some reply →
        (∀ reason, reply.outcome = .error (.rejected reason) →
          reply.machine = m ∧ reply.engine = (engine, seen)) ∧
        (∀ e, reply.engine.2 ≠ seen → reply.outcome = .error e →
          (∃ cause, e = .fault cause) ∧ reply.machine.poisoned = true) := by
  refine ⟨?_, ?_, ?_⟩
  · intro reason
    rw [← refusal?_eq_some_iff]
    constructor
    · rintro ⟨reply, hreply, hrejected⟩
      exact (invoke_eq_rejected run engine hreply hrejected).1
    · intro hr
      refine ⟨⟨.error (.rejected reason), engine, m⟩, ?_, rfl⟩
      simp only [invoke, enter_of_refusal?_eq_some hr]
  · rintro ⟨reason, hreason⟩
    have hspec := refusal?_spec program m function inputs
    cases hr : refusal? program m function inputs with
    | some first =>
        rw [hr] at hspec
        exact ⟨first, hspec⟩
    | none =>
        rw [hr] at hspec
        exact absurd hreason (hspec reason)
  · intro seen
    refine ⟨invoke_recorded run engine seen program m function inputs, ?_⟩
    intro reply hreply
    refine ⟨?_, ?_⟩
    · intro reason hrejected
      exact (invoke_eq_rejected run.recorded (engine, seen) hreply hrejected).2
    · intro e hasked herror
      rcases invoke_cases hreply with ⟨_, _, -, rfl⟩ | ⟨call, m', back, -, -, rfl⟩
      · exact absurd rfl hasked
      · exact conclude_eq_error herror

/-- Three things are wrong with this request; the number of inputs counts. -/
theorem invoke_refusals_relay :
    ∃ reply, (ofConfig ⟨2, 1, .retain⟩).invoke relay (Interpreter.run relay) 0 [] {} =
        some reply ∧
      reply.outcome = .error (.rejected (.inputCount 0 1 0)) ∧
      FirstObjection relay (ofConfig ⟨2, 1, .retain⟩) 0 [] (.inputCount 0 1 0) ∧
      Objection relay (ofConfig ⟨2, 1, .retain⟩) 0 [] (.exhausted (.callStack 1)) ∧
      Objection relay (ofConfig ⟨2, 1, .retain⟩) 0 [] (.exhausted (.memory 4 2)) := by
  have houtcome : ((ofConfig ⟨2, 1, .retain⟩).invoke relay (Interpreter.run relay) 0 []
      {}).map Reply.outcome = some (.error (.rejected (.inputCount 0 1 0))) := by
    decide +kernel
  rcases Option.map_eq_some_iff.mp houtcome with ⟨reply, hreply, hrejected⟩
  refine ⟨reply, hreply, hrejected, ?_, .callStack (by decide),
    @Objection.memory _ _ _ _ relay.routines[0] rfl (by decide)⟩
  exact ((invoke_refusals relay (Interpreter.run relay) (ofConfig ⟨2, 1, .retain⟩) 0 [] {}).1
    _).mp ⟨reply, hreply, hrejected⟩

end Invocations
end Machine
end FrameMachine
