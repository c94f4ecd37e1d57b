import FrameMachine.Proofs.Transfers

/-!
# Coherent executions

The frames of an execution tell how it got where it is: every caller rests on
the call of the frame above it, and the suspensions are those of the callers
that rest on a CALLBACK.  An execution with this property is *coherent*.  This
file says what one instruction does in a coherent execution, one equation for
each way in which it can go.

Main results:

- Theorem `step_eq`: a step executes the instruction of the innermost frame.
- Theorems `execute_call_brings`, `execute_callback_eq`, `execute_ret_of_eq`,
  `execute_ret_call` and `settle_ret_callback`: what calls and returns do.
- Theorems `Coherent.entering_call`, `Coherent.entering_callback` and
  `Coherent.returning`: what keeps an execution coherent.
- Theorem `Machine.invoke_eq`: an invocation is a run of an entered function.
-/

namespace FrameMachine

section Callers

variable {program : Program}

/-! ## Callers -/

/-- The bottom frame runs `function` with its window at `floor`, and every other
frame has been called by the frame below it. -/
inductive Called (function : UInt16) (floor : Nat) : List (Activation program) → Prop
  | root {a : Activation program} (hfunction : a.function = function) (hbase : a.base = floor) :
      Called function floor [a]
  | call {b a : Activation program} {below : List (Activation program)} {i : Instruction}
      (hinstruction : a.instruction? = some i) (hopcode : i.opcode = .call)
      (hcallee : i.a = b.function) (h : Called function floor (a :: below)) :
      Called function floor (b :: a :: below)
  | callback {b a : Activation program} {below : List (Activation program)} {i : Instruction}
      (hinstruction : a.instruction? = some i) (hopcode : i.opcode = .callback)
      (hcallee : i.a = b.function) (hvalid : b.routine.descriptor.misfit? = none)
      (h : Called function floor (a :: below)) :
      Called function floor (b :: a :: below)

/-- The suspensions of the callers that rest on a CALLBACK. -/
def suspensions (depth : Nat) : List (Activation program) → List Interpreter.Suspension
  | b :: a :: below =>
      match a.instruction? with
      | some i =>
          if i.opcode = .callback then
            ⟨a.site, i.c, b.invocation (depth + below.length + 1) a.position⟩ ::
              suspensions depth (a :: below)
          else suspensions depth (a :: below)
      | none => suspensions depth (a :: below)
  | _ => []

variable {function : UInt16} {depth floor position : Nat} {a b : Activation program}
  {below : List (Activation program)} {i : Instruction}

/-- The innermost frame may be anywhere in its code. -/
theorem Called.goto (h : Called function floor (a :: below)) (position : Nat) :
    Called function floor (a.goto position :: below) := by
  cases h with
  | root hfunction hbase => exact .root hfunction hbase
  | call hinstruction hopcode hcallee h => exact .call hinstruction hopcode hcallee h
  | callback hinstruction hopcode hcallee hvalid h =>
      exact .callback hinstruction hopcode hcallee hvalid h

/-- Every caller rests on an instruction. -/
theorem Called.exists_instruction (h : Called function floor (b :: a :: below)) :
    ∃ i, a.instruction? = some i := by
  cases h with
  | call hinstruction _ _ _ => exact ⟨_, hinstruction⟩
  | callback hinstruction _ _ _ _ => exact ⟨_, hinstruction⟩

/-- The bottom frame runs the routine of its function. -/
theorem Called.routine_eq (h : Called function floor [a]) {routine : Routine}
    (hroutine : program.routine? function = some routine) : a.routine = routine := by
  cases h with
  | root hfunction _ =>
      subst hfunction
      exact Option.some.inj (a.routine_eq.symm.trans hroutine)

/-- The outputs of the bottom frame fit if the layout of its function is valid. -/
theorem Called.outputs_fit (h : Called function floor [a]) {routine : Routine}
    (hroutine : program.routine? function = some routine)
    (hvalid : routine.descriptor.misfit? = none) :
    a.window.misfit? a.routine.descriptor.outputs = none := by
  have hsame := h.routine_eq hroutine
  subst hsame
  exact Descriptor.outputs_fit hvalid a.base

theorem suspensions_goto : suspensions depth (a.goto position :: below) =
    suspensions depth (a :: below) := by
  cases below <;> rfl

theorem suspensions_call (hinstruction : a.instruction? = some i) (hopcode : i.opcode = .call) :
    suspensions depth (b :: a :: below) = suspensions depth (a :: below) := by
  simp [suspensions, hinstruction, hopcode]

theorem suspensions_callback (hinstruction : a.instruction? = some i)
    (hopcode : i.opcode = .callback) :
    suspensions depth (b :: a :: below) =
      ⟨a.site, i.c, b.invocation (depth + below.length + 1) a.position⟩ ::
        suspensions depth (a :: below) := by
  simp [suspensions, hinstruction, hopcode]

/-- The innermost run never has to end above the caller of the innermost frame. -/
theorem innermostReturn_le :
    Interpreter.innermostReturn depth (suspensions depth (a :: below)) ≤
      depth + below.length := by
  induction below generalizing a with
  | nil => exact Nat.le_refl _
  | cons c below ih =>
      have hbelow := ih (a := c)
      rw [List.length_cons]
      unfold suspensions
      split
      · split
        · simp only [Interpreter.innermostReturn, Activation.previous_invocation]
          omega
        · omega
      · omega

end Callers

namespace Interpreter

open Machine

/-! ## Coherence -/

/-- An unpoisoned machine is laid out along live frames each of which has been
called by the one below it, and the suspensions are theirs. -/
structure Coherent {program : Program} (function : UInt16) (depth floor : Nat)
    (live : List (Activation program)) (m : Machine) (suspended : List Suspension) : Prop where
  layout : m.Layout depth floor live
  unpoisoned : m.poisoned = false
  called : Called function floor live
  suspended_eq : suspended = suspensions depth live

section Coherent

variable {program : Program} {function : UInt16} {depth floor : Nat}
  {a b : Activation program} {below : List (Activation program)} {m : Machine}
  {suspended : List Suspension} {i : Instruction}

theorem Coherent.note {live : List (Activation program)}
    (h : Coherent function depth floor live m suspended) (e : Event) :
    Coherent function depth floor live (m.note e) suspended :=
  ⟨h.layout.note e, h.unpoisoned, h.called, h.suspended_eq⟩

theorem Coherent.store {live : List (Activation program)}
    (h : Coherent function depth floor live m suspended) (offset : Nat) (bytes : Bytes) :
    Coherent function depth floor live (m.modifyArena (Arena.store offset bytes)) suspended :=
  ⟨h.layout.store offset bytes, h.unpoisoned, h.called, h.suspended_eq⟩

/-- Going on at another instruction. -/
theorem Coherent.jump (h : Coherent function depth floor (a :: below) m suspended)
    (position : Nat) :
    Coherent function depth floor (a.goto position :: below)
      (m.modifyStack (CallStack.jump position)) suspended :=
  ⟨h.layout.jump position, h.unpoisoned, h.called.goto position,
    h.suspended_eq.trans suspensions_goto.symm⟩

/-- Going on at the next instruction. -/
theorem Coherent.advance (h : Coherent function depth floor (a :: below) m suspended) :
    Coherent function depth floor (a.next :: below) (Interpreter.advance m) suspended :=
  ⟨h.layout.advance, h.unpoisoned, h.called.goto _, h.suspended_eq.trans suspensions_goto.symm⟩

/-- The caller of the innermost frame stays coherent. -/
theorem Coherent.called_tail (h : Coherent function depth floor (b :: a :: below) m suspended) :
    Called function floor (a :: below) := by
  cases h.called with
  | call _ _ _ h => exact h
  | callback _ _ _ _ h => exact h

/-- A CALL enters its function. -/
theorem Coherent.entering_call (h : Coherent function depth floor (a :: below) m suspended)
    (hinstruction : a.instruction? = some i) (hopcode : i.opcode = .call) {callee : Routine}
    (hcallee : program.routine? i.a = some callee)
    (hroom : m.shortage callee.descriptor.size.toNat = none) (inputs : List Bytes) :
    Coherent function depth floor
      (Activation.entered hcallee m.arena.stackPointer :: a :: below)
      (m.entering i.a callee.descriptor inputs) suspended where
  layout := h.layout.entering hcallee hroom inputs
  unpoisoned := h.unpoisoned
  called := .call hinstruction hopcode rfl h.called
  suspended_eq := h.suspended_eq.trans (suspensions_call hinstruction hopcode).symm

/-- The suspension of a CALLBACK in the innermost frame. -/
def suspensionOf (a : Activation program) (i : Instruction) (d : Descriptor) (m : Machine) :
    Suspension :=
  ⟨a.site, i.c, i.a, d, m.nextWindow d.size, m.stack.activeIndex, a.position⟩

/-- A CALLBACK enters its function, and its run waits. -/
theorem Coherent.entering_callback (h : Coherent function depth floor (a :: below) m suspended)
    (hinstruction : a.instruction? = some i) (hopcode : i.opcode = .callback) {callee : Routine}
    (hcallee : program.routine? i.a = some callee)
    (hvalid : callee.descriptor.misfit? = none)
    (hroom : m.shortage callee.descriptor.size.toNat = none) (inputs : List Bytes) :
    Coherent function depth floor
      (Activation.entered hcallee m.arena.stackPointer :: a :: below)
      (m.entering i.a callee.descriptor inputs)
      (suspensionOf a i callee.descriptor m :: suspended) where
  layout := h.layout.entering hcallee hroom inputs
  unpoisoned := h.unpoisoned
  called := .callback hinstruction hopcode rfl hvalid h.called
  suspended_eq := by
    rw [suspensions_callback hinstruction hopcode, ← h.suspended_eq, suspensionOf,
      h.layout.active_eq]
    rfl

/-- A return goes on in the caller. -/
theorem Coherent.returning (h : Coherent function depth floor (b :: a :: below) m suspended)
    (target : Nat) (outputs : Bytes) :
    Coherent function depth floor (a.next :: below)
      (m.returning (depth + below.length + 1) b.window target outputs)
      (suspensions depth (a :: below)) where
  layout := h.layout.returning target outputs
  unpoisoned := by
    have hrelease := releaseFrame_poisoned b.window
      (m.modifyStack (CallStack.unwindTo (depth + below.length + 1)))
    exact hrelease.trans h.unpoisoned
  called := h.called_tail.goto _
  suspended_eq := suspensions_goto.symm

/-! ## One instruction -/

/-- The innermost frame is about to execute its next instruction. -/
theorem fetch_eq (h : m.Layout depth floor (a :: below)) :
    fetch program m =
      match a.instruction? with
      | none => .error (.endOfCode a.location)
      | some i => .ok (a.site, i) := by
  have hrunning := running?_eq_some_iff.mpr ⟨h.frame_eq, rfl, a.routine_eq⟩
  simp only [fetch, hrunning]
  rfl

/-- A step executes the instruction of the innermost frame. -/
theorem step_eq (h : m.Layout depth floor (a :: below)) (interpreter : Interpreter)
    (returnTo : Nat) (suspended : List Suspension) :
    step program ⟨interpreter, m, returnTo, suspended⟩ =
      match a.instruction? with
      | none => stop interpreter suspended (.endOfCode a.location) m
      | some i =>
          if interpreter.exhausted then
            stop interpreter suspended (.fuelExhausted a.location) m
          else
            settle interpreter.charge returnTo suspended
              (execute program (innermostReturn returnTo suspended) a.site i
                (m.note (.executing m.stack.activeIndex a.location i))) := by
  simp only [step, fetch_eq h]
  cases a.instruction? <;> rfl

theorem execute_of_fault {program : Program} {returnTo : Nat} {site : Site} {cause : Fault}
    (hplan : Plan.ofInstruction program m site i = .error cause) :
    execute program returnTo site i m = .error cause m := by
  simp only [execute, hplan]

theorem execute_of_plan {program : Program} {returnTo : Nat} {site : Site} {plan : Plan}
    (hplan : Plan.ofInstruction program m site i = .ok plan) :
    execute program returnTo site i m = carryOut program returnTo site i plan m := by
  simp only [execute, hplan]

section Calls

variable {callee : Routine} {returnTo : Nat}

/-- A CALL or a CALLBACK with an operand outside its frame. -/
theorem execute_of_outside {cause : Fault} (h : m.Layout depth floor (a :: below))
    (hopcode : i.opcode = .call ∨ i.opcode = .callback)
    (hcallee : program.routine? i.a = some callee)
    (hout : a.site.outside? (backToBack i.b.toNat callee.descriptor.inputs) = some cause) :
    execute program returnTo a.site i m = .error cause m := by
  have hin : a.site.window.Inside m.arena := h.inside (a := a) (by simp)
  apply execute_of_fault
  rcases hopcode with hopcode | hopcode
  · rw [Plan.ofInstruction_call hin hopcode hcallee, hout]
  · rw [Plan.ofInstruction_callback hin hopcode hcallee, hout]

/-- A CALL that finds something short. -/
theorem execute_call_of_shortage {need : Exhaustion} (h : m.Layout depth floor (a :: below))
    (hopcode : i.opcode = .call) (hcallee : program.routine? i.a = some callee)
    (hfit : a.site.outside? (backToBack i.b.toNat callee.descriptor.inputs) = none)
    (hshort : m.shortage callee.descriptor.size.toNat = some need) :
    execute program returnTo a.site i m = .error (.exhausted a.location need) m := by
  have hin : a.site.window.Inside m.arena := h.inside (a := a) (by simp)
  have hplan := Plan.ofInstruction_call hin hopcode hcallee
  rw [hfit] at hplan
  rw [execute_of_plan hplan, carryOut_call, call_eq, hshort]
  rfl

/-- A CALL that finds room enters its function, unless an input slot of the function
is outside its frame. -/
theorem execute_call_brings (returnTo : Nat) (h : m.Layout depth floor (a :: below))
    (hopcode : i.opcode = .call) (hcallee : program.routine? i.a = some callee)
    (hfit : a.site.outside? (backToBack i.b.toNat callee.descriptor.inputs) = none)
    (hroom : m.shortage callee.descriptor.size.toNat = none) :
    Brings (((m.nextWindow callee.descriptor.size).misfit? callee.descriptor.inputs).map
        .slotOutOfFrame)
      (m.arena.stackPointer + callee.descriptor.size.toNat) .running
      (m.entering i.a callee.descriptor
        (a.site.parts m (backToBack i.b.toNat callee.descriptor.inputs)))
      (execute program returnTo a.site i m) := by
  have hin : a.site.window.Inside m.arena := h.inside (a := a) (by simp)
  have hplan := Plan.ofInstruction_call hin hopcode hcallee
  have hcall := call_brings h.sound a.site i.a h.packed.1 hfit hroom
  rw [hfit] at hplan
  rw [execute_of_plan hplan, carryOut_call]
  cases hslot : (m.nextWindow callee.descriptor.size).misfit? callee.descriptor.inputs with
  | some range =>
      rw [hslot] at hcall
      rcases hcall with ⟨m', hm', hpointer⟩
      exact ⟨m', by rw [hm'], hpointer⟩
  | none =>
      rw [hslot] at hcall
      have hcall : call a.site i.a callee _ m = .ok () _ := hcall
      simp only [Brings, Option.map_none, hcall]

/-- A CALLBACK is refused for the layout of its function or for want of room, and
otherwise enters its function. -/
theorem execute_callback_eq (returnTo : Nat)
    (h : Coherent function depth floor (a :: below) m suspended)
    (hopcode : i.opcode = .callback) (hcallee : program.routine? i.a = some callee)
    (hfit : a.site.outside? (backToBack i.b.toNat callee.descriptor.inputs) = none) :
    execute program returnTo a.site i m =
      match callee.descriptor.misfit? with
      | some misfit => .error (.callbackRejected a.location (.descriptor i.a misfit)) m
      | none =>
          match m.shortage callee.descriptor.size.toNat with
          | some need => .error (.callbackRejected a.location (.exhausted need)) m
          | none =>
              .ok (.nested (suspensionOf a i callee.descriptor m))
                ((m.entering i.a callee.descriptor
                    (a.site.parts m (backToBack i.b.toNat callee.descriptor.inputs))).note
                  (.invoked i.a (m.stack.activeIndex + 1) m.stack.activeIndex)) := by
  have hin : a.site.window.Inside m.arena := h.layout.inside (a := a) (by simp)
  have hplan := Plan.ofInstruction_callback hin hopcode hcallee
  have haccept := accept_of_lengthsMatch h.unpoisoned hcallee (Site.lengthsMatch_parts hin hfit)
  rw [hfit] at hplan
  rw [execute_of_plan hplan, carryOut_callback]
  cases hmisfit : callee.descriptor.misfit? with
  | some misfit =>
      rw [hmisfit] at haccept
      simp only [enter_eq, haccept]
      rfl
  | none =>
      rw [hmisfit] at haccept
      cases hroom : m.shortage callee.descriptor.size.toNat with
      | some need =>
          simp only [enter_eq, haccept, hroom]
          rfl
      | none =>
          have hposition : m.stack.active.instructionPointer = a.position := by
            have hframe := h.layout.frame_eq
            simp only [CallStack.active, Array.getD_eq_getD_getElem?, hframe]
            rfl
          simp only [enter_eq_ok h.layout.sound haccept hroom, hposition]
          rfl

end Calls

section Returns

variable {returnTo : Nat} {site : Site}

theorem ofInstruction_ret (hopcode : i.opcode = .ret) :
    Plan.ofInstruction program m site i = .ok .ret := by
  simp only [Plan.ofInstruction, hopcode]

/-- A return to the frame that ends the innermost run. -/
theorem execute_ret_of_eq (h : m.Layout depth floor (b :: below)) (hopcode : i.opcode = .ret)
    (hreturn : depth + below.length = returnTo) :
    execute program returnTo site i m =
      .ok .returned (m.modifyStack (CallStack.unwindTo returnTo)) := by
  have hactive : m.stack.activeIndex = depth + below.length + 1 := h.active_eq
  rw [execute_of_plan (ofInstruction_ret hopcode), carryOut_ret, ret_eq _ _ _ hactive,
    if_pos hreturn, hreturn]
  rfl

/-- A return within the innermost run completes the CALL of the caller. -/
theorem execute_ret_call (h : m.Layout depth floor (b :: a :: below))
    (hinstruction : a.instruction? = some i) (hopcode : i.opcode = .call)
    {j : Instruction} (hret : j.opcode = .ret) (hreturn : returnTo ≤ depth + below.length) :
    Brings (passing? b.window a.site i.c.toNat b.routine.descriptor.outputs)
      m.arena.stackPointer .running
      ((m.returning (depth + below.length + 1) b.window (a.base + i.c.toNat)
        (b.outputs m.arena).flatten).note (.resumed b.function (depth + below.length + 1)))
      (execute program returnTo b.site j m) := by
  have hactive : m.stack.activeIndex = depth + below.length + 1 + 1 := h.active_eq
  have hcomplete := completeCall_brings h hinstruction hopcode
  rw [execute_of_plan (ofInstruction_ret hret), carryOut_ret, ret_eq _ _ _ hactive,
    if_neg (by omega)]
  cases hobstacle : passing? b.window a.site i.c.toNat b.routine.descriptor.outputs with
  | some cause =>
      rw [hobstacle] at hcomplete
      rcases hcomplete with ⟨m', hm', hpointer⟩
      exact ⟨m', by rw [hm'], hpointer⟩
  | none =>
      rw [hobstacle] at hcomplete
      have hcomplete : completeCall program b.site _ m = .ok () _ := hcomplete
      simp only [Brings, hcomplete]
      rfl

/-- A return that ends a nested run completes the CALLBACK of the caller. -/
theorem settle_ret_callback (h : m.Layout depth floor (b :: a :: below))
    (hinstruction : a.instruction? = some i) (hopcode : i.opcode = .callback)
    (hvalid : b.routine.descriptor.misfit? = none) {j : Instruction} (hret : j.opcode = .ret)
    (interpreter : Interpreter) :
    let live := b :: a :: below
    let outer := suspensions depth (a :: below)
    let done := m.returning (depth + below.length + 1) b.window (a.base + i.c.toNat)
      (b.outputs m.arena).flatten
    let turn := settle interpreter depth (suspensions depth live)
      (execute program (innermostReturn depth (suspensions depth live)) b.site j m)
    match a.site.outside? (backToBack i.c.toNat b.routine.descriptor.outputs) with
    | some cause => ∃ m', turn = stop interpreter outer cause m' ∧
        m'.arena.stackPointer = done.arena.stackPointer
    | none => turn = .more ⟨interpreter,
        done.note (.returned b.function b.routine.descriptor.outputs.length), depth, outer⟩ := by
  dsimp only
  have hresume := resume_brings h hvalid i.c
  rw [suspensions_callback hinstruction hopcode]
  simp only [innermostReturn, Activation.previous_invocation]
  rw [execute_ret_of_eq h hret (by rfl)]
  cases hobstacle : a.site.outside? (backToBack i.c.toNat b.routine.descriptor.outputs) with
  | some cause =>
      rw [hobstacle] at hresume
      rcases hresume with ⟨m', hm', hpointer⟩
      exact ⟨m', by simp only [settle, hm'], hpointer⟩
  | none =>
      rw [hobstacle] at hresume
      have hresume : resume _ _ = .ok () _ := hresume
      simp only [settle, hresume]

end Returns

/-- The run of an invocation starts with the frame that it has entered. -/
theorem run_eq (h : m.Layout depth floor [a]) (interpreter : Interpreter) :
    run program interpreter m (depth + 1) depth =
      complete program ⟨interpreter, m, depth, []⟩ :=
  if_pos h.active_eq

end Coherent
end Interpreter

namespace Machine

/-! ## Invocations -/

section Invocations

variable {program : Program} {m : Machine} {function : UInt16} {inputs : List Bytes}

/-- An invocation in a sound machine is refused, finds something short, or is a run
of the function that it has entered. -/
theorem invoke_eq {σ : Type} (h : m.Sound) (run : Engine σ) (engine : σ) :
    m.invoke program run function inputs engine =
      match accept program m function inputs with
      | .error reason => some ⟨.error (.rejected reason), engine, m⟩
      | .ok d =>
          match m.shortage d.size.toNat with
          | some need => some ⟨.error (.rejected (.exhausted need)), engine, m⟩
          | none =>
              (run engine ((m.entering function d inputs).note
                  (.invoked function (m.stack.activeIndex + 1) m.stack.activeIndex))
                (m.stack.activeIndex + 1) m.stack.activeIndex).map
              (conclude ⟨function, d, m.nextWindow d.size, m.stack.activeIndex,
                m.stack.active.instructionPointer⟩) := by
  unfold invoke
  cases haccept : accept program m function inputs with
  | error reason => simp only [enter_eq, haccept]
  | ok d =>
      cases hroom : m.shortage d.size.toNat with
      | some need => simp only [enter_eq, haccept, hroom]
      | none =>
          simp only [enter_eq_ok h haccept hroom, hroom, Invocation.start]
          cases run engine _ _ _ <;> rfl

/-- A machine is laid out along no frames above its active one. -/
theorem Sound.layout_nil (h : m.Sound) :
    m.Layout m.stack.activeIndex m.arena.stackPointer ([] : List (Activation program)) where
  sound := h
  active_eq := rfl
  occupies := trivial
  packed := Nat.le_refl _

/-- An invocation starts coherent. -/
theorem Sound.coherent_entering (h : m.Sound) (hpoisoned : m.poisoned = false)
    {routine : Routine} (hroutine : program.routine? function = some routine)
    (hroom : m.shortage routine.descriptor.size.toNat = none) (inputs : List Bytes) :
    Interpreter.Coherent function m.stack.activeIndex m.arena.stackPointer
      [Activation.entered hroutine m.arena.stackPointer]
      (m.entering function routine.descriptor inputs) [] where
  layout := h.layout_nil.entering hroutine hroom inputs
  unpoisoned := hpoisoned
  called := .root rfl rfl
  suspended_eq := rfl

/-- The machine in which an invocation has ended whose frame is still active in
`m`. -/
def leaving (m : Machine) (call : Invocation) : Machine :=
  ((m.modifyStack (CallStack.unwindTo call.previous)).modifyStack
    (CallStack.jump call.resumeAt)).releaseFrame call.window

/-- The bottom frame is that of the invocation. -/
theorem invocation_eq (depth : Nat) {floor : Nat} {a : Activation program}
    (h : Called function floor [a]) {routine : Routine}
    (hroutine : program.routine? function = some routine) (resumeAt : Nat) :
    (⟨function, routine.descriptor, ⟨floor, routine.descriptor.size.toNat⟩, depth, resumeAt⟩ :
      Invocation) = a.invocation depth resumeAt := by
  have hsame := h.routine_eq hroutine
  subst hsame
  cases h with
  | root hfunction hbase =>
      subst hfunction
      subst hbase
      rfl

/-- An invocation whose run has ended well brings the outputs of its frame. -/
theorem conclude_eq {σ : Type} {depth floor : Nat} {a : Activation program}
    {suspended : List Interpreter.Suspension}
    (h : Interpreter.Coherent function depth floor [a] m suspended) {routine : Routine}
    (hroutine : program.routine? function = some routine)
    (hvalid : routine.descriptor.misfit? = none) (resumeAt : Nat) (engine : σ) :
    conclude ⟨function, routine.descriptor, ⟨floor, routine.descriptor.size.toNat⟩, depth,
          resumeAt⟩ ⟨.ok (), engine, m.modifyStack (CallStack.unwindTo depth)⟩ =
      ⟨.ok (a.outputs m.arena), engine, (m.leaving (a.invocation depth resumeAt)).note
        (.returned a.function a.routine.descriptor.outputs.length)⟩ := by
  have hactive : (m.modifyStack (CallStack.unwindTo depth)).stack.activeIndex = depth :=
    h.layout.pop.active_eq
  have hfit := h.called.outputs_fit hroutine hvalid
  have hread : ((m.modifyStack (CallStack.unwindTo depth)).modifyStack
      (CallStack.jump resumeAt)).readOutputs a.window a.routine.descriptor.outputs =
        .ok (a.outputs m.arena) :=
    readOutputs_eq (h.layout.inside (a := a) (by simp)) hfit
  have houtputs : (a.outputs m.arena).length = a.routine.descriptor.outputs.length :=
    List.length_map ..
  rw [invocation_eq depth h.called hroutine resumeAt]
  simp only [conclude, leave, guarded, Activation.invocation, collect_eq, if_pos hactive, hread,
    houtputs, leaving]

end Invocations
end Machine
end FrameMachine
