import FrameMachine.Interpreter.Execution
import FrameMachine.Machine.Operation

/-!
# Actions on a machine

What the elementary actions do to a machine, as equations, and how a property
of machines is carried through an action that is put together from others.

Main results:

- Theorem `keeps_bind`: a sequence of actions keeps what its parts keep.
- Theorem `pushFrame_eq`: a frame is allocated exactly if nothing is short, and
  nothing has changed otherwise.
- Theorems `keeps_writeInputs`, `keeps_passInputs`, `keeps_passOutputs` and
  `keeps_deliver`: marshalling keeps every property that stores into the
  window in question keep.
- Theorem `enter_keeps`: so does the beginning of an invocation, once its frame is
  allocated.
-/

namespace FrameMachine
namespace Machine

/-! ## Properties that actions keep -/

section Keeps

variable {ε δ α β : Type} {I : Machine → Prop}

/-- An action keeps a property of machines, whether it succeeds or fails. -/
def Keeps (I : Machine → Prop) (act : Action ε α) : Prop :=
  ∀ m, I m → I (after (act m))

theorem keeps_pure (a : α) : Keeps I (pure a : Action ε α) :=
  fun _ h => h

/-- A check looks at a machine without changing it. -/
theorem keeps_check (result : Except ε α) : Keeps I (check result) := by
  intro m h
  cases result <;> exact h

/-- A sequence keeps what its parts keep; the second part may rely on what the
first one has brought back. -/
theorem keeps_bind {act : Action ε α} {next : α → Action ε β} (hact : Keeps I act)
    (hnext : ∀ m a m', act m = .ok a m' → Keeps I (next a)) : Keeps I (act >>= next) := by
  intro m hm
  have h := hact m hm
  simp only [bind, EStateM.bind]
  cases hr : act m with
  | ok a m' =>
      rw [hr] at h
      exact hnext m a m' hr m' h
  | error e m' =>
      rw [hr] at h
      exact h

/-- The result of a successful check is the value that was checked. -/
theorem eq_ok_of_check {result : Except ε α} {m m' : Machine} {a : α}
    (h : check result m = .ok a m') : result = .ok a := by
  cases result with
  | ok b =>
      simp only [check, EStateM.Result.ok.injEq] at h
      rw [h.1]
  | error e => simp [check] at h

end Keeps

/-! ## Equations of the elementary actions -/

theorem writeBytes_eq (offset : Nat) (bytes : Bytes) (m : Machine) :
    writeBytes offset bytes m =
      if m.arena.contains ⟨offset, bytes.length⟩ then
        .ok () (m.modifyArena (Arena.store offset bytes))
      else .error (.memory (m.arena.outOfBounds ⟨offset, bytes.length⟩)) m := by
  cases m with
  | mk arena stack reclaim poisoned journal =>
      by_cases h : arena.contains ⟨offset, bytes.length⟩ <;>
        simp [writeBytes, EStateM.adaptExcept, onArena, Arena.write, modifyArena, h]

theorem copyBytes_eq (source : Address) (target : Nat) (m : Machine) :
    copyBytes source target m =
      if m.arena.contains source then
        if m.arena.contains ⟨target, source.length⟩ then
          .ok () (m.modifyArena (Arena.store target (m.arena.slice source)))
        else .error (.memory (m.arena.outOfBounds ⟨target, source.length⟩)) m
      else .error (.memory (m.arena.outOfBounds source)) m := by
  cases m with
  | mk arena stack reclaim poisoned journal =>
      by_cases h : arena.contains source <;>
        by_cases h' : arena.contains ⟨target, source.length⟩ <;>
          simp [copyBytes, EStateM.adaptExcept, onArena, Arena.copy, modifyArena, h, h']

theorem restore_eq (index instructionPointer : Nat) (m : Machine) :
    ((onStack (CallStack.restore index instructionPointer)).adaptExcept Fault.desync) m =
      if index ≤ m.stack.activeIndex then
        .ok () (m.modifyStack fun s => CallStack.jump instructionPointer ⟨s.frames, index⟩)
      else .error (.desync ⟨index, m.stack.activeIndex⟩) m := by
  cases m with
  | mk arena stack reclaim poisoned journal =>
      by_cases h : index ≤ stack.activeIndex <;>
        simp [EStateM.adaptExcept, onStack, CallStack.restore, modifyStack, h]

@[simp]
theorem stack_releaseFrame (window : Window) (m : Machine) :
    (m.releaseFrame window).stack = m.stack := by
  unfold releaseFrame
  split <;> rfl

/-! ## Allocating a frame -/

/-- What is missing for a frame of a given size. -/
def shortage (m : Machine) (size : Nat) : Option Exhaustion :=
  if m.stack.hasRoom then
    if size ≤ m.arena.available then none else some (.memory size m.arena.available)
  else some (.callStack m.stack.capacity)

/-- The window that the next frame gets. -/
def nextWindow (m : Machine) (size : UInt32) : Window :=
  ⟨m.arena.stackPointer, size.toNat⟩

/-- The machine with another frame allocated and active. -/
def framed (m : Machine) (operator : UInt16) (size : UInt32) : Machine where
  arena :=
    ⟨overwrite m.arena.cells m.arena.stackPointer (List.replicate size.toNat 0),
      m.arena.stackPointer + size.toNat⟩
  stack :=
    ⟨m.stack.frames.setIfInBounds (m.stack.activeIndex + 1)
      ⟨some operator, 0, m.arena.stackPointer⟩, m.stack.activeIndex + 1⟩
  reclaim := m.reclaim
  poisoned := m.poisoned
  journal :=
    m.journal.push (.framePushed (m.stack.activeIndex + 1) operator (m.nextWindow size))

/-- A frame is allocated exactly if nothing is short, and nothing has changed
otherwise. -/
theorem pushFrame_eq (operator : UInt16) (size : UInt32) (m : Machine) :
    pushFrame operator size m =
      match m.shortage size.toNat with
      | some need => .error need m
      | none => .ok (m.nextWindow size) (m.framed operator size) := by
  cases m with
  | mk arena stack reclaim poisoned journal =>
      by_cases hroom : stack.hasRoom
      · by_cases hsize : size.toNat ≤ arena.available <;>
          simp [pushFrame, shortage, onArena, Arena.reserve, onStack, CallStack.push, note,
            framed, nextWindow, hroom, hsize]
      · simp [pushFrame, shortage, hroom]

theorem hasRoom_of_shortage_eq_none {m : Machine} {size : Nat} (h : m.shortage size = none) :
    m.stack.activeIndex + 1 < m.stack.capacity := by
  unfold shortage at h
  split at h
  · simpa [CallStack.hasRoom] using ‹m.stack.hasRoom = true›
  · contradiction

theorem available_of_shortage_eq_none {m : Machine} {size : Nat} (h : m.shortage size = none) :
    size ≤ m.arena.available := by
  unfold shortage at h
  split at h
  · split at h
    · assumption
    · contradiction
  · contradiction

/-- The layout of an accepted request is that of its function. -/
theorem exists_routine_of_accept {program : Program} {m : Machine} {function : UInt16}
    {inputs : List Bytes} {d : Descriptor} (h : accept program m function inputs = .ok d) :
    ∃ routine, program.routine? function = some routine ∧ routine.descriptor = d := by
  unfold accept at h
  split at h
  · contradiction
  · split at h
    · contradiction
    · rename_i routine hroutine
      split at h
      · contradiction
      · exact ⟨routine, hroutine, Except.ok.inj h⟩

/-- An accepted request goes on to allocate its frame. -/
theorem enter_eq (program : Program) (function : UInt16) (inputs : List Bytes) (m : Machine) :
    enter program function inputs m =
      match accept program m function inputs with
      | .error reason => .error (.rejected reason) m
      | .ok d =>
          match m.shortage d.size.toNat with
          | some need => .error (.rejected (.exhausted need)) m
          | none =>
              let call : Invocation := ⟨function, d, m.nextWindow d.size, m.stack.activeIndex,
                m.stack.active.instructionPointer⟩
              match writeInputs (m.nextWindow d.size) (d.inputs.zip inputs)
                  ((m.framed function d.size).note
                    (.invoked function call.start m.stack.activeIndex)) with
              | .ok () m => .ok call m
              | .error cause m => .error (.fault cause) (m.fail cause) := by
  unfold enter begin guarded
  cases accept program m function inputs with
  | error reason => rfl
  | ok d =>
      simp only [pushFrame_eq]
      cases m.shortage d.size.toNat with
      | some need => rfl
      | none =>
          dsimp only
          generalize writeInputs _ _ _ = result
          cases result <;> rfl

/-- The outputs are collected if the expected frame is active again; that frame
gets its old instruction pointer back. -/
theorem collect_eq (call : Invocation) (m : Machine) :
    collect call m =
      if m.stack.activeIndex = call.previous then
        let m := m.modifyStack (CallStack.jump call.resumeAt)
        match m.readOutputs call.window call.descriptor.outputs with
        | .error cause => .error cause m
        | .ok outputs =>
            .ok outputs ((m.releaseFrame call.window).note
              (.returned call.function outputs.length))
      else .error (.desync ⟨call.previous, m.stack.activeIndex⟩) m := by
  unfold collect
  split
  · rename_i h
    rw [restore_eq, if_pos (Nat.le_of_eq h.symm), ← h]
    cases m
    rfl
  · rfl

/-! ## Invoking -/

/-- The engine has no part in how an invocation is concluded. -/
theorem conclude_engine_eq {σ τ : Type} (call : Invocation) (back : Comeback σ) (engine : τ) :
    conclude call ⟨back.verdict, engine, back.machine⟩ =
      ⟨(conclude call back).outcome, engine, (conclude call back).machine⟩ := by
  rcases back with ⟨verdict, engine', m⟩
  cases verdict with
  | error cause => rfl
  | ok _ =>
      simp only [conclude]
      cases leave call m <;> rfl

/-- An engine is handed back as it is. -/
theorem conclude_engine {σ : Type} (call : Invocation) (back : Comeback σ) :
    (conclude call back).engine = back.engine :=
  congrArg Reply.engine (conclude_engine_eq call back back.engine)

/-- The fault of a run is the fault of its invocation. -/
theorem conclude_of_error {σ : Type} {call : Invocation} {back : Comeback σ} {cause : Fault}
    (h : back.verdict = .error cause) : (conclude call back).outcome = .error (.fault cause) := by
  rcases back with ⟨verdict, engine, m'⟩
  cases h
  rfl

/-- A reply is that of a request that did not start, or concludes an invocation whose
engine has come back. -/
theorem invoke_cases {σ : Type} {program : Program} {run : Engine σ} {function : UInt16}
    {inputs : List Bytes} {engine : σ} {m : Machine} {reply : Reply σ}
    (h : m.invoke program run function inputs engine = some reply) :
    (∃ e m', enter program function inputs m = .error e m' ∧ reply = ⟨.error e, engine, m'⟩) ∨
      ∃ call m' back, enter program function inputs m = .ok call m' ∧
        run engine m' call.start call.previous = some back ∧ reply = conclude call back := by
  unfold invoke at h
  cases henter : enter program function inputs m with
  | error e m' =>
      rw [henter] at h
      cases h
      exact Or.inl ⟨e, m', rfl, rfl⟩
  | ok call m' =>
      rw [henter] at h
      dsimp only at h
      cases hback : run engine m' call.start call.previous with
      | none => simp [hback] at h
      | some back =>
          rw [hback] at h
          cases h
          exact Or.inr ⟨call, m', back, rfl, hback, rfl⟩

/-- An invocation whose engine has come back well is concluded by leaving it. -/
theorem conclude_machine_of_ok {σ : Type} (call : Invocation) (engine : σ) (m : Machine) :
    (conclude call ⟨.ok (), engine, m⟩).machine = after (leave call m) := by
  simp only [conclude]
  cases leave call m <;> rfl

/-! ## Marshalling -/

section Marshalling

variable {I : Machine → Prop} {floor : Nat}

/-- A property of machines survives stores at and above `floor`. -/
def StoreClosed (floor : Nat) (I : Machine → Prop) : Prop :=
  ∀ m offset bytes, floor ≤ offset → I m → I (m.modifyArena (Arena.store offset bytes))

theorem keeps_writeBytes (hI : StoreClosed floor I) {offset : Nat} (bytes : Bytes)
    (hoffset : floor ≤ offset) : Keeps I (writeBytes offset bytes) := by
  intro m h
  rw [writeBytes_eq]
  split
  · exact hI m offset bytes hoffset h
  · exact h

theorem keeps_copyBytes (hI : StoreClosed floor I) (source : Address) {target : Nat}
    (htarget : floor ≤ target) : Keeps I (copyBytes source target) := by
  intro m h
  rw [copyBytes_eq]
  split
  · split
    · exact hI m target _ htarget h
    · exact h
  · exact h

/-- What a range of a window resolves to does not lie below the window. -/
theorem base_le_of_resolve {window : Window} {offset length : Nat} {range : Address}
    (h : window.resolve offset length = .ok range) : window.base ≤ range.offset := by
  rw [Window.resolve_eq_ite] at h
  split at h
  · cases h
    exact Nat.le_add_right _ _
  · contradiction

/-- Success is not made by renaming errors. -/
theorem eq_ok_of_mapError_eq_ok {ε ε' α : Type} {rename : ε → ε'} {x : Except ε α} {a : α}
    (h : x.mapError rename = .ok a) : x = .ok a := by
  cases x with
  | error e =>
      have h : Except.error (rename e) = Except.ok a := h
      contradiction
  | ok b =>
      have h : Except.ok b = Except.ok a := h
      rw [Except.ok.inj h]

theorem base_le_of_slotRange {window : Window} {s : Slot} {range : Address}
    (h : slotRange window s = .ok range) : window.base ≤ range.offset := by
  apply base_le_of_resolve
  exact eq_ok_of_mapError_eq_ok h

theorem base_le_of_siteResolve {site : Site} {offset length : Nat} {range : Address}
    (h : site.resolve offset length = .ok range) : site.window.base ≤ range.offset := by
  apply base_le_of_resolve
  exact eq_ok_of_mapError_eq_ok h

theorem keeps_writeInputs (hI : StoreClosed floor I) (window : Window)
    (hbase : floor ≤ window.base) (inputs : List (Slot × Bytes)) :
    Keeps I (writeInputs window inputs) := by
  induction inputs with
  | nil => exact keeps_pure _
  | cons input rest ih =>
      refine keeps_bind (keeps_check _) ?_
      intro m range m' hrange
      have hrange := base_le_of_slotRange (eq_ok_of_check hrange)
      refine keeps_bind (keeps_writeBytes hI _ (Nat.le_trans hbase hrange)) ?_
      intro _ _ _ _
      exact ih

/-- A request that is rejected changes nothing.  Otherwise what holds with the frame of the
function allocated, and survives stores into its window, still holds with the inputs
written, or where one of them could not be written. -/
theorem enter_keeps (program : Program) (function : UInt16) (inputs : List Bytes) {m : Machine}
    (hI : StoreClosed floor I) (hfloor : floor ≤ m.arena.stackPointer)
    (hframed : ∀ routine, program.routine? function = some routine →
      m.shortage routine.descriptor.size.toNat = none →
      I ((m.framed function routine.descriptor.size).note
        (.invoked function (m.stack.activeIndex + 1) m.stack.activeIndex))) :
    match enter program function inputs m with
    | .error (.rejected _) m' => m' = m
    | .error (.fault cause) m' => ∃ n, I n ∧ m' = n.fail cause
    | .ok call m' => I m' ∧ ∃ routine, program.routine? function = some routine ∧
        call = ⟨function, routine.descriptor, m.nextWindow routine.descriptor.size,
          m.stack.activeIndex, m.stack.active.instructionPointer⟩ := by
  rw [enter_eq]
  cases haccept : accept program m function inputs with
  | error reason => exact rfl
  | ok d =>
      obtain ⟨routine, hroutine, rfl⟩ := exists_routine_of_accept haccept
      dsimp only
      cases hroom : m.shortage routine.descriptor.size.toNat with
      | some need => exact rfl
      | none =>
          have hafter := keeps_writeInputs hI (m.nextWindow routine.descriptor.size) hfloor
            (routine.descriptor.inputs.zip inputs) _ (hframed routine hroutine hroom)
          dsimp only [Invocation.start]
          generalize writeInputs _ _ _ = result at hafter ⊢
          cases result with
          | ok _ m' => exact ⟨hafter, routine, hroutine, rfl⟩
          | error cause m' => exact ⟨m', hafter, rfl⟩

end Marshalling
end Machine

namespace Interpreter

open Machine

variable {I : Machine → Prop} {floor : Nat}

theorem keeps_passInputs (hI : StoreClosed floor I) (window : Window)
    (hbase : floor ≤ window.base) (inputs : List (Address × Slot)) :
    Keeps I (passInputs window inputs) := by
  induction inputs with
  | nil => exact keeps_pure _
  | cons input rest ih =>
      refine keeps_bind (keeps_check _) ?_
      intro m range m' hrange
      have hrange := base_le_of_slotRange (eq_ok_of_check hrange)
      refine keeps_bind (keeps_copyBytes hI _ (Nat.le_trans hbase hrange)) ?_
      intro _ _ _ _
      exact ih

theorem keeps_passOutputs (hI : StoreClosed floor I) (window : Window) (caller : Site)
    (hbase : floor ≤ caller.window.base) (outputs : List (Slot × Nat × Nat)) :
    Keeps I (passOutputs window caller outputs) := by
  induction outputs with
  | nil => exact keeps_pure _
  | cons output rest ih =>
      refine keeps_bind (keeps_check _) fun _ _ _ _ => ?_
      refine keeps_bind (keeps_check _) ?_
      intro m range m' hrange
      have hrange := base_le_of_siteResolve (eq_ok_of_check hrange)
      refine keeps_bind (keeps_copyBytes hI _ (Nat.le_trans hbase hrange)) ?_
      intro _ _ _ _
      exact ih

theorem keeps_deliver (hI : StoreClosed floor I) (site : Site)
    (hbase : floor ≤ site.window.base) (offset : Nat) (outputs : List Bytes) :
    Keeps I (deliver site offset outputs) := by
  induction outputs generalizing offset with
  | nil => exact keeps_pure _
  | cons bytes rest ih =>
      refine keeps_bind (keeps_check _) ?_
      intro m range m' hrange
      have hrange := base_le_of_siteResolve (eq_ok_of_check hrange)
      refine keeps_bind (keeps_writeBytes hI _ (Nat.le_trans hbase hrange)) ?_
      intro _ _ _ _
      exact ih _

/-- A CALL allocates the callee's frame and then passes the inputs. -/
theorem call_eq (site : Site) (function : UInt16) (callee : Routine) (sources : List Address)
    (m : Machine) :
    call site function callee sources m =
      match m.shortage callee.descriptor.size.toNat with
      | some need => .error (.exhausted site.location need) m
      | none =>
          passInputs (m.nextWindow callee.descriptor.size) (sources.zip callee.descriptor.inputs)
            (m.framed function callee.descriptor.size) := by
  simp only [call, bind, EStateM.bind, EStateM.adaptExcept, pushFrame_eq]
  cases m.shortage callee.descriptor.size.toNat <;> rfl

/-- A run goes on after a nested invocation by collecting its outputs and
writing them into the window of the CALLBACK. -/
theorem resume_eq (s : Suspension) (m : Machine) :
    resume s m =
      match collect s.invocation m with
      | .error cause m => .error (.callbackFault s.site.location cause) (m.fail cause)
      | .ok outputs m =>
          match deliver s.site s.destination.toNat outputs m with
          | .error cause m => .error cause m
          | .ok () m => .ok () (advance m) := by
  simp only [resume, leave, guarded, EStateM.adaptExcept]
  cases collect s.invocation m <;> rfl

end Interpreter
end FrameMachine
