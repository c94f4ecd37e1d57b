import FrameMachine.Proofs.Coherence
import FrameMachine.Proofs.Refusals

/-!
# How an engine finds the machine

An invocation to which there is nothing to object asks its engine to run, once, and in
a state that depends on the machine before, the function and the inputs alone: there is
one more frame, and its window holds zeros overlaid by the inputs.  This holds for every
engine, also inside another invocation, and whatever the arena held before.

Main results:

- Theorem `Window.getElem?_storeSlots`: where inputs overlap, the last one is found.
- Theorem `Machine.Sound.entered`: the state of a machine that has entered a function.
- Theorem `Machine.invoke_enters`: the engine is asked to run once, in that state.
-/

namespace FrameMachine

/-! ## Overlaid inputs -/

/-- Whether a slot contains a frame offset. -/
def Slot.covers (s : Slot) (k : Nat) : Bool :=
  s.offset.toNat ≤ k && k < s.offset.toNat + s.size.toNat

/-- The last of a list of inputs that is stored over a frame offset. -/
def lastCovering? (inputs : List (Slot × Bytes)) (k : Nat) : Option (Slot × Bytes) :=
  inputs.reverse.find? fun input => input.1.covers k

theorem lastCovering?_cons (input : Slot × Bytes) (rest : List (Slot × Bytes)) (k : Nat) :
    lastCovering? (input :: rest) k =
      match lastCovering? rest k with
      | some found => some found
      | none => if input.1.covers k then some input else none := by
  simp only [lastCovering?, List.reverse_cons, List.find?_append]
  cases rest.reverse.find? fun input => input.1.covers k with
  | some found => rfl
  | none => cases hcovers : input.1.covers k <;> simp [hcovers]

theorem mem_of_lastCovering? {inputs : List (Slot × Bytes)} {k : Nat} {found : Slot × Bytes}
    (h : lastCovering? inputs k = some found) : found ∈ inputs ∧ found.1.covers k = true := by
  have hcovers := List.find?_some h
  exact ⟨List.mem_reverse.mp (List.mem_of_find?_eq_some h), hcovers⟩

/-- Where inputs overlap, the last one is found. -/
theorem Window.getElem?_storeSlots {w : Window} {inputs : List (Slot × Bytes)} {a : Arena}
    {k : Nat} (hlength : ∀ p ∈ inputs, p.2.length = p.1.size.toNat)
    (hk : w.base + k < a.cells.size) :
    (w.storeSlots inputs a).cells[w.base + k]? =
      match lastCovering? inputs k with
      | some (s, bytes) => bytes[k - s.offset.toNat]?
      | none => a.cells[w.base + k]? := by
  induction inputs generalizing a with
  | nil => rfl
  | cons input rest ih =>
      rcases input with ⟨s, bytes⟩
      have hbytes : bytes.length = s.size.toNat := hlength ⟨s, bytes⟩ (List.mem_cons_self ..)
      have hsize : (a.store (w.base + s.offset.toNat) bytes).cells.size = a.cells.size :=
        Arena.capacity_store a _ _
      have hrest := ih (a := a.store (w.base + s.offset.toNat) bytes)
        (fun p hp => hlength p (List.mem_cons_of_mem _ hp)) (by omega)
      rw [storeSlots, hrest, lastCovering?_cons]
      cases lastCovering? rest k with
      | some found => rfl
      | none =>
          simp only [Arena.cells_store, getElem?_overwrite, Slot.covers, Bool.and_eq_true,
            decide_eq_true_eq, hbytes]
          by_cases hcovers : s.offset.toNat ≤ k ∧ k < s.offset.toNat + s.size.toNat
          · rw [if_pos (by omega), if_pos hcovers, Nat.add_sub_add_left]
          · rw [if_neg (by omega), if_neg hcovers]

/-- The byte at an offset of a new frame: that of the last input which covers the offset,
or zero. -/
def Descriptor.initialByte (d : Descriptor) (inputs : List Bytes) (k : Nat) : UInt8 :=
  match lastCovering? (d.inputs.zip inputs) k with
  | some (s, bytes) => bytes.getD (k - s.offset.toNat) 0
  | none => 0

namespace Machine

/-! ## The state on entry -/

/-- The machine `n` is what the engine finds when `m` has accepted an invocation. -/
structure Entered (m n : Machine) (function : UInt16) (d : Descriptor) (inputs : List Bytes) :
    Prop where
  active_eq : n.stack.activeIndex = m.stack.activeIndex + 1
  frame_eq : n.stack.frame? (m.stack.activeIndex + 1) =
    some ⟨some function, 0, m.arena.stackPointer⟩
  frames_eq : ∀ j, j ≠ m.stack.activeIndex + 1 → n.stack.frame? j = m.stack.frame? j
  slots_eq : n.stack.capacity = m.stack.capacity
  stackPointer_eq : n.arena.stackPointer = m.arena.stackPointer + d.size.toNat
  stackPointer_le : n.arena.stackPointer ≤ n.arena.capacity
  capacity_eq : n.arena.capacity = m.arena.capacity
  window_eq : ∀ k < d.size.toNat,
    n.arena.cells[m.arena.stackPointer + k]? = some (d.initialByte inputs k)
  outside_eq : ∀ k, k < m.arena.stackPointer ∨ m.arena.stackPointer + d.size.toNat ≤ k →
    n.arena.cells[k]? = m.arena.cells[k]?
  reclaim_eq : n.reclaim = m.reclaim
  poisoned_eq : n.poisoned = m.poisoned

section Entering

variable {program : Program} {m : Machine} {function : UInt16} {d : Descriptor}
  {inputs : List Bytes} {k : Nat}

/-- A new frame holds its initial bytes. -/
theorem Sound.cells_entering_window (h : m.Sound) (function : UInt16)
    (hroom : m.shortage d.size.toNat = none) (hlengths : LengthsMatch d.inputs inputs)
    (hk : k < d.size.toNat) :
    (m.entering function d inputs).arena.cells[m.arena.stackPointer + k]? =
      some (d.initialByte inputs k) := by
  have hstop := (h.inside_nextWindow function hroom).stop_le
  simp only [nextWindow, Arena.capacity] at hstop
  have hcells := Window.getElem?_storeSlots (w := m.nextWindow d.size)
    (a := (m.framed function d.size).arena) (k := k) hlengths.length_of_mem_zip
    (by simp only [nextWindow]; omega)
  refine hcells.trans ?_
  unfold Descriptor.initialByte
  cases hfound : lastCovering? (d.inputs.zip inputs) k with
  | some found =>
      rcases found with ⟨s, bytes⟩
      rcases mem_of_lastCovering? hfound with ⟨hmem, hcovers⟩
      have hbytes := hlengths.length_of_mem_zip _ hmem
      simp only [Slot.covers, Bool.and_eq_true, decide_eq_true_eq] at hcovers hbytes
      have hlt : k - s.offset.toNat < bytes.length := by omega
      simp [List.getElem?_eq_getElem hlt]
  | none =>
      simp only [Machine.framed, size_overwrite] at hstop
      simp only [nextWindow, Machine.framed, getElem?_overwrite, List.length_replicate]
      rw [if_pos (by omega), List.getElem?_replicate, if_pos (by omega)]

/-- Two inputs that overlap. -/
example : (List.range 4).map ((⟨4, [⟨0, 3⟩, ⟨1, 2⟩], []⟩ : Descriptor).initialByte
    [[1, 2, 3], [8, 9]]) = [1, 8, 9, 0] := by decide

/-- A new frame does not touch the bytes outside its window. -/
theorem cells_entering_outside (function : UInt16) (hvalid : d.misfit? = none)
    (hlengths : LengthsMatch d.inputs inputs)
    (hk : k < m.arena.stackPointer ∨ m.arena.stackPointer + d.size.toNat ≤ k) :
    (m.entering function d inputs).arena.cells[k]? = m.arena.cells[k]? := by
  have hframed : (m.framed function d.size).arena.cells[k]? = m.arena.cells[k]? := by
    simp only [Machine.framed, getElem?_overwrite, List.length_replicate]
    rw [if_neg (by omega)]
  refine Eq.trans ?_ hframed
  rcases hk with hbelow | habove
  · exact Window.getElem?_storeSlots_of_lt (w := m.nextWindow d.size) hbelow _ _
  · have hcapacity := Window.capacity_storeSlots (m.nextWindow d.size) (d.inputs.zip inputs)
      (m.framed function d.size).arena
    by_cases hin : k < (m.framed function d.size).arena.capacity
    · have hcells := Window.getElem?_storeSlots (w := m.nextWindow d.size)
        (a := (m.framed function d.size).arena) (k := k - m.arena.stackPointer)
        hlengths.length_of_mem_zip
        (by simp only [nextWindow, Arena.capacity] at hin ⊢; omega)
      have hplace : (m.nextWindow d.size).base + (k - m.arena.stackPointer) = k := by
        simp only [nextWindow]
        omega
      -- no input covers an offset behind the frame
      cases hfound : lastCovering? (d.inputs.zip inputs) (k - m.arena.stackPointer) with
      | none =>
          rw [hfound, hplace] at hcells
          exact hcells
      | some found =>
          rcases mem_of_lastCovering? hfound with ⟨hmem, hcovers⟩
          have hfit := Window.misfit?_eq_none_iff.mp (Descriptor.inputs_fit hvalid 0) _
            (List.of_mem_zip hmem).1
          simp only [Slot.covers, Bool.and_eq_true, decide_eq_true_eq] at hcovers hfit
          omega
    · have hout := Nat.le_of_not_lt hin
      exact (Array.getElem?_eq_none (Nat.le_trans (Nat.le_of_eq hcapacity) hout)).trans
        (Array.getElem?_eq_none hout).symm

/-- The state of a machine that has entered a function. -/
theorem Sound.entered (h : m.Sound) (function : UInt16)
    (hroom : m.shortage d.size.toNat = none) (hvalid : d.misfit? = none)
    (hlengths : LengthsMatch d.inputs inputs) (e : Event) :
    m.Entered ((m.entering function d inputs).note e) function d inputs where
  active_eq := rfl
  frame_eq := by
    have hslot := hasRoom_of_shortage_eq_none hroom
    exact Array.getElem?_setIfInBounds_self_of_lt hslot
  frames_eq j hj := by
    have hne : m.stack.activeIndex + 1 ≠ j := fun heq => hj heq.symm
    exact Array.getElem?_setIfInBounds_ne hne
  slots_eq := by
    simp [Machine.entering, Machine.framed, CallStack.capacity]
  stackPointer_eq := Window.stackPointer_storeSlots ..
  stackPointer_le := by
    have hsound : (m.entering function d inputs).Sound := h.entering d hroom
    exact hsound.stackPointer_le
  capacity_eq := (Window.capacity_storeSlots ..).trans (size_overwrite ..)
  window_eq _ hk := h.cells_entering_window function hroom hlengths hk
  outside_eq _ hk := cells_entering_outside function hvalid hlengths hk
  reclaim_eq := rfl
  poisoned_eq := rfl

/-- An invocation to which there is nothing to object asks its engine to run exactly once,
in the frame above the active one and until that one is active again.  The machine is then
as it was but for the new frame, its window and the stack pointer, whatever the engine is
and whatever the arena holds. -/
theorem invoke_enters (h : Reachable program m)
    (haccepted : ∀ reason, ¬ Objection program m function inputs reason) :
    ∃ routine n, program.routine? function = some routine ∧
      m.Entered n function routine.descriptor inputs ∧
      ∀ (σ : Type) (run : Engine σ) (engine : σ) (seen : List Summons),
        (m.invoke program run.recorded function inputs (engine, seen)).map Reply.unrecorded =
          m.invoke program run function inputs engine ∧
        (m.invoke program run.recorded function inputs (engine, seen)).map
            (fun reply => reply.engine.2) =
          (run engine n (m.stack.activeIndex + 1) m.stack.activeIndex).map fun _ =>
            seen ++ [⟨n, m.stack.activeIndex + 1, m.stack.activeIndex⟩] := by
  rcases exists_of_not_objection haccepted with
    ⟨routine, -, hroutine, hvalid, hlengths, haccept, hroom⟩
  have henter := enter_eq_ok h.sound haccept hroom
  have hentered := h.sound.entered function hroom hvalid hlengths
    (.invoked function (m.stack.activeIndex + 1) m.stack.activeIndex)
  refine ⟨routine, _, hroutine, hentered, ?_⟩
  intro σ run engine seen
  refine ⟨invoke_recorded run engine seen program m function inputs, ?_⟩
  rw [invoke_recorded_of_enter run engine seen henter, Option.map_map]
  rfl

/-- There is nothing to object to an invocation of the first function by a machine that is
busy. -/
theorem not_objection_busy (reason : Rejection) :
    ¬ Objection relay (busy .release) 0 [[42]] reason := by
  have hspec := refusal?_spec relay (busy .release) 0 [[42]]
  have hnone : refusal? relay (busy .release) 0 [[42]] = none := by decide
  rw [hnone] at hspec
  exact hspec reason

/-- An invocation over five bytes that a frame holds already. -/
theorem invoke_enters_relay :
    (∀ reason, ¬ Objection relay (busy .release) 0 [[42]] reason) ∧
      ∃ routine n, relay.routine? 0 = some routine ∧
        (busy .release).Entered n 0 routine.descriptor [[42]] ∧
        (List.range 4).map (routine.descriptor.initialByte [[42]]) = [42, 0, 0, 0] ∧
        ∀ (σ : Type) (run : Engine σ) (engine : σ) (seen : List Summons),
          ((busy .release).invoke relay run.recorded 0 [[42]] (engine, seen)).map
              Reply.unrecorded = (busy .release).invoke relay run 0 [[42]] engine ∧
          ((busy .release).invoke relay run.recorded 0 [[42]] (engine, seen)).map
              (fun reply => reply.engine.2) =
            (run engine n 2 1).map fun _ => seen ++ [⟨n, 2, 1⟩] := by
  rcases invoke_enters (reachable_busy .release) not_objection_busy with
    ⟨routine, n, hroutine, hentered, hrun⟩
  refine ⟨not_objection_busy, routine, n, hroutine, hentered, ?_, hrun⟩
  cases hroutine
  decide

end Entering
end Machine
end FrameMachine
