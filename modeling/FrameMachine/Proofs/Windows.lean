import FrameMachine.Proofs.Soundness

/-!
# Windows inside the arena

As long as a window lies inside the arena, an access through it depends on
nothing but its size, the place of the instruction and the bytes that it holds.
This file states resolving, reading, storing and marshalling as equations for
such windows.  The complaint of a marshalling loop is computed from sizes alone:
`Window.misfit?` finds the first slot that is outside a window, `Site.outside?`
the first range, and `passing?` the first obstacle on the way of outputs back to
their caller.

Main results:

- Theorem `Window.resolve_eq`: a range resolves exactly if it fits its window.
- Theorem `passInputs_eq_writeInputs`: a CALL passes what a CALLBACK passes.
- Theorems `writeInputs_eq`, `deliver_eq`, `passOutputs_eq` and `readOutputs_eq`:
  what the marshalling loops store and bring back.
- Theorem `SameBytes.store`: equal stores keep the bytes of two windows equal.
-/

namespace FrameMachine

/-! ## Byte strings in the arena -/

namespace Arena

variable (a : Arena) (range : Address) (offset : Nat) (bytes : Bytes)

theorem getElem?_slice (k : Nat) :
    (a.slice range)[k]? = if k < range.length then a.cells[range.offset + k]? else none := by
  simp only [slice, Array.getElem?_toList, Array.getElem?_extract]
  by_cases hk : k < range.length
  · rw [if_pos hk]
    by_cases hcells : range.offset + k < a.cells.size
    · rw [if_pos (by omega)]
    · rw [if_neg (by omega), Array.getElem?_eq_none (by omega)]
  · rw [if_neg hk, if_neg (by omega)]

theorem length_slice {a : Arena} {range : Address}
    (h : range.offset + range.length ≤ a.capacity) : (a.slice range).length = range.length := by
  simp only [slice, Array.length_toList, Array.size_extract]
  simp only [capacity] at h
  omega

/-- A store outside a range leaves the bytes of the range alone. -/
theorem slice_store_of_disjoint
    (h : offset + bytes.length ≤ range.offset ∨ range.offset + range.length ≤ offset) :
    (a.store offset bytes).slice range = a.slice range := by
  apply List.ext_getElem?
  intro k
  rw [getElem?_slice, getElem?_slice, cells_store, getElem?_overwrite]
  by_cases hk : k < range.length
  · rw [if_pos hk, if_pos hk, if_neg (by omega)]
  · rw [if_neg hk, if_neg hk]

/-- Two adjacent stores are one store. -/
theorem store_append (bytes' : Bytes) :
    a.store offset (bytes ++ bytes') =
      (a.store offset bytes).store (offset + bytes.length) bytes' := by
  rcases a with ⟨cells, stackPointer⟩
  induction bytes generalizing cells offset with
  | nil => rfl
  | cons b bytes ih =>
      have hrest := ih (offset + 1) (cells.setIfInBounds offset b)
      have hplace : offset + 1 + bytes.length = offset + (bytes.length + 1) := by omega
      rw [hplace] at hrest
      exact hrest

end Arena

theorem Machine.modifyArena_store_append (m : Machine) (offset : Nat) (bytes bytes' : Bytes) :
    m.modifyArena (Arena.store offset (bytes ++ bytes')) =
      (m.modifyArena (Arena.store offset bytes)).modifyArena
        (Arena.store (offset + bytes.length) bytes') := by
  cases m
  simp only [Machine.modifyArena, Arena.store_append]

/-! ## Windows -/

/-- Every arena offset is a word. -/
theorem Config.memoryLimit_lt : Config.memoryLimit < Word.count := by decide

/-- The arena contains a range exactly if the range ends inside it, at a word. -/
theorem Arena.contains_iff {a : Arena} {range : Address} :
    a.contains range = true ↔
      range.offset + range.length < Word.count ∧ range.offset + range.length ≤ a.capacity := by
  unfold contains
  split
  · rename_i hstop
    rcases Word.add?_eq_some_iff.mp hstop with ⟨hword, rfl⟩
    simp only [decide_eq_true_eq, hword, true_and]
  · rename_i hnone
    simp only [Bool.false_eq_true, false_iff]
    intro h
    exact absurd (Word.add?_eq_some_iff.mpr ⟨h.1, rfl⟩)
      (Option.eq_none_iff_forall_ne_some.mp hnone _)

/-- A range that ends inside an arena that is no larger than the limit lies inside it. -/
theorem Arena.contains_of_le {a : Arena} {range : Address}
    (hlimit : a.capacity ≤ Config.memoryLimit)
    (h : range.offset + range.length ≤ a.capacity) : a.contains range = true := by
  have hcount := Config.memoryLimit_lt
  exact Arena.contains_iff.mpr ⟨by omega, h⟩

namespace Window

/-- The window lies inside the arena, and the arena is no larger than the limit. -/
structure Inside (w : Window) (a : Arena) : Prop where
  stop_le : w.base + w.size ≤ a.capacity
  capacity_le : a.capacity ≤ Config.memoryLimit

/-- The bytes of a window at a frame offset. -/
def part (w : Window) (a : Arena) (offset length : Nat) : Bytes :=
  a.slice ⟨w.base + offset, length⟩

/-- The first slot of a list that is outside a window. -/
def misfit? (w : Window) (slots : List Slot) : Option OutOfFrame :=
  (slots.find? fun s => w.size < s.offset.toNat + s.size.toNat).map fun s =>
    ⟨s.offset.toNat, s.size.toNat, w.size⟩

/-- The first slot of a list that is, in a window, outside the arena. -/
def beyond? (w : Window) (a : Arena) (slots : List Slot) : Option OutOfBounds :=
  (slots.find? fun s => a.capacity < w.base + s.offset.toNat + s.size.toNat).map fun s =>
    ⟨w.base + s.offset.toNat, s.size.toNat, a.capacity⟩

section Inside

variable {w : Window} {a : Arena} {offset length : Nat}

/-- The end of a window inside the arena is a word. -/
theorem Inside.stop_lt (h : w.Inside a) : w.base + w.size < Word.count := by
  have hstop := h.stop_le
  have hcapacity := h.capacity_le
  have hlimit := Config.memoryLimit_lt
  omega

theorem Inside.store (h : w.Inside a) (offset : Nat) (bytes : Bytes) :
    w.Inside (a.store offset bytes) where
  stop_le := (Arena.capacity_store a offset bytes).symm ▸ h.stop_le
  capacity_le := (Arena.capacity_store a offset bytes).symm ▸ h.capacity_le

/-- A range resolves exactly if it fits the window. -/
theorem resolve_eq (h : w.Inside a) :
    w.resolve offset length =
      if offset + length ≤ w.size then .ok ⟨w.base + offset, length⟩
      else .error ⟨offset, length, w.size⟩ := by
  have hstop := h.stop_le
  have hcapacity := h.capacity_le
  have hlimit := Config.memoryLimit_lt
  rw [resolve_eq_ite]
  by_cases hfit : offset + length ≤ w.size
  · rw [if_pos hfit, if_pos ⟨hfit, by omega, by omega⟩]
  · rw [if_neg hfit, if_neg (fun hsum => hfit hsum.1)]

theorem contains_eq (h : w.Inside a) (hfit : offset + length ≤ w.size) :
    a.contains ⟨w.base + offset, length⟩ = true := by
  have hstop := h.stop_le
  apply Arena.contains_of_le h.capacity_le
  dsimp only
  omega

theorem beyond?_eq_none_iff {slots : List Slot} :
    w.beyond? a slots = none ↔
      ∀ s ∈ slots, w.base + s.offset.toNat + s.size.toNat ≤ a.capacity := by
  simp [beyond?]

theorem length_part (h : w.Inside a) (hfit : offset + length ≤ w.size) :
    (w.part a offset length).length = length := by
  have hstop := h.stop_le
  apply Arena.length_slice
  dsimp only
  omega

/-- A store outside a window leaves the bytes of the window alone. -/
theorem part_store_of_disjoint {target : Nat} {bytes : Bytes}
    (h : target + bytes.length ≤ w.base ∨ w.base + w.size ≤ target)
    (hfit : offset + length ≤ w.size) :
    w.part (a.store target bytes) offset length = w.part a offset length := by
  apply Arena.slice_store_of_disjoint
  dsimp only
  omega

end Inside

/-! ## The bytes of two windows -/

/-- Two windows of one size hold the same bytes, each in its own arena. -/
structure SameBytes (w w' : Window) (a a' : Arena) : Prop where
  size_eq : w.size = w'.size
  bytes_eq : ∀ k < w.size, a.cells[w.base + k]? = a'.cells[w'.base + k]?

section SameBytes

variable {w w' : Window} {a a' : Arena} {offset length : Nat} {bytes : Bytes}

theorem SameBytes.refl (w : Window) (a : Arena) : SameBytes w w a a :=
  ⟨rfl, fun _ _ => rfl⟩

theorem SameBytes.part_eq (h : SameBytes w w' a a') (hfit : offset + length ≤ w.size) :
    w.part a offset length = w'.part a' offset length := by
  apply List.ext_getElem?
  intro k
  simp only [part, Arena.getElem?_slice]
  by_cases hk : k < length
  · have hbyte := h.bytes_eq (offset + k) (by omega)
    simpa only [if_pos hk, Nat.add_assoc] using hbyte
  · rw [if_neg hk, if_neg hk]

/-- Only the bytes inside the two windows matter. -/
theorem SameBytes.congr {b b' : Arena} (h : SameBytes w w' a a')
    (hbytes : ∀ k < w.base + w.size, b.cells[k]? = a.cells[k]?)
    (hbytes' : ∀ k < w'.base + w'.size, b'.cells[k]? = a'.cells[k]?) :
    SameBytes w w' b b' where
  size_eq := h.size_eq
  bytes_eq k hk := by
    have hsize := h.size_eq
    rw [hbytes _ (by omega), hbytes' _ (by omega)]
    exact h.bytes_eq k hk

/-- Equal stores at one offset keep the bytes of two windows equal. -/
theorem SameBytes.store (h : SameBytes w w' a a') (hin : w.Inside a) (hin' : w'.Inside a')
    (offset : Nat) (bytes : Bytes) :
    SameBytes w w' (a.store (w.base + offset) bytes) (a'.store (w'.base + offset) bytes) where
  size_eq := h.size_eq
  bytes_eq k hk := by
    have hsize := h.size_eq
    have hstop := hin.stop_le
    have hstop' := hin'.stop_le
    simp only [Arena.capacity] at hstop hstop'
    simp only [Arena.cells_store, getElem?_overwrite]
    by_cases hbyte : offset ≤ k ∧ k < offset + bytes.length
    · rw [if_pos (by omega), if_pos (by omega),
        show w.base + k - (w.base + offset) = k - offset by omega,
        show w'.base + k - (w'.base + offset) = k - offset by omega]
    · rw [if_neg (by omega), if_neg (by omega)]
      exact h.bytes_eq k hk

end SameBytes

/-- Store one byte string after another in its slot. -/
def storeSlots (w : Window) : List (Slot × Bytes) → Arena → Arena
  | [] => fun a => a
  | (s, bytes) :: rest => fun a => w.storeSlots rest (a.store (w.base + s.offset.toNat) bytes)

section StoreSlots

variable {w w' : Window} {a a' : Arena}

@[simp]
theorem stackPointer_storeSlots (w : Window) (inputs : List (Slot × Bytes)) (a : Arena) :
    (w.storeSlots inputs a).stackPointer = a.stackPointer := by
  induction inputs generalizing a with
  | nil => rfl
  | cons input rest ih => exact ih _

@[simp]
theorem capacity_storeSlots (w : Window) (inputs : List (Slot × Bytes)) (a : Arena) :
    (w.storeSlots inputs a).capacity = a.capacity := by
  induction inputs generalizing a with
  | nil => rfl
  | cons input rest ih => exact (ih _).trans (Arena.capacity_store ..)

/-- Equal inputs in two windows keep the bytes of the windows equal. -/
theorem SameBytes.storeSlots (h : SameBytes w w' a a') (hin : w.Inside a) (hin' : w'.Inside a')
    (inputs : List (Slot × Bytes)) :
    SameBytes w w' (w.storeSlots inputs a) (w'.storeSlots inputs a') := by
  induction inputs generalizing a a' with
  | nil => exact h
  | cons input rest ih =>
      exact ih (h.store hin hin' _ _) (hin.store _ _) (hin'.store _ _)

/-- Inputs of a window do not change a byte below it. -/
theorem getElem?_storeSlots_of_lt {k : Nat} (hk : k < w.base) (inputs : List (Slot × Bytes))
    (a : Arena) : (w.storeSlots inputs a).cells[k]? = a.cells[k]? := by
  induction inputs generalizing a with
  | nil => rfl
  | cons input rest ih =>
      have hrest := ih (a.store (w.base + input.1.offset.toNat) input.2)
      rw [Arena.cells_store, getElem?_overwrite, if_neg (by omega)] at hrest
      exact hrest

end StoreSlots
end Window

/-! ## Slots of a valid layout -/

theorem Slot.fits_iff {s : Slot} {frameSize : UInt32} :
    s.fits frameSize = true ↔ s.offset.toNat + s.size.toNat ≤ frameSize.toNat := by
  unfold Slot.fits Slot.stop?
  split
  · rename_i stop hstop
    split at hstop
    · rename_i hlt
      cases hstop
      rw [decide_eq_true_iff, UInt32.le_iff_toNat_le, UInt32.toNat_add,
        Nat.mod_eq_of_lt hlt]
    · contradiction
  · rename_i hstop
    split at hstop
    · contradiction
    · have hsize := frameSize.toNat_lt
      simp only [Bool.false_eq_true, false_iff]
      simp only [UInt32.size] at *
      omega

theorem fits_of_firstMisfit?_eq_none {kind : SlotKind} {frameSize : UInt32} {index : Nat}
    {slots : List Slot} (h : firstMisfit? kind frameSize index slots = none) :
    ∀ s ∈ slots, s.offset.toNat + s.size.toNat ≤ frameSize.toNat := by
  induction slots generalizing index with
  | nil => simp
  | cons s slots ih =>
      unfold firstMisfit? at h
      split at h
      · intro t ht
        rcases List.mem_cons.mp ht with rfl | ht
        · exact Slot.fits_iff.mp (by assumption)
        · exact ih h t ht
      · contradiction

theorem Window.misfit?_eq_none_iff {w : Window} {slots : List Slot} :
    w.misfit? slots = none ↔ ∀ s ∈ slots, s.offset.toNat + s.size.toNat ≤ w.size := by
  simp [Window.misfit?]

section Valid

variable {d : Descriptor} {base : Nat}

theorem Descriptor.misfit?_eq_none_iff :
    d.misfit? = none ↔ firstMisfit? .input d.size 0 d.inputs = none ∧
      firstMisfit? .output d.size 0 d.outputs = none := by
  unfold Descriptor.misfit?
  cases firstMisfit? .input d.size 0 d.inputs <;> simp

theorem Descriptor.validate_eq_ok_iff : d.validate = .ok () ↔ d.misfit? = none := by
  unfold Descriptor.validate
  cases d.misfit? <;> simp

/-- All inputs of a valid layout lie inside the frame. -/
theorem Descriptor.inputs_fit (h : d.misfit? = none) (base : Nat) :
    (Window.mk base d.size.toNat).misfit? d.inputs = none :=
  Window.misfit?_eq_none_iff.mpr
    (fits_of_firstMisfit?_eq_none (Descriptor.misfit?_eq_none_iff.mp h).1)

/-- All outputs of a valid layout lie inside the frame. -/
theorem Descriptor.outputs_fit (h : d.misfit? = none) (base : Nat) :
    (Window.mk base d.size.toNat).misfit? d.outputs = none :=
  Window.misfit?_eq_none_iff.mpr
    (fits_of_firstMisfit?_eq_none (Descriptor.misfit?_eq_none_iff.mp h).2)

end Valid

/-! ## Marshalling between the host and a window -/

namespace Machine

/-- The result of an action: the fault that stands in its way, if any, with the
stack pointer at `pointer`, and otherwise `answer` and the machine `done`. -/
def Brings {α : Type} (obstacle : Option Fault) (pointer : Nat) (answer : α) (done : Machine)
    (result : EStateM.Result Fault Machine α) : Prop :=
  match obstacle with
  | none => result = .ok answer done
  | some cause => ∃ m, result = .error cause m ∧ m.arena.stackPointer = pointer

section Slots

variable {w : Window} {a : Arena} {m : Machine} {s : Slot} {slots : List Slot}

theorem slotRange_eq (h : w.Inside a) :
    slotRange w s =
      if s.offset.toNat + s.size.toNat ≤ w.size then
        .ok ⟨w.base + s.offset.toNat, s.size.toNat⟩
      else .error (.slotOutOfFrame ⟨s.offset.toNat, s.size.toNat, w.size⟩) := by
  unfold slotRange Window.resolveSlot
  rw [Window.resolve_eq h]
  split <;> rfl

theorem bytesAt_eq (h : w.Inside m.arena) {offset length : Nat}
    (hfit : offset + length ≤ w.size) :
    m.bytesAt ⟨w.base + offset, length⟩ = .ok (w.part m.arena offset length) := by
  unfold bytesAt Arena.read
  rw [if_pos (Window.contains_eq h hfit)]
  rfl

/-- Writing into a window stores the bytes if they fit. -/
theorem writeBytes_of_fit (h : w.Inside m.arena) {offset : Nat} {bytes : Bytes}
    (hfit : offset + bytes.length ≤ w.size) :
    writeBytes (w.base + offset) bytes m =
      .ok () (m.modifyArena (Arena.store (w.base + offset) bytes)) := by
  rw [writeBytes_eq, if_pos (Window.contains_eq h hfit)]

/-- Inputs that have the lengths of their slots are all stored, or the first slot
outside the window is the fault. -/
theorem writeInputs_eq {inputs : List (Slot × Bytes)} (h : w.Inside m.arena)
    (hlength : ∀ p ∈ inputs, p.2.length = p.1.size.toNat) :
    Brings ((w.misfit? (inputs.map Prod.fst)).map .slotOutOfFrame) m.arena.stackPointer ()
      (m.modifyArena (w.storeSlots inputs)) (writeInputs w inputs m) := by
  induction inputs generalizing m with
  | nil => exact rfl
  | cons input rest ih =>
      rcases input with ⟨s, bytes⟩
      have hbytes : bytes.length = s.size.toNat := hlength ⟨s, bytes⟩ (List.mem_cons_self ..)
      simp only [writeInputs, bind, EStateM.bind, slotRange_eq h, check, Window.misfit?,
        List.map_cons, List.find?_cons]
      by_cases hfit : s.offset.toNat + s.size.toNat ≤ w.size
      · rw [if_pos hfit]
        simp only [writeBytes_of_fit h (hbytes ▸ hfit), decide_eq_false (Nat.not_lt.mpr hfit)]
        apply ih (m := m.modifyArena (Arena.store (w.base + s.offset.toNat) bytes)) (h.store _ _)
        intro p hp
        exact hlength p (List.mem_cons_of_mem _ hp)
      · rw [if_neg hfit]
        simp only [decide_eq_true (Nat.not_le.mp hfit)]
        exact ⟨m, rfl, rfl⟩

/-- The bytes of a slot that fits its window, as far as the arena goes. -/
theorem slotBytes_of_fit (hstop : w.base + w.size < Word.count)
    (hfit : s.offset.toNat + s.size.toNat ≤ w.size) :
    m.slotBytes w s =
      if w.base + s.offset.toNat + s.size.toNat ≤ m.arena.capacity then
        .ok (w.part m.arena s.offset.toNat s.size.toNat)
      else .error (.memory ⟨w.base + s.offset.toNat, s.size.toNat, m.arena.capacity⟩) := by
  have hrange : slotRange w s = .ok ⟨w.base + s.offset.toNat, s.size.toNat⟩ := by
    unfold slotRange Window.resolveSlot
    rw [Window.resolve_eq_ite, if_pos ⟨hfit, by omega, by omega⟩]
    rfl
  have hcontains : m.arena.contains ⟨w.base + s.offset.toNat, s.size.toNat⟩ = true ↔
      w.base + s.offset.toNat + s.size.toNat ≤ m.arena.capacity := by
    rw [Arena.contains_iff, and_iff_right (by dsimp only; omega)]
  simp only [slotBytes, hrange, bind, Except.bind, bytesAt, Arena.read, hcontains]
  split <;> rfl

/-- The outputs of a window all of whose slots fit are the bytes of the slots, or the first
slot outside the arena is the fault. -/
theorem readOutputs_of_fit (hstop : w.base + w.size < Word.count)
    (hfit : w.misfit? slots = none) :
    m.readOutputs w slots =
      match w.beyond? m.arena slots with
      | some access => .error (.memory access)
      | none => .ok (slots.map fun s => w.part m.arena s.offset.toNat s.size.toNat) := by
  rw [Window.misfit?_eq_none_iff] at hfit
  unfold readOutputs Window.beyond?
  induction slots with
  | nil => rfl
  | cons s slots ih =>
      have hhead := slotBytes_of_fit (m := m) hstop (hfit s (List.mem_cons_self ..))
      have hrest := ih fun t ht => hfit t (List.mem_cons_of_mem _ ht)
      rw [List.mapM_cons, hhead, hrest, List.find?_cons]
      by_cases hin : w.base + s.offset.toNat + s.size.toNat ≤ m.arena.capacity
      · rw [if_pos hin, decide_eq_false (Nat.not_lt.mpr hin)]
        cases slots.find? _ <;> rfl
      · rw [if_neg hin, decide_eq_true (Nat.not_le.mp hin)]
        rfl

/-- The outputs of a window inside the arena all of whose slots fit are the bytes of the
slots. -/
theorem readOutputs_eq (h : w.Inside m.arena) (hfit : w.misfit? slots = none) :
    m.readOutputs w slots =
      .ok (slots.map fun s => w.part m.arena s.offset.toNat s.size.toNat) := by
  have hinside : w.beyond? m.arena slots = none := by
    rw [Window.beyond?_eq_none_iff]
    intro s hs
    have hstop := h.stop_le
    have hslot := Window.misfit?_eq_none_iff.mp hfit s hs
    omega
  rw [readOutputs_of_fit h.stop_lt hfit, hinside]

end Slots
end Machine

/-! ## Marshalling between two windows -/

namespace Site

/-- The first range of a list that is outside the window of an instruction. -/
def outside? (site : Site) (ranges : List (Nat × Nat)) : Option Fault :=
  (ranges.find? fun range => site.window.size < range.1 + range.2).map fun range =>
    .outOfFrame site.location ⟨range.1, range.2, site.window.size⟩

/-- Ranges of the window of an instruction as ranges of the arena. -/
def ranges (site : Site) (ranges : List (Nat × Nat)) : List Address :=
  ranges.map fun range => ⟨site.window.base + range.1, range.2⟩

/-- The bytes of ranges of the window of an instruction. -/
def parts (site : Site) (m : Machine) (ranges : List (Nat × Nat)) : List Bytes :=
  ranges.map fun range => site.window.part m.arena range.1 range.2

variable {site : Site} {m : Machine} {a : Arena} {offset length : Nat}

theorem resolve_eq (h : site.window.Inside a) :
    site.resolve offset length =
      if offset + length ≤ site.window.size then .ok ⟨site.window.base + offset, length⟩
      else .error (.outOfFrame site.location ⟨offset, length, site.window.size⟩) := by
  unfold resolve
  rw [Window.resolve_eq h]
  split <;> rfl

theorem operand_eq (h : site.window.Inside m.arena) :
    site.operand m offset length =
      if offset + length ≤ site.window.size then .ok (site.window.part m.arena offset length)
      else .error (.outOfFrame site.location ⟨offset, length, site.window.size⟩) := by
  unfold operand
  rw [resolve_eq h]
  by_cases hfit : offset + length ≤ site.window.size
  · rw [if_pos hfit, if_pos hfit]
    exact Machine.bytesAt_eq h hfit
  · rw [if_neg hfit, if_neg hfit]
    rfl

/-- What is done with each range of a list is done, or the first range outside
the window is the fault. -/
theorem mapM_ranges {α : Type} {act : Nat × Nat → Except Fault α} {value : Nat × Nat → α}
    (hact : ∀ range, act range =
      if range.1 + range.2 ≤ site.window.size then .ok (value range)
      else .error (.outOfFrame site.location ⟨range.1, range.2, site.window.size⟩))
    (ranges : List (Nat × Nat)) :
    ranges.mapM act =
      match site.outside? ranges with
      | some cause => .error cause
      | none => .ok (ranges.map value) := by
  induction ranges with
  | nil => rfl
  | cons range ranges ih =>
      rw [List.mapM_cons, hact, ih]
      by_cases hfit : range.1 + range.2 ≤ site.window.size
      · have hhead : site.outside? (range :: ranges) = site.outside? ranges := by
          simp [outside?, decide_eq_false (Nat.not_lt.mpr hfit)]
        rw [if_pos hfit, hhead]
        cases site.outside? ranges <;> rfl
      · have hhead : site.outside? (range :: ranges) =
            some (.outOfFrame site.location ⟨range.1, range.2, site.window.size⟩) := by
          simp [outside?, decide_eq_true (Nat.not_le.mp hfit)]
        rw [if_neg hfit, hhead]
        rfl

end Site

namespace Interpreter

open Machine

/-- What stands in the way of outputs that a return copies to `offset` of its
caller: for each slot in turn, the slot or its place in the caller. -/
def passing? (w : Window) (caller : Site) : (offset : Nat) → List Slot → Option Fault
  | _, [] => none
  | offset, s :: slots =>
      if w.size < s.offset.toNat + s.size.toNat then
        some (.slotOutOfFrame ⟨s.offset.toNat, s.size.toNat, w.size⟩)
      else if caller.window.size < offset + s.size.toNat then
        some (.outOfFrame caller.location ⟨offset, s.size.toNat, caller.window.size⟩)
      else passing? w caller (offset + s.size.toNat) slots

section Passing

variable {w : Window} {site caller : Site} {m : Machine} {offset : Nat} {slots : List Slot}

/-- If all slots fit, only the places in the caller can stand in the way. -/
theorem passing?_eq_outside? (h : w.misfit? slots = none) (offset : Nat) :
    passing? w caller offset slots = caller.outside? (backToBack offset slots) := by
  rw [Window.misfit?_eq_none_iff] at h
  induction slots generalizing offset with
  | nil => rfl
  | cons s slots ih =>
      have hs := h s (List.mem_cons_self ..)
      have htail : ∀ t ∈ slots, t.offset.toNat + t.size.toNat ≤ w.size := by
        intro t ht
        exact h t (List.mem_cons_of_mem _ ht)
      have hrest := ih htail (offset + s.size.toNat)
      simp only [passing?, Site.outside?, backToBack, List.find?_cons] at hrest ⊢
      rw [if_neg (Nat.not_lt.mpr hs), hrest]
      by_cases hplace : caller.window.size < offset + s.size.toNat <;> simp [hplace]

/-- Outputs that pass are inside their own window. -/
theorem misfit?_of_passing? (h : passing? w caller offset slots = none) :
    w.misfit? slots = none := by
  rw [Window.misfit?_eq_none_iff]
  induction slots generalizing offset with
  | nil => simp
  | cons s slots ih =>
      simp only [passing?] at h
      split at h
      · contradiction
      · rename_i hs
        split at h
        · contradiction
        · intro t ht
          rcases List.mem_cons.mp ht with rfl | ht
          · exact Nat.le_of_not_lt hs
          · exact ih h t ht

/-- What stands in the way depends on sizes and on the place in the program. -/
theorem passing?_congr {w' : Window} {caller' : Site} (hsize : w.size = w'.size)
    (hplace : caller.window.size = caller'.window.size)
    (hlocation : caller.location = caller'.location) (offset : Nat) (slots : List Slot) :
    passing? w caller offset slots = passing? w' caller' offset slots := by
  induction slots generalizing offset with
  | nil => rfl
  | cons s slots ih => simp only [passing?, hsize, hplace, hlocation, ih]

/-- Outputs that have the lengths of their slots are delivered as one byte
string, or the first place outside the window is the fault. -/
theorem deliver_eq (site : Site) (offset : Nat) (slots : List Slot) {value : Slot → Bytes}
    (h : site.window.Inside m.arena)
    (hlength : ∀ s ∈ slots, (value s).length = s.size.toNat) :
    Brings (site.outside? (backToBack offset slots)) m.arena.stackPointer ()
      (m.modifyArena (Arena.store (site.window.base + offset) (slots.map value).flatten))
      (deliver site offset (slots.map value) m) := by
  induction slots generalizing m offset with
  | nil => exact rfl
  | cons s slots ih =>
      have hs := hlength s (List.mem_cons_self ..)
      simp only [List.map_cons, deliver, bind, EStateM.bind, Site.resolve_eq h, check, hs,
        Site.outside?, backToBack, List.find?_cons, List.flatten_cons]
      by_cases hfit : offset + s.size.toNat ≤ site.window.size
      · rw [if_pos hfit]
        simp only [writeBytes_of_fit h (hs ▸ hfit), decide_eq_false (Nat.not_lt.mpr hfit)]
        rw [modifyArena_store_append, hs, Nat.add_assoc]
        apply ih (m := m.modifyArena (Arena.store (site.window.base + offset) (value s)))
          (offset + s.size.toNat) (h.store _ _)
        intro t ht
        exact hlength t (List.mem_cons_of_mem _ ht)
      · rw [if_neg hfit]
        simp only [decide_eq_true (Nat.not_le.mp hfit)]
        exact ⟨m, rfl, rfl⟩

/-- A return copies the outputs to its caller as one byte string, unless
something stands in the way.  The two windows are disjoint, so that the bytes
are those from before. -/
theorem passOutputs_eq (w : Window) (caller : Site) (offset : Nat) (slots : List Slot)
    (h : w.Inside m.arena) (hcaller : caller.window.Inside m.arena)
    (hbelow : caller.window.base + caller.window.size ≤ w.base) :
    Brings (passing? w caller offset slots) m.arena.stackPointer ()
      (m.modifyArena (Arena.store (caller.window.base + offset)
        (slots.map fun s => w.part m.arena s.offset.toNat s.size.toNat).flatten))
      (passOutputs w caller (slots.zip (backToBack offset slots)) m) := by
  induction slots generalizing m offset with
  | nil => exact rfl
  | cons s slots ih =>
      simp only [List.map_cons, backToBack, List.zip_cons_cons, passOutputs, bind, EStateM.bind,
        slotRange_eq h, Site.resolve_eq hcaller, check, passing?, List.flatten_cons]
      by_cases hfit : s.offset.toNat + s.size.toNat ≤ w.size
      · by_cases hplace : offset + s.size.toNat ≤ caller.window.size
        · rw [if_pos hfit, if_pos hplace, if_neg (Nat.not_lt.mpr hfit),
            if_neg (Nat.not_lt.mpr hplace)]
          have hbytes := Window.length_part h hfit
          have hcopy : copyBytes ⟨w.base + s.offset.toNat, s.size.toNat⟩
              (caller.window.base + offset) m =
                .ok () (m.modifyArena (Arena.store (caller.window.base + offset)
                  (w.part m.arena s.offset.toNat s.size.toNat))) := by
            rw [copyBytes_eq, if_pos (Window.contains_eq h hfit),
              if_pos (Window.contains_eq hcaller hplace)]
            rfl
          have hparts : ∀ t : Slot,
              w.part (m.arena.store (caller.window.base + offset)
                (w.part m.arena s.offset.toNat s.size.toNat)) t.offset.toNat t.size.toNat =
                w.part m.arena t.offset.toNat t.size.toNat := by
            intro t
            apply Arena.slice_store_of_disjoint
            dsimp only
            omega
          have hrest := ih (m := m.modifyArena (Arena.store (caller.window.base + offset)
            (w.part m.arena s.offset.toNat s.size.toNat)))
            (offset + s.size.toNat) (h.store _ _) (hcaller.store _ _)
          simp only [arena_modifyArena, hparts] at hrest
          simp only [hcopy]
          rw [modifyArena_store_append, hbytes, Nat.add_assoc]
          exact hrest
        · rw [if_pos hfit, if_neg hplace, if_neg (Nat.not_lt.mpr hfit),
            if_pos (Nat.not_le.mp hplace)]
          exact ⟨m, rfl, rfl⟩
      · rw [if_neg hfit, if_pos (Nat.not_le.mp hfit)]
        exact ⟨m, rfl, rfl⟩

/-- A CALL passes to its callee what a CALLBACK passes: the bytes of the sources,
which lie below the callee's window. -/
theorem passInputs_eq_writeInputs {sources : List Address} (slots : List Slot)
    (h : w.Inside m.arena) (hbelow : ∀ source ∈ sources, source.offset + source.length ≤ w.base) :
    passInputs w (sources.zip slots) m =
      writeInputs w (slots.zip (sources.map m.arena.slice)) m := by
  induction sources generalizing m slots with
  | nil => cases slots <;> rfl
  | cons source sources ih =>
      cases slots with
      | nil => rfl
      | cons s slots =>
          have hsource := hbelow source (List.mem_cons_self ..)
          have hstop := h.stop_le
          have hin : m.arena.contains source = true :=
            Arena.contains_of_le h.capacity_le (by omega)
          have hlength : (m.arena.slice source).length = source.length :=
            Arena.length_slice (by omega)
          simp only [List.map_cons, List.zip_cons_cons, passInputs, writeInputs, bind,
            EStateM.bind, slotRange_eq h]
          by_cases hfit : s.offset.toNat + s.size.toNat ≤ w.size
          · simp only [if_pos hfit, check, copyBytes_eq, writeBytes_eq, hin, hlength, if_true]
            by_cases htarget :
                m.arena.contains ⟨w.base + s.offset.toNat, source.length⟩ = true
            · have hslices : sources.map (Arena.slice (m.arena.store (w.base + s.offset.toNat)
                  (m.arena.slice source))) = sources.map m.arena.slice := by
                apply List.map_congr_left
                intro r hr
                have hr := hbelow r (List.mem_cons_of_mem _ hr)
                exact Arena.slice_store_of_disjoint _ _ _ _ (Or.inr (by omega))
              have htail : ∀ r ∈ sources, r.offset + r.length ≤ w.base := by
                intro r hr
                exact hbelow r (List.mem_cons_of_mem _ hr)
              have hrest := ih slots (m := m.modifyArena
                (Arena.store (w.base + s.offset.toNat) (m.arena.slice source)))
                (h.store _ _) htail
              rw [arena_modifyArena, hslices] at hrest
              simpa only [if_pos htarget] using hrest
            · simp only [if_neg htarget]
          · simp only [if_neg hfit, check]

end Passing
end Interpreter
end FrameMachine
