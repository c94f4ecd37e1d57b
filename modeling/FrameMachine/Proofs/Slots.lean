import FrameMachine.Proofs.Addresses
import FrameMachine.Proofs.Refusals

/-!
# Slots that resolve

The slots of a layout are checked twice: in 32-bit words when the layout is validated, and
in machine words when a slot is resolved in the window of a frame.  This file shows that
the two checks accept the same slots, as long as the window ends at a word, and that
validation reports the first slot that would not resolve.

Main results:

- Theorem `Slot.resolvesIn_iff`: a slot resolves exactly if it fits the frame.
- Theorem `Descriptor.FirstUnresolved.unique`: there is one first slot that does not resolve.
- Theorem `Descriptor.validate_agrees`: validation accepts a layout exactly if all its slots
  resolve, and otherwise reports the first one that does not.
-/

namespace FrameMachine

/-- The slot resolves to some range of the window. -/
def Slot.ResolvesIn (s : Slot) (w : Window) : Prop :=
  ∃ range, w.resolveSlot s = .ok range

/-- The window of a frame of this layout that starts at `base`. -/
def Descriptor.windowAt (d : Descriptor) (base : Nat) : Window :=
  ⟨base, d.size.toNat⟩

theorem Descriptor.windowAt_size_lt (d : Descriptor) {base : Nat}
    (hword : base + d.size.toNat < Word.count) : (d.windowAt base).size < Word.count :=
  Nat.lt_of_le_of_lt (Nat.le_add_left _ _) hword

/-! ## One slot -/

section Slot

variable {d : Descriptor} {base : Nat} {s : Slot}

/-- A slot resolves in a window that ends at a word exactly if it fits the frame. -/
theorem Slot.resolvesIn_iff (hword : base + d.size.toNat < Word.count) :
    s.ResolvesIn (d.windowAt base) ↔ s.fits d.size = true := by
  rw [Slot.fits_iff]
  constructor
  · rintro ⟨range, hrange⟩
    exact ((Window.resolve_eq_ok_iff (d.windowAt_size_lt hword)).mp hrange).1
  · intro hfit
    have hstart : base + s.offset.toNat < Word.count := by omega
    exact ⟨_, (Window.resolve_eq_ok_iff (d.windowAt_size_lt hword)).mpr ⟨hfit, hstart, rfl⟩⟩

/-- A slot that does not resolve is refused with its offset, its size and the frame size. -/
theorem Slot.resolveSlot_eq_error (hword : base + d.size.toNat < Word.count)
    (h : ¬ s.ResolvesIn (d.windowAt base)) :
    (d.windowAt base).resolveSlot s = .error ⟨s.offset.toNat, s.size.toNat, d.size.toNat⟩ := by
  have hout : d.size.toNat < s.offset.toNat + s.size.toNat := by
    rwa [Slot.resolvesIn_iff hword, Slot.fits_iff, Nat.not_le] at h
  exact (Window.resolve_eq_error_iff (d.windowAt_size_lt hword)).mpr ⟨.inl hout, rfl⟩

end Slot

/-! ## The first slot that does not resolve -/

namespace Descriptor

/-- The misfit is the first slot of a list that does not resolve in the window, with its
position and the size of the frame. -/
structure FirstOfList (w : Window) (kind : SlotKind) (slots : List Slot) (e : SlotMisfit) :
    Prop where
  kind_eq : e.kind = kind
  slot_eq : slots[e.index]? = some e.slot
  frameSize_eq : e.frameSize.toNat = w.size
  unresolved : ¬ e.slot.ResolvesIn w
  earlier : ∀ (j : Nat) (s : Slot), j < e.index → slots[j]? = some s → s.ResolvesIn w

/-- The misfit is the first slot of a layout that does not resolve in the window; the inputs
come before the outputs. -/
inductive FirstUnresolved (d : Descriptor) (w : Window) (e : SlotMisfit) : Prop
  | input (h : FirstOfList w .input d.inputs e)
  | output (hinputs : ∀ s ∈ d.inputs, s.ResolvesIn w) (h : FirstOfList w .output d.outputs e)

section Firsts

variable {d : Descriptor} {base : Nat} {w : Window} {kind : SlotKind} {slots : List Slot}
  {e e' : SlotMisfit}

theorem FirstOfList.mem (h : FirstOfList w kind slots e) : e.slot ∈ slots :=
  List.mem_of_getElem? h.slot_eq

theorem FirstOfList.index_le (h : FirstOfList w kind slots e)
    (h' : FirstOfList w kind slots e') : e.index ≤ e'.index :=
  Nat.not_lt.mp fun hlt => h'.unresolved (h.earlier _ _ hlt h'.slot_eq)

theorem FirstOfList.unique (h : FirstOfList w kind slots e)
    (h' : FirstOfList w kind slots e') : e = e' := by
  have hkind : e.kind = e'.kind := h.kind_eq.trans h'.kind_eq.symm
  have hindex : e.index = e'.index := Nat.le_antisymm (h.index_le h') (h'.index_le h)
  have hslot : some e.slot = some e'.slot := by
    rw [← h.slot_eq, ← h'.slot_eq, hindex]
  have hsize : e.frameSize = e'.frameSize :=
    UInt32.toNat.inj (h.frameSize_eq.trans h'.frameSize_eq.symm)
  rcases e with ⟨_, _, _, _⟩
  rcases e' with ⟨_, _, _, _⟩
  cases hkind
  cases hindex
  cases hslot
  cases hsize
  rfl

/-- There is only one first slot that does not resolve. -/
theorem FirstUnresolved.unique (h : d.FirstUnresolved w e) (h' : d.FirstUnresolved w e') :
    e = e' := by
  cases h with
  | input h =>
      cases h' with
      | input h' => exact h.unique h'
      | output hinputs _ => exact absurd (hinputs _ h.mem) h.unresolved
  | output hinputs h =>
      cases h' with
      | input h' => exact absurd (hinputs _ h'.mem) h'.unresolved
      | output _ h' => exact h.unique h'

theorem FirstUnresolved.exists_unresolved (h : d.FirstUnresolved w e) :
    ∃ s ∈ d.inputs ++ d.outputs, ¬ s.ResolvesIn w := by
  cases h with
  | input h => exact ⟨e.slot, List.mem_append_left _ h.mem, h.unresolved⟩
  | output _ h => exact ⟨e.slot, List.mem_append_right _ h.mem, h.unresolved⟩

/-- A list without a misfit has only slots that resolve. -/
theorem resolvesIn_of_firstMisfit?_eq_none (hword : base + d.size.toNat < Word.count)
    (h : firstMisfit? kind d.size 0 slots = none) :
    ∀ s ∈ slots, s.ResolvesIn (d.windowAt base) := by
  intro s hs
  rw [Slot.resolvesIn_iff hword, Slot.fits_iff]
  exact fits_of_firstMisfit?_eq_none h s hs

/-- The misfit of a list is its first slot that does not resolve. -/
theorem firstOfList_of_firstMisfit? (hword : base + d.size.toNat < Word.count)
    (h : firstMisfit? kind d.size 0 slots = some e) :
    FirstOfList (d.windowAt base) kind slots e := by
  rcases firstMisfit?_eq_some h with ⟨k, s, hslot, hout, rfl, hfirst⟩
  refine ⟨rfl, ?_, rfl, ?_, ?_⟩
  · simpa using hslot
  · rw [Slot.resolvesIn_iff hword, Slot.fits_iff]
    exact Nat.not_le.mpr hout
  · intro j t hj ht
    rw [Slot.resolvesIn_iff hword, Slot.fits_iff]
    refine Nat.not_lt.mp fun hout' => ?_
    have hle := hfirst j t ht hout'
    dsimp only at hj
    omega

/-- Validation accepts only layouts whose slots all resolve. -/
theorem resolvesIn_of_validate_eq_ok (hword : base + d.size.toNat < Word.count)
    (h : d.validate = .ok ()) : ∀ s ∈ d.inputs ++ d.outputs, s.ResolvesIn (d.windowAt base) := by
  rcases misfit?_eq_none_iff.mp (validate_eq_ok_iff.mp h) with ⟨hinputs, houtputs⟩
  rw [List.forall_mem_append]
  exact ⟨resolvesIn_of_firstMisfit?_eq_none hword hinputs,
    resolvesIn_of_firstMisfit?_eq_none hword houtputs⟩

/-- Validation reports the first slot that does not resolve. -/
theorem firstUnresolved_of_validate_eq_error (hword : base + d.size.toNat < Word.count)
    (h : d.validate = .error e) : d.FirstUnresolved (d.windowAt base) e := by
  have hmisfit : d.misfit? = some e := by
    unfold validate at h
    split at h
    · cases h
      assumption
    · contradiction
  unfold misfit? at hmisfit
  cases hinputs : firstMisfit? .input d.size 0 d.inputs with
  | some found =>
      rw [hinputs] at hmisfit
      cases hmisfit
      exact .input (firstOfList_of_firstMisfit? hword hinputs)
  | none =>
      rw [hinputs] at hmisfit
      exact .output (resolvesIn_of_firstMisfit?_eq_none hword hinputs)
        (firstOfList_of_firstMisfit? hword hmisfit)

/-- Take a window that has the size of a layout and ends at a word.  Validation accepts the
layout exactly if all its inputs and outputs resolve in the window.  Otherwise it reports
the first slot that does not resolve, and resolving refuses that slot with the same offset,
size and frame size. -/
theorem validate_agrees (hword : base + d.size.toNat < Word.count) :
    (d.validate = .ok () ↔
      ∀ s ∈ d.inputs ++ d.outputs, s.ResolvesIn (d.windowAt base)) ∧
    (∀ e, d.validate = .error e ↔ d.FirstUnresolved (d.windowAt base) e) ∧
    ∀ e, d.validate = .error e →
      (d.windowAt base).resolveSlot e.slot =
        .error ⟨e.slot.offset.toNat, e.slot.size.toNat, e.frameSize.toNat⟩ := by
  have herror {e : SlotMisfit} (h : d.validate = .error e) :
      d.FirstUnresolved (d.windowAt base) e := firstUnresolved_of_validate_eq_error hword h
  refine ⟨⟨resolvesIn_of_validate_eq_ok hword, ?_⟩, fun e => ⟨herror, ?_⟩, ?_⟩
  · intro hall
    cases hvalid : d.validate with
    | ok _ => rfl
    | error e =>
        rcases (herror hvalid).exists_unresolved with ⟨s, hs, hnot⟩
        exact absurd (hall s hs) hnot
  · intro hfirst
    cases hvalid : d.validate with
    | ok _ =>
        rcases hfirst.exists_unresolved with ⟨s, hs, hnot⟩
        exact absurd (resolvesIn_of_validate_eq_ok hword hvalid s hs) hnot
    | error e' => rw [hfirst.unique (herror hvalid)]
  · intro e h
    cases herror h with
    | input h => exact h.frameSize_eq ▸ Slot.resolveSlot_eq_error hword h.unresolved
    | output _ h => exact h.frameSize_eq ▸ Slot.resolveSlot_eq_error hword h.unresolved

/-- Behind a slot that ends with its frame, in a window that ends at the last word, the first
one whose end is no 32-bit word is reported, and not the one after it. -/
theorem validate_agrees_last_window :
    let d : Descriptor := ⟨8, [⟨0, 4⟩], [⟨4, 4⟩, ⟨4294967295, 2⟩, ⟨6, 4⟩]⟩
    Word.last - 8 + d.size.toNat < Word.count ∧
      d.validate = .error ⟨.output, 1, ⟨4294967295, 2⟩, 8⟩ ∧
      d.FirstUnresolved (d.windowAt (Word.last - 8)) ⟨.output, 1, ⟨4294967295, 2⟩, 8⟩ ∧
      (d.windowAt (Word.last - 8)).resolveSlot ⟨4294967295, 2⟩ = .error ⟨4294967295, 2, 8⟩ := by
  intro d
  have hword : Word.last - 8 + d.size.toNat < Word.count := by decide
  have hagree := validate_agrees (d := d) hword
  have herror : d.validate = .error ⟨.output, 1, ⟨4294967295, 2⟩, 8⟩ := by decide +kernel
  have hlast : (4294967295 : UInt32).toNat = 4294967295 := UInt32.toNat_ofNat
  have hrefused := hagree.2.2 _ herror
  rw [hlast] at hrefused
  exact ⟨hword, herror, (hagree.2.1 _).mp herror, hrefused⟩

end Firsts

end Descriptor
end FrameMachine
