import FrameMachine.Window

/-!
# Addresses inside windows

A frame offset becomes an absolute range in one place, and this file says what that range
is worth.  Resolving checks that the end of the range is a frame offset and that its start
is a word, but it does not look at the absolute end.  In a window that runs past the last
word a range may therefore resolve whose end is no word; in any other window the end of a
resolved range is a word inside the window.

Two windows share a byte exactly if each starts before the other stops, unless one of them
is empty.  The test for an overlap does not treat empty windows apart: it also holds for an
empty window that lies strictly within another one.

Main results:

- Theorems `resolve_eq_ok_iff` and `resolve_eq_error_iff`: which ranges resolve.
- Theorem `resolve_stays_inside`: where a resolved range lies, and when its end is a word.
- Theorem `overlaps_iff_shares`: which windows pass the test for an overlap.
-/

namespace FrameMachine

namespace Address

/-- The end of a range is absent exactly if it is no word. -/
theorem stop?_eq_none_iff {range : Address} :
    range.stop? = none ↔ Word.count ≤ range.offset + range.length := by
  simp [stop?, Word.add?]

theorem stop?_eq_some_iff {range : Address} {stop : Nat} :
    range.stop? = some stop ↔
      range.offset + range.length < Word.count ∧ stop = range.offset + range.length :=
  Word.add?_eq_some_iff

end Address

namespace Window

/-! ## Resolved ranges -/

section Resolving

variable {w : Window} {offset length : Nat}

/-- A range resolves exactly if it ends within the frame and starts at a word. -/
theorem resolve_eq_ok_iff (hsize : w.size < Word.count) {range : Address} :
    w.resolve offset length = .ok range ↔
      offset + length ≤ w.size ∧ w.base + offset < Word.count ∧
        range = ⟨w.base + offset, length⟩ := by
  rw [resolve_eq_ite]
  split
  · rename_i h
    simp [h, eq_comm]
  · rename_i h
    constructor
    · nofun
    · rintro ⟨hfit, hstart, -⟩
      exact absurd ⟨hfit, by omega, hstart⟩ h

/-- Any other range is refused with its offset, its length and the size of the frame. -/
theorem resolve_eq_error_iff (hsize : w.size < Word.count) {e : OutOfFrame} :
    w.resolve offset length = .error e ↔
      (w.size < offset + length ∨ Word.count ≤ w.base + offset) ∧
        e = ⟨offset, length, w.size⟩ := by
  rw [resolve_eq_ite]
  split
  · rename_i h
    constructor
    · nofun
    · rintro ⟨hmiss, -⟩
      omega
  · rename_i h
    have hmiss : w.size < offset + length ∨ Word.count ≤ w.base + offset := by omega
    simp [hmiss, eq_comm]

/-- A range that ends within the frame starts inside the window, and if its end is a word,
it also ends there. -/
theorem bounds_of_fit (hfit : offset + length ≤ w.size) (hstart : w.base + offset < Word.count) :
    w.base + offset ≤ w.stop ∧
      (w.base + offset + length < Word.count → w.base + offset + length ≤ w.stop) := by
  simp only [stop, Word.addCapped, Word.last]
  omega

/-- A range resolves exactly if it ends within the frame and starts at a word; any other one
is refused, with its offset, its length and the size of the frame.  A resolved range has
the given length and starts inside the window.  Its end is missing exactly if the sum of
base, offset and length is no word; otherwise it also ends inside the window.  So a window
whose own end is a word has a resolved range for all that fits the frame, and each of these
ends inside the window. -/
theorem resolve_stays_inside (hsize : w.size < Word.count) (offset length : Nat) :
    (∀ range, w.resolve offset length = .ok range ↔
      offset + length ≤ w.size ∧ w.base + offset < Word.count ∧
        range = ⟨w.base + offset, length⟩) ∧
    (∀ e, w.resolve offset length = .error e ↔
      (w.size < offset + length ∨ Word.count ≤ w.base + offset) ∧
        e = ⟨offset, length, w.size⟩) ∧
    (∀ range, w.resolve offset length = .ok range →
      w.base ≤ range.offset ∧ range.offset ≤ w.stop ∧
      (range.stop? = none ↔ Word.count ≤ w.base + offset + length) ∧
      ∀ stop, range.stop? = some stop → range.offset ≤ stop ∧ stop ≤ w.stop) ∧
    (w.base + w.size < Word.count → offset + length ≤ w.size →
      w.resolve offset length = .ok ⟨w.base + offset, length⟩ ∧
      (⟨w.base + offset, length⟩ : Address).stop? = some (w.base + offset + length) ∧
      w.base + offset + length ≤ w.stop) := by
  refine ⟨fun range => resolve_eq_ok_iff hsize, fun e => resolve_eq_error_iff hsize, ?_, ?_⟩
  · intro range hrange
    rcases (resolve_eq_ok_iff hsize).mp hrange with ⟨hfit, hstart, rfl⟩
    have hbounds := bounds_of_fit hfit hstart
    refine ⟨Nat.le_add_right _ _, hbounds.1, Address.stop?_eq_none_iff, ?_⟩
    intro stop hstop
    rcases Address.stop?_eq_some_iff.mp hstop with ⟨hword, rfl⟩
    exact ⟨Nat.le_add_right _ _, hbounds.2 hword⟩
  · intro hend hfit
    have hstart : w.base + offset < Word.count := by omega
    have hstop : w.base + offset + length < Word.count := by omega
    exact ⟨(resolve_eq_ok_iff hsize).mpr ⟨hfit, hstart, rfl⟩,
      Address.stop?_eq_some_iff.mpr ⟨hstop, rfl⟩, (bounds_of_fit hfit hstart).2 hstop⟩

/-- Two bytes at the start of a window that runs past the last word resolve to a range that
ends there. -/
theorem resolve_stays_inside_last :
    (8 : Nat) < Word.count ∧
      (⟨Word.last - 2, 8⟩ : Window).resolve 0 2 = .ok ⟨Word.last - 2, 2⟩ ∧
      Word.last - 2 ≤ (⟨Word.last - 2, 8⟩ : Window).stop ∧
      ∀ stop, (⟨Word.last - 2, 2⟩ : Address).stop? = some stop →
        Word.last - 2 ≤ stop ∧ stop ≤ (⟨Word.last - 2, 8⟩ : Window).stop := by
  have hsize : (8 : Nat) < Word.count := by decide
  have hstays := resolve_stays_inside (w := ⟨Word.last - 2, 8⟩) hsize 0 2
  have hresolve : (⟨Word.last - 2, 8⟩ : Window).resolve 0 2 = .ok ⟨Word.last - 2, 2⟩ :=
    (hstays.1 _).mpr ⟨by decide, by decide, rfl⟩
  rcases hstays.2.2.1 _ hresolve with ⟨-, hstart, -, hstop⟩
  exact ⟨hsize, hresolve, hstart, hstop⟩

/-- A range that fits its frame resolves although it runs past the last word. -/
theorem resolve_past_last_word :
    Word.last - 2 < Word.count ∧ (8 : Nat) < Word.count ∧
      (⟨Word.last - 2, 8⟩ : Window).resolve 2 4 = .ok ⟨Word.last, 4⟩ ∧
      (⟨Word.last, 4⟩ : Address).stop? = none := by
  have hsize : (8 : Nat) < Word.count := by decide
  refine ⟨by decide, hsize, ?_, by decide⟩
  exact (resolve_eq_ok_iff hsize).mpr ⟨by decide, by decide, rfl⟩

end Resolving

/-! ## Shared bytes -/

/-- The window holds the arena byte at an offset. -/
def Covers (w : Window) (k : Nat) : Prop := w.base ≤ k ∧ k < w.base + w.size

/-- The window is empty and lies strictly within another one. -/
def EmptyWithin (w v : Window) : Prop :=
  w.size = 0 ∧ v.base < w.base ∧ w.base < v.base + v.size

section Sharing

variable {w v : Window}

/-- An empty window holds no byte. -/
theorem not_covers_of_size_eq_zero (h : w.size = 0) (k : Nat) : ¬ w.Covers k := by
  simp only [Covers]
  omega

/-- Windows that hold bytes share one exactly if each starts before the end of the other. -/
theorem exists_covers_iff (hw : 0 < w.size) (hv : 0 < v.size) :
    (∃ k, w.Covers k ∧ v.Covers k) ↔
      w.base < v.base + v.size ∧ v.base < w.base + w.size := by
  simp only [Covers]
  constructor
  · rintro ⟨k, hk⟩
    omega
  · rintro ⟨hleft, hright⟩
    -- the later one of the two first bytes is shared
    exact ⟨max w.base v.base, by omega⟩

/-- In windows that end at words, the test for an overlap finds out whether they share a
byte, but it also takes an empty window strictly within the other one for an overlap. -/
theorem overlaps_iff_shares (hw : w.base + w.size < Word.count)
    (hv : v.base + v.size < Word.count) :
    (w.overlaps v = true ↔
      (∃ k, w.Covers k ∧ v.Covers k) ∨ w.EmptyWithin v ∨ v.EmptyWithin w) ∧
    (0 < w.size → 0 < v.size →
      (w.overlaps v = true ↔ ∃ k, w.Covers k ∧ v.Covers k)) := by
  have htest : w.overlaps v = true ↔
      w.base < v.base + v.size ∧ v.base < w.base + w.size := by
    simp [overlaps, stop_of_lt hw, stop_of_lt hv]
  have hfilled (hw : 0 < w.size) (hv : 0 < v.size) :
      w.overlaps v = true ↔ ∃ k, w.Covers k ∧ v.Covers k :=
    htest.trans (exists_covers_iff hw hv).symm
  refine ⟨?_, hfilled⟩
  rcases Nat.eq_zero_or_pos w.size with hempty | hpos
  · have hnone : ¬ ∃ k, w.Covers k ∧ v.Covers k :=
      fun ⟨k, hk, _⟩ => not_covers_of_size_eq_zero hempty k hk
    rw [htest, or_iff_right hnone]
    simp only [EmptyWithin]
    omega
  · rcases Nat.eq_zero_or_pos v.size with hempty | hpos'
    · have hnone : ¬ ∃ k, w.Covers k ∧ v.Covers k :=
        fun ⟨k, _, hk⟩ => not_covers_of_size_eq_zero hempty k hk
      rw [htest, or_iff_right hnone]
      simp only [EmptyWithin]
      omega
    · have hnone : ¬ (w.EmptyWithin v ∨ v.EmptyWithin w) := by
        simp only [EmptyWithin]
        omega
      rw [or_iff_left hnone]
      exact hfilled hpos hpos'

/-- A window nested in another one shares its bytes with it. -/
theorem overlaps_iff_shares_nested :
    (0 + 8 : Nat) < Word.count ∧ (2 + 4 : Nat) < Word.count ∧
      (⟨0, 8⟩ : Window).overlaps ⟨2, 4⟩ = true ∧
      ∃ k, (⟨0, 8⟩ : Window).Covers k ∧ (⟨2, 4⟩ : Window).Covers k := by
  have hw : (0 + 8 : Nat) < Word.count := by decide
  have hv : (2 + 4 : Nat) < Word.count := by decide
  have hshares := (overlaps_iff_shares (w := ⟨0, 8⟩) (v := ⟨2, 4⟩) hw hv).2 (by decide) (by decide)
  have htest : (⟨0, 8⟩ : Window).overlaps ⟨2, 4⟩ = true := by decide
  exact ⟨hw, hv, htest, hshares.mp htest⟩

/-- An empty window passes the test for an overlap with the window around it. -/
theorem overlaps_empty_within :
    (0 + 8 : Nat) < Word.count ∧ (4 + 0 : Nat) < Word.count ∧
      (⟨0, 8⟩ : Window).overlaps ⟨4, 0⟩ = true ∧
      ¬ ∃ k, (⟨0, 8⟩ : Window).Covers k ∧ (⟨4, 0⟩ : Window).Covers k := by
  refine ⟨by decide, by decide, by decide, ?_⟩
  rintro ⟨k, -, hk⟩
  exact not_covers_of_size_eq_zero rfl k hk

end Sharing

end Window
end FrameMachine
