/-!
# Byte strings

Byte strings are lists of bytes.  Integers are stored in them low byte first,
in a field of fixed width; the two directions are `LittleEndian.split` and
`LittleEndian.combine`.  The file also holds the one way in which an array of
bytes is changed: overwriting a run of it by a byte string.

Main results:

- Theorem `length_split`: a field has its declared width.
- Theorem `size_overwrite`: overwriting never changes the size of an array.
- Theorem `getElem?_overwrite`: the bytes of an array after overwriting.
-/

namespace FrameMachine

/-- A byte string. -/
abbrev Bytes := List UInt8

namespace LittleEndian

/-- The low `width` bytes of a number, low byte first. -/
def split : (width : Nat) → Nat → Bytes
  | 0, _ => []
  | width + 1, n => UInt8.ofNat n :: split width (n / 256)

/-- The number whose bytes, low byte first, are given. -/
def combine : Bytes → Nat
  | [] => 0
  | b :: bs => b.toNat + 256 * combine bs

@[simp]
theorem length_split (width n : Nat) : (split width n).length = width := by
  induction width generalizing n with
  | zero => rfl
  | succ width ih => simp [split, ih]

end LittleEndian

/-- Overwrite an array from `offset` on by a byte string.  Bytes that would
fall behind the end of the array are dropped. -/
def overwrite (cells : Array UInt8) (offset : Nat) : Bytes → Array UInt8
  | [] => cells
  | b :: bs => overwrite (cells.setIfInBounds offset b) (offset + 1) bs

@[simp]
theorem size_overwrite (cells : Array UInt8) (offset : Nat) (bytes : Bytes) :
    (overwrite cells offset bytes).size = cells.size := by
  induction bytes generalizing cells offset with
  | nil => rfl
  | cons b bs ih => simp [overwrite, ih]

/-- Overwriting changes exactly the bytes of the run that lie in the array. -/
theorem getElem?_overwrite (cells : Array UInt8) (offset k : Nat) (bytes : Bytes) :
    (overwrite cells offset bytes)[k]? =
      if offset ≤ k ∧ k < offset + bytes.length ∧ k < cells.size then bytes[k - offset]?
      else cells[k]? := by
  induction bytes generalizing cells offset with
  | nil =>
      simp only [overwrite, List.length_nil, Nat.add_zero]
      rw [if_neg (by omega)]
  | cons b bs ih =>
      rw [overwrite, ih, Array.getElem?_setIfInBounds, Array.size_setIfInBounds]
      simp only [List.length_cons]
      by_cases h : offset = k
      · subst h
        rw [if_neg (by omega)]
        by_cases hk : offset < cells.size <;> simp [hk]
      · by_cases hk : offset ≤ k ∧ k < offset + (bs.length + 1) ∧ k < cells.size
        · obtain ⟨n, rfl⟩ : ∃ n, k = offset + 1 + n := ⟨k - offset - 1, by omega⟩
          rw [if_pos (by omega), if_pos hk, show offset + 1 + n - offset = n + 1 by omega]
          simp
        · rw [if_neg (by omega), if_neg h, if_neg hk]

end FrameMachine
