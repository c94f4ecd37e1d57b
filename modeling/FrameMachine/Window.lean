import FrameMachine.Descriptor
import FrameMachine.Word

/-!
# Frame windows

A window is the run of arena bytes that belongs to one frame.  Frame offsets
are resolved against the window: a range that does not lie inside the frame, or
whose start is no word, is an error.

Main results:

- Theorem `Window.resolve_eq_ite`: which ranges resolve, and to what.
- Theorem `Window.stop_of_lt`: where a window stops that ends at a word.
-/

namespace FrameMachine

/-- An absolute range of arena bytes. -/
structure Address where
  offset : Nat
  length : Nat
  deriving Repr, DecidableEq

/-- The offset just behind a range, absent when it is no word. -/
def Address.stop? (a : Address) : Option Nat := Word.add? a.offset a.length

/-- A frame-relative range that does not lie inside its frame. -/
structure OutOfFrame where
  offset : Nat
  length : Nat
  size : Nat
  deriving Repr, DecidableEq

/-- The text of a range outside its frame. -/
def OutOfFrame.message (e : OutOfFrame) : String :=
  s!"frame offset {e.offset} (length {e.length}) outside frame of {e.size} bytes"

/-- The arena bytes of one frame. -/
structure Window where
  base : Nat
  size : Nat
  deriving Repr, DecidableEq

namespace Window

/-- The offset just behind a window, capped at the largest word. -/
def stop (w : Window) : Nat := Word.addCapped w.base w.size

/-- Whether each of two windows starts before the other stops. -/
def overlaps (w v : Window) : Bool :=
  w.base < v.stop && v.base < w.stop

/-- The absolute range of `length` bytes at frame offset `offset`. -/
def resolve (w : Window) (offset length : Nat) : Except OutOfFrame Address :=
  match Word.add? offset length, Word.add? w.base offset with
  | some stop, some start =>
      if stop ≤ w.size then .ok ⟨start, length⟩ else .error ⟨offset, length, w.size⟩
  | _, _ => .error ⟨offset, length, w.size⟩

/-- The absolute range of a slot. -/
def resolveSlot (w : Window) (s : Slot) : Except OutOfFrame Address :=
  w.resolve s.offset.toNat s.size.toNat

/-! ## Ranges and ends as sums -/

/-- A range resolves if its end is a frame offset and its start is a word. -/
theorem resolve_eq_ite (w : Window) (offset length : Nat) :
    w.resolve offset length =
      if offset + length ≤ w.size ∧ offset + length < Word.count ∧ w.base + offset < Word.count then
        .ok ⟨w.base + offset, length⟩
      else .error ⟨offset, length, w.size⟩ := by
  by_cases hend : offset + length < Word.count <;>
    by_cases hstart : w.base + offset < Word.count <;>
      by_cases hfit : offset + length ≤ w.size <;>
        simp [resolve, Word.add?, hend, hstart, hfit]

/-- A window whose end is a word stops there. -/
theorem stop_of_lt {w : Window} (h : w.base + w.size < Word.count) :
    w.stop = w.base + w.size := by
  simp only [stop, Word.addCapped, Word.last]
  omega

end Window
end FrameMachine
