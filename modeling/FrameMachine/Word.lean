/-!
# Machine words

Offsets, sizes, indices and counters are natural numbers that stay below
`2 ^ 64`, the number of distinct machine words.  Sums that might leave that
range are either refused or capped; this file holds the two sums.
-/

namespace FrameMachine
namespace Word

/-- Number of distinct machine words. -/
def count : Nat := UInt64.size

/-- The largest machine word. -/
def last : Nat := count - 1

/-- The sum of two words, absent when it does not fit a word. -/
def add? (x y : Nat) : Option Nat :=
  if x + y < count then some (x + y) else none

/-- The sum of two words, capped at the largest word. -/
def addCapped (x y : Nat) : Nat :=
  min (x + y) last

/-- A checked sum is present exactly when it is a word, and then it is the sum. -/
theorem add?_eq_some_iff {x y z : Nat} :
    add? x y = some z ↔ x + y < count ∧ z = x + y := by
  by_cases h : x + y < count <;> simp [add?, h, eq_comm]

end Word
end FrameMachine
