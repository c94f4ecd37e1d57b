/-!
# Running out of room

A frame needs one slot of the call stack and a run of arena bytes.  When either
is missing, the request is refused with the figures below.
-/

namespace FrameMachine

/-- Why a frame could not be allocated. -/
inductive Exhaustion where
  /-- Every call stack slot above the active one is in use. -/
  | callStack (capacity : Nat)
  /-- The arena has fewer free bytes than the frame needs. -/
  | memory (requested available : Nat)
  deriving Repr, DecidableEq

/-- The text of a refusal. -/
def Exhaustion.message : Exhaustion → String
  | callStack capacity => s!"call stack exhausted ({capacity} frames)"
  | memory requested available =>
      s!"arena exhausted: frame needs {requested} bytes, {available} available"

end FrameMachine
