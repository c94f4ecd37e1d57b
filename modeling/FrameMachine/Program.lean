import FrameMachine.Descriptor
import FrameMachine.Instruction

/-!
# Programs

A program is a table of functions, each a frame layout with its code.  It is
taken as it stands: whether the layouts are valid is checked where programs are
read and where functions are invoked.
-/

namespace FrameMachine

/-- A function: its frame layout and its code. -/
structure Routine where
  descriptor : Descriptor
  code : Array Instruction
  deriving Repr, DecidableEq

/-- The table of functions that a machine runs. -/
structure Program where
  routines : Array Routine
  deriving Repr, DecidableEq

namespace Program

/-- The function at an index. -/
def routine? (p : Program) (index : UInt16) : Option Routine :=
  p.routines[index.toNat]?

end Program
end FrameMachine
