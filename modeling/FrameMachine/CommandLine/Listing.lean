import FrameMachine.Program

/-!
# Program listings

A listing shows each function of a program: a line with its frame layout, then
one line per instruction with its position.
-/

namespace FrameMachine
namespace CommandLine

/-- A list of slots, each as offset and size. -/
def showSlots (slots : List Slot) : String :=
  "[" ++ ", ".intercalate (slots.map fun s => s!"{s.offset}+{s.size}") ++ "]"

/-- The line of a frame layout. -/
def showDescriptor (index : Nat) (d : Descriptor) : String :=
  s!"fn {index}: size {d.size}, inputs " ++ showSlots d.inputs ++
    s!" ({d.inputSize} bytes), outputs " ++ showSlots d.outputs ++ s!" ({d.outputSize} bytes)"

/-- A number with at least four digits. -/
def fourDigits (n : Nat) : String :=
  let digits := toString n
  "".pushn '0' (4 - digits.length) ++ digits

/-- The line of an instruction. -/
def showInstruction (position : Nat) (i : Instruction) : String :=
  "  " ++ fourDigits position ++ "  " ++ i.render

/-- The lines of a function. -/
def showRoutine (index : Nat) (f : Routine) : List String :=
  showDescriptor index f.descriptor ::
    f.code.toList.zipIdx.map fun (i, position) => showInstruction position i

/-- The lines of a program. -/
def listing (p : Program) : List String :=
  p.routines.toList.zipIdx.flatMap fun (f, index) => showRoutine index f

end CommandLine
end FrameMachine
