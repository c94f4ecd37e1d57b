import FrameMachine.Container.Code
import FrameMachine.Program

/-!
# Writing containers

A container is the magic bytes, the version and the number of functions,
followed by the functions.  Each function is its frame size, its numbers of
inputs, outputs and instructions, then the input slots, the output slots and
the code.  A number that does not fit its field loses its high bytes, so only
programs within the limits of the fields are read back.
-/

namespace FrameMachine
namespace Container

/-- The bytes `RNTY` at the start of every container. -/
def magic : Bytes := [0x52, 0x4E, 0x54, 0x59]

/-- The version of the container format. -/
def version : UInt16 := 1

/-- The stored form of a slot. -/
def encodeSlot (s : Slot) : Bytes :=
  LittleEndian.split 4 s.offset.toNat ++ LittleEndian.split 4 s.size.toNat

/-- The stored form of a function. -/
def encodeRoutine (f : Routine) : Bytes :=
  LittleEndian.split 4 f.descriptor.size.toNat ++
    LittleEndian.split 2 f.descriptor.inputs.length ++
    LittleEndian.split 2 f.descriptor.outputs.length ++
    LittleEndian.split 4 f.code.size ++
    f.descriptor.inputs.flatMap encodeSlot ++
    f.descriptor.outputs.flatMap encodeSlot ++
    Code.encode f.code.toList

/-- The container of a program. -/
def encode (p : Program) : Bytes :=
  magic ++ LittleEndian.split 2 version.toNat ++
    LittleEndian.split 2 p.routines.size ++
    p.routines.toList.flatMap encodeRoutine

end Container
end FrameMachine
