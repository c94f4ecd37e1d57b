import FrameMachine.Descriptor
import FrameMachine.Hex

/-!
# Reasons why bytes are no program

Opcode bytes, instruction streams and whole containers are rejected for the
reasons listed here, each with the data that its message shows.
-/

namespace FrameMachine

/-- Why bytes are rejected as an opcode, an instruction stream or a container. -/
inductive DecodeError where
  /-- An opcode byte is zero. -/
  | illegalOpcode
  /-- An opcode byte is not zero but stands for no opcode. -/
  | reservedOpcode (byte : UInt8)
  /-- An instruction stream is no whole number of instructions. -/
  | invalidLength (length : Nat)
  /-- A container does not start with the magic bytes. -/
  | badMagic
  /-- A container has a version other than the known one. -/
  | unsupportedVersion (version : UInt16)
  /-- A container ends inside a field. -/
  | truncated (offset needed : Nat)
  /-- A container goes on behind its last function. -/
  | trailingBytes (excess : Nat)
  /-- A function of a container has a slot outside its frame. -/
  | invalidDescriptor (function : UInt16) (misfit : SlotMisfit)
  deriving Repr, DecidableEq

/-- The text of a rejection. -/
def DecodeError.message : DecodeError → String
  | .illegalOpcode => "illegal opcode 0x00"
  | .reservedOpcode byte => "reserved opcode: 0x" ++ Hex.encode [byte]
  | .invalidLength length =>
      s!"invalid byte stream length: {length} (must be multiple of 8)"
  | .badMagic => "bad magic: expected \"RNTY\""
  | .unsupportedVersion version => s!"unsupported container version {version}"
  | .truncated offset needed =>
      s!"truncated container: need {needed} bytes at offset {offset}"
  | .trailingBytes excess => s!"{excess} trailing bytes after last function"
  | .invalidDescriptor function misfit => s!"function {function}: " ++ misfit.message

end FrameMachine
