import FrameMachine.Container.Error
import FrameMachine.Instruction

/-!
# Instruction streams

An instruction is stored in eight bytes: the opcode byte, the width byte and
the three operands, low byte first.  A stream is the concatenation of its
instructions.  Reading a stream reports a wrong length before any opcode, and
otherwise the first byte in opcode position that stands for no opcode.
-/

namespace FrameMachine

/-- The opcode of a byte, or the reason why there is none. -/
def Opcode.decode (byte : UInt8) : Except DecodeError Opcode :=
  match Opcode.ofByte? byte with
  | some op => .ok op
  | none => .error (if byte = 0 then .illegalOpcode else .reservedOpcode byte)

namespace Instruction

/-- The number of bytes that store one instruction. -/
def encodedSize : Nat := 8

/-- The eight bytes of an instruction. -/
def encode (i : Instruction) : Bytes :=
  i.opcode.byte :: i.width ::
    (LittleEndian.split 2 i.a.toNat ++ LittleEndian.split 2 i.b.toNat ++
      LittleEndian.split 2 i.c.toNat)

/-- The operand stored in two bytes. -/
def operand (low high : UInt8) : UInt16 :=
  UInt16.ofNat (LittleEndian.combine [low, high])

/-- The instruction stored in eight bytes. -/
def decode (op width a₀ a₁ b₀ b₁ c₀ c₁ : UInt8) : Except DecodeError Instruction :=
  match Opcode.decode op with
  | .ok opcode => .ok ⟨opcode, width, operand a₀ a₁, operand b₀ b₁, operand c₀ c₁⟩
  | .error e => .error e

end Instruction

namespace Code

/-- The stream of a list of instructions. -/
def encode (code : List Instruction) : Bytes :=
  code.flatMap Instruction.encode

/-- Read instructions eight bytes at a time; `read` holds those read so far,
last one first. -/
def decodeInto (read : List Instruction) : Bytes → Except DecodeError (List Instruction)
  | op :: width :: a₀ :: a₁ :: b₀ :: b₁ :: c₀ :: c₁ :: rest =>
      match Instruction.decode op width a₀ a₁ b₀ b₁ c₀ c₁ with
      | .ok i => decodeInto (i :: read) rest
      | .error e => .error e
  | _ => .ok read.reverse

/-- The instructions of a stream. -/
def decode (stream : Bytes) : Except DecodeError (List Instruction) :=
  if stream.length % Instruction.encodedSize = 0 then decodeInto [] stream
  else .error (.invalidLength stream.length)

end Code
end FrameMachine
