import FrameMachine.Hex
import FrameMachine.Opcode

/-!
# Instructions

An instruction is an opcode with a width byte and three 16-bit operands; which
of them mean anything depends on the opcode.  The 32-bit immediate of a `const`
instruction is spread over the operands `b` and `c`.
-/

namespace FrameMachine

/-- One instruction. -/
structure Instruction where
  opcode : Opcode
  width : UInt8
  a : UInt16
  b : UInt16
  c : UInt16
  deriving Repr, DecidableEq

namespace Instruction

/-- The 32-bit immediate: `b` holds its high half and `c` its low half. -/
def immediate (i : Instruction) : UInt32 :=
  i.b.toUInt32 <<< 16 ||| i.c.toUInt32

/-- The instruction that stores a whole 32-bit word at `destination`. -/
def constant (destination : UInt16) (value : UInt32) : Instruction where
  opcode := .const
  width := 4
  a := destination
  b := (value >>> 16).toUInt16
  c := value.toUInt16

/-- One line of disassembly.  Operands that are frame offsets carry an `@`, and
functions an `fn`. -/
def render (i : Instruction) : String :=
  let name := i.opcode.mnemonic
  match i.opcode with
  | .const =>
      let digits := Hex.encode (LittleEndian.split 4 i.immediate.toNat).reverse
      s!"{name} w{i.width} @{i.a} 0x{digits}"
  | .copy => s!"{name} @{i.a} @{i.b} {i.c}"
  | .add | .sub | .mul | .div | .eq | .lt => s!"{name} @{i.a} @{i.b} @{i.c}"
  | .jmp | .trap => s!"{name} {i.a}"
  | .jz | .jnz => s!"{name} @{i.a} {i.b}"
  | .call | .callback => s!"{name} fn {i.a} @{i.b} @{i.c}"
  | .ret | .nop => name

end Instruction
end FrameMachine
