/-!
# Opcodes

The reference instruction set.  Operands `a`, `b` and `c` of an instruction
are byte offsets into the running function's frame unless an opcode says
otherwise, and integers are little-endian 32-bit words.  Every opcode has one
byte; the byte `0` and all bytes outside the table stand for no opcode.
-/

namespace FrameMachine

/-- What an instruction does. -/
inductive Opcode where
  /-- Store the low `width` bytes of the immediate at `a`. -/
  | const
  /-- Copy `c` bytes from `b` to `a`. -/
  | copy
  /-- Store `b + c` at `a`, wrapping. -/
  | add
  /-- Store `b - c` at `a`, wrapping. -/
  | sub
  /-- Store `b * c` at `a`, wrapping. -/
  | mul
  /-- Store `b / c` at `a`, rounded toward zero. -/
  | div
  /-- Store one byte at `a`: 1 if `b` equals `c`, else 0. -/
  | eq
  /-- Store one byte at `a`: 1 if `b` is less than `c` as signed words, else 0. -/
  | lt
  /-- Continue at instruction `a`. -/
  | jmp
  /-- Continue at instruction `b` if the byte at `a` is zero. -/
  | jz
  /-- Continue at instruction `b` if the byte at `a` is not zero. -/
  | jnz
  /-- Call function `a` within the running engine: inputs are taken
  back to back from `b`, outputs delivered back to back to `c`. -/
  | call
  /-- Call function `a` like `call`, but through the invocation protocol. -/
  | callback
  /-- Return to the calling frame. -/
  | ret
  /-- Raise a fault that carries code `a`. -/
  | trap
  /-- Do nothing. -/
  | nop
  deriving Repr, DecidableEq

namespace Opcode

/-- All opcodes, in the order of their bytes. -/
def all : List Opcode :=
  [const, copy, add, sub, mul, div, eq, lt, jmp, jz, jnz, call, callback, ret, trap, nop]

/-- The byte of an opcode. -/
def byte : Opcode → UInt8
  | const => 0x01
  | copy => 0x02
  | add => 0x10
  | sub => 0x11
  | mul => 0x12
  | div => 0x13
  | eq => 0x20
  | lt => 0x21
  | jmp => 0x30
  | jz => 0x31
  | jnz => 0x32
  | call => 0x40
  | callback => 0x41
  | ret => 0x42
  | trap => 0xFE
  | nop => 0xFF

/-- The name of an opcode in disassembly. -/
def mnemonic : Opcode → String
  | const => "CONST"
  | copy => "COPY"
  | add => "ADD"
  | sub => "SUB"
  | mul => "MUL"
  | div => "DIV"
  | eq => "EQ"
  | lt => "LT"
  | jmp => "JMP"
  | jz => "JZ"
  | jnz => "JNZ"
  | call => "CALL"
  | callback => "CALLBACK"
  | ret => "RET"
  | trap => "TRAP"
  | nop => "NOP"

/-- The opcode of a byte. -/
def ofByte? (b : UInt8) : Option Opcode :=
  all.find? fun op => op.byte == b

/-- The opcode of a mnemonic. -/
def ofMnemonic? (name : String) : Option Opcode :=
  all.find? fun op => op.mnemonic == name

/-- Every opcode is found again from its byte. -/
@[simp]
theorem ofByte?_byte (op : Opcode) : ofByte? op.byte = some op := by
  cases op <;> rfl

end Opcode
end FrameMachine
