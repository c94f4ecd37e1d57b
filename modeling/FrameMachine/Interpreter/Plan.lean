import FrameMachine.Invocation

/-!
# Planning an instruction

Executing an instruction has two halves.  Planning looks at the machine without
changing it: operands are resolved and read, results computed, and everything
that can be wrong with the instruction itself is found.  The plan is then
carried out.  So an instruction that faults while it is planned leaves the
machine as it was.

Checks are made in operand order, except that a division looks at its divisor
first.
-/

namespace FrameMachine

/-- Where an instruction runs: its place in the program and the window of the
running frame. -/
structure Site where
  location : Location
  window : Window
  deriving Repr, DecidableEq

namespace Site

/-- The absolute range of an operand of `length` bytes. -/
def resolve (site : Site) (offset length : Nat) : Except Fault Address :=
  (site.window.resolve offset length).mapError (.outOfFrame site.location)

/-- The bytes of an operand. -/
def operand (site : Site) (m : Machine) (offset length : Nat) : Except Fault Bytes := do
  let range ← site.resolve offset length
  m.bytesAt range

/-- The signed 32-bit word at an operand. -/
def word (site : Site) (m : Machine) (offset : UInt16) : Except Fault Int32 := do
  let bytes ← site.operand m offset.toNat 4
  return (UInt32.ofNat (LittleEndian.combine bytes)).toInt32

/-- Whether the byte at an operand is set. -/
def flag (site : Site) (m : Machine) (offset : UInt16) : Except Fault Bool := do
  let bytes ← site.operand m offset.toNat 1
  return LittleEndian.combine bytes ≠ 0

/-- The function that a call names. -/
def callee (site : Site) (program : Program) (index : UInt16) : Except Fault Routine :=
  match program.routine? index with
  | some routine => .ok routine
  | none => .error (.unknownFunction site.location index)

end Site

/-- The ranges of slots laid back to back from `start` on, as offsets and lengths. -/
def backToBack (start : Nat) : List Slot → List (Nat × Nat)
  | [] => []
  | s :: slots => (start, s.size.toNat) :: backToBack (start + s.size.toNat) slots

/-- What an instruction is going to do. -/
inductive Plan where
  /-- Go on to the next instruction. -/
  | next
  /-- Go on at another instruction. -/
  | goto (target : UInt16)
  /-- Store bytes inside the arena and go on. -/
  | store (range : Address) (bytes : Bytes)
  /-- Push a frame for a function and copy its inputs from these ranges. -/
  | call (callee : Routine) (sources : List Address)
  /-- Invoke a function with these inputs. -/
  | callback (inputs : List Bytes)
  /-- Return from the active frame. -/
  | ret
  deriving Repr, DecidableEq

namespace Plan

/-- Plan to store a result. -/
def storing (m : Machine) (site : Site) (destination : UInt16) (bytes : Bytes) :
    Except Fault Plan := do
  let range ← site.resolve destination.toNat bytes.length
  (m.arena.check range).mapError .memory
  return .store range bytes

/-- Plan to store what an operation makes of two words. -/
def combining (m : Machine) (site : Site) (i : Instruction)
    (result : Int32 → Int32 → Bytes) : Except Fault Plan := do
  let x ← site.word m i.b
  let y ← site.word m i.c
  storing m site i.a (result x y)

/-- The stored form of a signed word. -/
def wordBytes (x : Int32) : Bytes := LittleEndian.split 4 x.toUInt32.toNat

/-- The stored form of a truth value. -/
def flagBytes (b : Bool) : Bytes := [if b then 1 else 0]

/-- Plan to jump to `b` if the flag at `a` is as wanted. -/
def jumpingIf (wanted : Bool) (m : Machine) (site : Site) (i : Instruction) :
    Except Fault Plan := do
  let flag ← site.flag m i.a
  return if flag = wanted then .goto i.b else .next

/-- Plan an instruction. -/
def ofInstruction (program : Program) (m : Machine) (site : Site) (i : Instruction) :
    Except Fault Plan :=
  match i.opcode with
  | .nop => .ok .next
  | .const =>
      if i.width = 1 ∨ i.width = 2 ∨ i.width = 4 then
        storing m site i.a (LittleEndian.split i.width.toNat i.immediate.toNat)
      else .error (.invalidWidth site.location i.width)
  | .copy => do
      let source ← site.resolve i.b.toNat i.c.toNat
      let range ← site.resolve i.a.toNat i.c.toNat
      let bytes ← m.bytesAt source
      (m.arena.check range).mapError .memory
      return .store range bytes
  | .add => combining m site i fun x y => wordBytes (x + y)
  | .sub => combining m site i fun x y => wordBytes (x - y)
  | .mul => combining m site i fun x y => wordBytes (x * y)
  | .div => do
      let divisor ← site.word m i.c
      if divisor = 0 then .error (.divisionByZero site.location)
      else combining m site i fun x y => wordBytes (x / y)
  | .eq => combining m site i fun x y => flagBytes (x == y)
  | .lt => combining m site i fun x y => flagBytes (x < y)
  | .jmp => .ok (.goto i.a)
  | .jz => jumpingIf false m site i
  | .jnz => jumpingIf true m site i
  | .call => do
      let callee ← site.callee program i.a
      let sources ← (backToBack i.b.toNat callee.descriptor.inputs).mapM fun (offset, length) =>
        site.resolve offset length
      return .call callee sources
  | .callback => do
      let callee ← site.callee program i.a
      let inputs ← (backToBack i.b.toNat callee.descriptor.inputs).mapM fun (offset, length) =>
        site.operand m offset length
      return .callback inputs
  | .ret => .ok .ret
  | .trap => .error (.trap site.location i.a)

end Plan
end FrameMachine
