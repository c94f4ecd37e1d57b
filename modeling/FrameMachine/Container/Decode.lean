import FrameMachine.Container.Encode
import FrameMachine.Container.Reader

/-!
# Reading containers

Reading checks the magic bytes, the version and, function by function, that
every field is there, that the slots lie inside the frame and that the code is
made of opcodes.  Nothing may follow the last function.
-/

namespace FrameMachine
namespace Container

/-- Reject the container. -/
def reject {α : Type} (e : DecodeError) : Reader α := fun _ => .error e

/-- Read a slot. -/
def slot : Reader Slot := do
  let offset ← Reader.number 4
  let size ← Reader.number 4
  return ⟨UInt32.ofNat offset, UInt32.ofNat size⟩

/-- Read the function at `index`. -/
def routine (index : Nat) : Reader Routine := do
  let size ← Reader.number 4
  let inputCount ← Reader.number 2
  let outputCount ← Reader.number 2
  let codeLength ← Reader.number 4
  let inputs ← Reader.times inputCount slot
  let outputs ← Reader.times outputCount slot
  let descriptor : Descriptor := ⟨UInt32.ofNat size, inputs, outputs⟩
  match descriptor.validate with
  | .error misfit => reject (.invalidDescriptor (UInt16.ofNat index) misfit)
  | .ok () =>
      let stream ← Reader.take (codeLength * Instruction.encodedSize)
      match Code.decode stream with
      | .error e => reject e
      | .ok code => return ⟨descriptor, code.toArray⟩

/-- Read `n` functions, the first of which has position `index`; `done` holds
those read so far, last one first. -/
def routinesInto (done : List Routine) (index : Nat) : Nat → Reader (List Routine)
  | 0 => return done.reverse
  | n + 1 => do
      let f ← routine index
      routinesInto (f :: done) (index + 1) n

/-- Read the start of a container up to the number of functions. -/
def header : Reader Nat := do
  let start ← Reader.take 4
  if start = magic then
    let found ← Reader.number 2
    if found = version.toNat then Reader.number 2
    else reject (.unsupportedVersion (UInt16.ofNat found))
  else reject .badMagic

/-- Read the function table of a program. -/
def program : Reader Program := do
  let count ← header
  let routines ← routinesInto [] 0 count
  return ⟨routines.toArray⟩

/-- The program stored in a container. -/
def decode (container : Bytes) : Except DecodeError Program :=
  match program ⟨0, container⟩ with
  | .error e => .error e
  | .ok (p, cursor) =>
      if cursor.rest.isEmpty then .ok p
      else .error (.trailingBytes cursor.rest.length)

end Container
end FrameMachine
