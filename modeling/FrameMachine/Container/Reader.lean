import FrameMachine.Container.Error

/-!
# Reading fields one after another

A reader consumes bytes from the front of a container and knows how far it has
come.  All fields are read through `take`, so a container that ends too early
is always reported with the offset and width of the field that was cut.
-/

namespace FrameMachine
namespace Container

/-- The unread part of a container and its offset from the start. -/
structure Cursor where
  offset : Nat
  rest : Bytes
  deriving Repr, DecidableEq

/-- A reader moves the cursor over what it reads, or rejects the container. -/
abbrev Reader (α : Type) := StateT Cursor (Except DecodeError) α

namespace Reader

/-- Read the next `needed` bytes. -/
def take (needed : Nat) : Reader Bytes := fun cursor =>
  let chunk := cursor.rest.take needed
  if chunk.length = needed then
    .ok (chunk, ⟨cursor.offset + needed, cursor.rest.drop needed⟩)
  else .error (.truncated cursor.offset needed)

/-- Read a number stored in `width` bytes. -/
def number (width : Nat) : Reader Nat := do
  let field ← take width
  return LittleEndian.combine field

/-- Read `n` items; `done` holds those read so far, last one first. -/
def repeatInto {α : Type} (item : Reader α) (done : List α) : Nat → Reader (List α)
  | 0 => return done.reverse
  | n + 1 => do
      let a ← item
      repeatInto item (a :: done) n

/-- Read `n` items. -/
def times {α : Type} (n : Nat) (item : Reader α) : Reader (List α) :=
  repeatInto item [] n

end Reader
end Container
end FrameMachine
