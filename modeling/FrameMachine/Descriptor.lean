/-!
# Function descriptors

A descriptor gives the size of a function's frame and the slots of that frame
which hold its inputs and outputs.  Slots may overlap, but each must lie inside
the frame.  Validation reports the first slot that does not, inputs first.
-/

namespace FrameMachine

/-- A run of bytes inside a frame. -/
structure Slot where
  offset : UInt32
  size : UInt32
  deriving Repr, DecidableEq

/-- The frame layout of a function. -/
structure Descriptor where
  size : UInt32
  inputs : List Slot
  outputs : List Slot
  deriving Repr, DecidableEq

/-- The list a slot belongs to. -/
inductive SlotKind where
  | input
  | output
  deriving Repr, DecidableEq

/-- The word for a slot list in messages. -/
def SlotKind.name : SlotKind → String
  | input => "input"
  | output => "output"

/-- A slot that does not lie inside its frame. -/
structure SlotMisfit where
  kind : SlotKind
  index : Nat
  slot : Slot
  frameSize : UInt32
  deriving Repr, DecidableEq

/-- The text of a misfit. -/
def SlotMisfit.message (e : SlotMisfit) : String :=
  let kind := e.kind.name
  s!"{kind} slot {e.index} at offset {e.slot.offset} (size {e.slot.size})" ++
    s!" exceeds frame size {e.frameSize}"

namespace Slot

/-- The offset just behind a slot, absent when it is no 32-bit word. -/
def stop? (s : Slot) : Option UInt32 :=
  if s.offset.toNat + s.size.toNat < UInt32.size then some (s.offset + s.size) else none

/-- Whether a slot lies inside a frame. -/
def fits (s : Slot) (frameSize : UInt32) : Bool :=
  match s.stop? with
  | some stop => stop ≤ frameSize
  | none => false

end Slot

/-- The bytes of a list of slots laid back to back. -/
def slotBytes (slots : List Slot) : Nat :=
  slots.foldr (fun s total => s.size.toNat + total) 0

/-- The first slot of a list that does not lie inside the frame; `index` is the
position of the head of the list. -/
def firstMisfit? (kind : SlotKind) (frameSize : UInt32) (index : Nat) :
    List Slot → Option SlotMisfit
  | [] => none
  | s :: slots =>
      if s.fits frameSize then firstMisfit? kind frameSize (index + 1) slots
      else some ⟨kind, index, s, frameSize⟩

namespace Descriptor

/-- Total size of the inputs. -/
def inputSize (d : Descriptor) : Nat := slotBytes d.inputs

/-- Total size of the outputs. -/
def outputSize (d : Descriptor) : Nat := slotBytes d.outputs

/-- The first slot that does not lie inside the frame, inputs before outputs. -/
def misfit? (d : Descriptor) : Option SlotMisfit :=
  firstMisfit? .input d.size 0 d.inputs <|> firstMisfit? .output d.size 0 d.outputs

/-- Check that every slot lies inside the frame. -/
def validate (d : Descriptor) : Except SlotMisfit Unit :=
  match d.misfit? with
  | some e => .error e
  | none => .ok ()

end Descriptor
end FrameMachine
