import FrameMachine.Bytes
import FrameMachine.Exhaustion
import FrameMachine.Window

/-!
# The arena

All frames of a machine live in one byte array of fixed size.  Frames are carved
out of it by moving a stack pointer up; every other access names an absolute
range, which must lie inside the array.  An operation that fails leaves the
arena as it was.

Main results:

- Theorem `leaves_perform`: what an operation may do to the arena.
- Theorem `perform_capacity`: no operation changes the size of the arena.
- Theorem `perform_stackPointer`: nor the stack pointer, unless it allocates or releases.
-/

namespace FrameMachine

/-- An access that does not lie inside the arena. -/
structure OutOfBounds where
  offset : Nat
  length : Nat
  capacity : Nat
  deriving Repr, DecidableEq

/-- The text of an access outside the arena. -/
def OutOfBounds.message (e : OutOfBounds) : String :=
  s!"arena access at offset {e.offset} (length {e.length}) exceeds capacity {e.capacity}"

/-- A byte array and the offset of its first unused byte. -/
structure Arena where
  cells : Array UInt8
  stackPointer : Nat
  deriving Repr, DecidableEq

namespace Arena

/-- A zero-filled arena with nothing in use. -/
def empty (capacity : Nat) : Arena :=
  ⟨Array.replicate capacity 0, 0⟩

/-- Number of bytes in the arena. -/
def capacity (a : Arena) : Nat := a.cells.size

/-- Number of bytes above the stack pointer. -/
def available (a : Arena) : Nat := a.capacity - a.stackPointer

/-- A short description: the capacity and the stack pointer. -/
def describe (a : Arena) : String :=
  let capacity := a.capacity
  "Memory \x7b capacity: " ++ toString capacity ++ ", stack_pointer: " ++
    toString a.stackPointer ++ " \x7d"

/-- Whether a range lies inside the arena. -/
def contains (a : Arena) (range : Address) : Bool :=
  match range.stop? with
  | some stop => stop ≤ a.capacity
  | none => false

/-- The complaint about a range. -/
def outOfBounds (a : Arena) (range : Address) : OutOfBounds :=
  ⟨range.offset, range.length, a.capacity⟩

/-- The bytes of a range that lies inside the arena. -/
def slice (a : Arena) (range : Address) : Bytes :=
  (a.cells.extract range.offset (range.offset + range.length)).toList

/-- Check that a range lies inside the arena. -/
def check (a : Arena) (range : Address) : Except OutOfBounds Unit :=
  if a.contains range then .ok () else .error (a.outOfBounds range)

/-- The bytes of a range. -/
def read (a : Arena) (range : Address) : Except OutOfBounds Bytes :=
  if a.contains range then .ok (a.slice range) else .error (a.outOfBounds range)

/-- Overwrite the arena from `offset` on, whatever lies there. -/
def store (offset : Nat) (bytes : Bytes) : Arena → Arena
  | ⟨cells, stackPointer⟩ => ⟨overwrite cells offset bytes, stackPointer⟩

/-- Write bytes from `offset` on. -/
def write (offset : Nat) (bytes : Bytes) : EStateM OutOfBounds Arena Unit := fun a =>
  let range : Address := ⟨offset, bytes.length⟩
  if a.contains range then .ok () (a.store offset bytes)
  else .error (a.outOfBounds range) a

/-- Fill a range with zeros. -/
def zero (range : Address) : EStateM OutOfBounds Arena Unit := fun a =>
  if a.contains range then .ok () (a.store range.offset (List.replicate range.length 0))
  else .error (a.outOfBounds range) a

/-- Copy a range to `target`.  The two ranges may overlap. -/
def copy (source : Address) (target : Nat) : EStateM OutOfBounds Arena Unit := fun a =>
  let range : Address := ⟨target, source.length⟩
  if a.contains source then
    if a.contains range then
      let bytes := a.slice source
      .ok () (a.store target bytes)
    else .error (a.outOfBounds range) a
  else .error (a.outOfBounds source) a

/-- Take `size` zeroed bytes at the stack pointer and return where they start. -/
def reserve (size : Nat) : EStateM Exhaustion Arena Nat := fun a =>
  if size ≤ a.available then
    match a with
    | ⟨cells, base⟩ => .ok base ⟨overwrite cells base (List.replicate size 0), base + size⟩
  else .error (.memory size a.available) a

/-- Lower the stack pointer to `pointer`; it is never raised. -/
def releaseTo (pointer : Nat) : Arena → Arena
  | ⟨cells, stackPointer⟩ => ⟨cells, min pointer stackPointer⟩

/-! ## Fields after a change -/

@[simp]
theorem cells_store (a : Arena) (offset : Nat) (bytes : Bytes) :
    (a.store offset bytes).cells = overwrite a.cells offset bytes :=
  rfl

@[simp]
theorem stackPointer_store (a : Arena) (offset : Nat) (bytes : Bytes) :
    (a.store offset bytes).stackPointer = a.stackPointer :=
  rfl

@[simp]
theorem capacity_store (a : Arena) (offset : Nat) (bytes : Bytes) :
    (a.store offset bytes).capacity = a.capacity :=
  size_overwrite a.cells offset bytes

@[simp]
theorem cells_releaseTo (a : Arena) (pointer : Nat) :
    (a.releaseTo pointer).cells = a.cells :=
  rfl

@[simp]
theorem stackPointer_releaseTo (a : Arena) (pointer : Nat) :
    (a.releaseTo pointer).stackPointer = min pointer a.stackPointer :=
  rfl

@[simp]
theorem capacity_releaseTo (a : Arena) (pointer : Nat) :
    (a.releaseTo pointer).capacity = a.capacity :=
  rfl

/-! ## Operations as data -/

/-- One request to an arena. -/
inductive Operation where
  | read (range : Address)
  | write (offset : Nat) (bytes : Bytes)
  | zero (range : Address)
  | copy (source : Address) (target : Nat)
  | reserve (size : Nat)
  | releaseTo (pointer : Nat)
  | describe
  deriving Repr, DecidableEq

/-- What a successful request brings back. -/
inductive Answer where
  | done
  | bytes (bytes : Bytes)
  | base (offset : Nat)
  | text (text : String)
  deriving Repr, DecidableEq

/-- Why a request fails. -/
inductive Failure where
  | outOfBounds (access : OutOfBounds)
  | exhausted (need : Exhaustion)
  deriving Repr, DecidableEq

/-- Carry out a request. -/
def perform : Operation → EStateM Failure Arena Answer
  | .read range => fun a =>
      match a.read range with
      | .ok bytes => .ok (.bytes bytes) a
      | .error e => .error (.outOfBounds e) a
  | .write offset bytes => fun a =>
      match write offset bytes a with
      | .ok () a => .ok .done a
      | .error e a => .error (.outOfBounds e) a
  | .zero range => fun a =>
      match zero range a with
      | .ok () a => .ok .done a
      | .error e a => .error (.outOfBounds e) a
  | .copy source target => fun a =>
      match copy source target a with
      | .ok () a => .ok .done a
      | .error e a => .error (.outOfBounds e) a
  | .reserve size => fun a =>
      match reserve size a with
      | .ok base a => .ok (.base base) a
      | .error e a => .error (.exhausted e) a
  | .releaseTo pointer => fun a => .ok .done (a.releaseTo pointer)
  | .describe => fun a => .ok (.text a.describe) a

/-- The state in which an operation leaves the arena, successful or not. -/
def after {ε α : Type} : EStateM.Result ε Arena α → Arena
  | .ok _ a => a
  | .error _ a => a

/-- What a request may leave behind: the arena as it was, with a run of bytes overwritten,
with zeroed bytes taken at the stack pointer, or with the stack pointer lowered. -/
inductive Leaves (a : Arena) : Operation → Arena → Prop
  | same {op : Operation} : Leaves a op a
  | stored {op : Operation} (offset : Nat) (bytes : Bytes) : Leaves a op (a.store offset bytes)
  | reserved {size : Nat} (h : size ≤ a.available) : Leaves a (.reserve size)
      ⟨overwrite a.cells a.stackPointer (List.replicate size 0), a.stackPointer + size⟩
  | released (pointer : Nat) : Leaves a (.releaseTo pointer) (a.releaseTo pointer)

theorem leaves_perform (op : Operation) (a : Arena) : Leaves a op (after (perform op a)) := by
  cases op with
  | read range =>
      simp only [perform]
      split <;> exact .same
  | write offset bytes =>
      simp only [perform, write]
      cases a.contains ⟨offset, bytes.length⟩ with
      | false => exact .same
      | true => exact .stored ..
  | zero range =>
      simp only [perform, zero]
      cases a.contains range with
      | false => exact .same
      | true => exact .stored ..
  | copy source target =>
      simp only [perform, copy]
      cases a.contains source with
      | false => exact .same
      | true =>
          cases a.contains ⟨target, source.length⟩ with
          | false => exact .same
          | true => exact .stored ..
  | reserve size =>
      by_cases h : size ≤ a.available
      · simp only [perform, reserve, h, if_true]
        exact .reserved h
      · simp only [perform, reserve, h, if_false]
        exact .same
  | releaseTo pointer => exact .released pointer
  | describe => exact .same

/-- No operation changes the size of the arena. -/
theorem perform_capacity (op : Operation) (a : Arena) :
    (after (perform op a)).capacity = a.capacity := by
  have h := leaves_perform op a
  generalize after (perform op a) = b at h ⊢
  cases h with
  | same => rfl
  | stored offset bytes => exact capacity_store a offset bytes
  | reserved _ => exact size_overwrite ..
  | released pointer => rfl

/-- Whether a request is to allocate or to release bytes. -/
def Operation.allocates : Operation → Bool
  | .reserve _ | .releaseTo _ => true
  | _ => false

/-- Any other request leaves the stack pointer where it is. -/
theorem perform_stackPointer {op : Operation} (hop : op.allocates = false) (a : Arena) :
    (after (perform op a)).stackPointer = a.stackPointer := by
  have h := leaves_perform op a
  generalize after (perform op a) = b at h ⊢
  cases h with
  | same => rfl
  | stored offset bytes => rfl
  | reserved _ => contradiction
  | released pointer => contradiction

end Arena
end FrameMachine
