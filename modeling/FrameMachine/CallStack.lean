import FrameMachine.Exhaustion

/-!
# The call stack

A call stack is a fixed number of frame slots and the index of the active one.
Slot 0 is the host's root frame.  Slots above the active one keep the frames of
finished calls until the next push at their depth overwrites them.  An
operation that fails leaves the stack as it was.

Main results:

- Theorem `perform_capacity`: no operation changes the number of slots.
-/

namespace FrameMachine

/-- An activation record. -/
structure Frame where
  /-- The running function; the root frame has none. -/
  operator : Option UInt16 := none
  /-- Position in the code of the running function. -/
  instructionPointer : Nat := 0
  /-- Where the arena window of the frame starts. -/
  framePointer : Nat := 0
  deriving Repr, DecidableEq

/-- Whether a frame runs no function. -/
def Frame.isRoot (f : Frame) : Bool := f.operator.isNone

/-- An active frame other than the expected one. -/
structure Desync where
  expected : Nat
  actual : Nat
  deriving Repr, DecidableEq

/-- The text of an unexpected active frame. -/
def Desync.message (e : Desync) : String :=
  s!"call stack desynchronized: expected frame {e.expected}, found {e.actual}"

/-- Frame slots and the index of the active one. -/
structure CallStack where
  frames : Array Frame
  activeIndex : Nat
  deriving Repr, DecidableEq

namespace CallStack

/-- A stack of `capacity` slots, but at least one, with the root frame active. -/
def empty (capacity : Nat) : CallStack :=
  ⟨Array.replicate (max capacity 1) {}, 0⟩

/-- Number of slots. -/
def capacity (s : CallStack) : Nat := s.frames.size

/-- The frame in a slot, live or not. -/
def frame? (s : CallStack) (index : Nat) : Option Frame := s.frames[index]?

/-- The active frame. -/
def active (s : CallStack) : Frame := s.frames.getD s.activeIndex {}

/-- Whether another frame can be pushed. -/
def hasRoom (s : CallStack) : Bool := s.activeIndex + 1 < s.capacity

/-- Change the active frame. -/
def modifyActive (change : Frame → Frame) : CallStack → CallStack
  | ⟨frames, activeIndex⟩ => ⟨frames.modify activeIndex change, activeIndex⟩

/-- Go on to the next instruction of the active frame. -/
def advance (s : CallStack) : CallStack :=
  s.modifyActive fun f => { f with instructionPointer := f.instructionPointer + 1 }

/-- Go on at another instruction of the active frame. -/
def jump (target : Nat) (s : CallStack) : CallStack :=
  s.modifyActive fun f => { f with instructionPointer := target }

/-- Activate a fresh frame in the next slot and return its index. -/
def push (operator : UInt16) (framePointer : Nat) : EStateM Exhaustion CallStack Nat :=
  fun s =>
    if s.hasRoom then
      match s with
      | ⟨frames, activeIndex⟩ =>
          let index := activeIndex + 1
          .ok index ⟨frames.setIfInBounds index ⟨some operator, 0, framePointer⟩, index⟩
    else .error (.callStack s.capacity) s

/-- Make a lower slot active; a slot that is not lower is ignored. -/
def unwindTo (index : Nat) : CallStack → CallStack
  | ⟨frames, activeIndex⟩ => ⟨frames, min index activeIndex⟩

/-- Make a slot active again with its saved instruction pointer.  The slot must
not lie above the active one. -/
def restore (index instructionPointer : Nat) : EStateM Desync CallStack Unit := fun s =>
  if index ≤ s.activeIndex then
    match s with
    | ⟨frames, _⟩ => .ok () (jump instructionPointer ⟨frames, index⟩)
  else .error ⟨index, s.activeIndex⟩ s

/-! ## Fields after a change -/

@[simp]
theorem frames_modifyActive (s : CallStack) (change : Frame → Frame) :
    (s.modifyActive change).frames = s.frames.modify s.activeIndex change :=
  rfl

@[simp]
theorem activeIndex_modifyActive (s : CallStack) (change : Frame → Frame) :
    (s.modifyActive change).activeIndex = s.activeIndex :=
  rfl

@[simp]
theorem capacity_modifyActive (s : CallStack) (change : Frame → Frame) :
    (s.modifyActive change).capacity = s.capacity := by
  simp [capacity]

@[simp]
theorem frames_unwindTo (s : CallStack) (index : Nat) : (s.unwindTo index).frames = s.frames :=
  rfl

@[simp]
theorem activeIndex_unwindTo (s : CallStack) (index : Nat) :
    (s.unwindTo index).activeIndex = min index s.activeIndex :=
  rfl

@[simp]
theorem capacity_unwindTo (s : CallStack) (index : Nat) :
    (s.unwindTo index).capacity = s.capacity :=
  rfl

/-! ## Operations as data -/

/-- Replacement values for the fields of a frame. -/
structure Assignment where
  operator : Option (Option UInt16) := none
  instructionPointer : Option Nat := none
  framePointer : Option Nat := none
  deriving Repr, DecidableEq

/-- Assign the given fields of a frame and keep the others. -/
def Assignment.apply (new : Assignment) (f : Frame) : Frame where
  operator := new.operator.getD f.operator
  instructionPointer := new.instructionPointer.getD f.instructionPointer
  framePointer := new.framePointer.getD f.framePointer

/-- One request to a call stack. -/
inductive Operation where
  | push (operator : UInt16) (framePointer : Nat)
  | unwindTo (index : Nat)
  | restore (index instructionPointer : Nat)
  | frame (index : Nat)
  | assign (new : Assignment)
  deriving Repr, DecidableEq

/-- What a successful request brings back. -/
inductive Answer where
  | done
  | index (index : Nat)
  | frame (frame : Option Frame)
  deriving Repr, DecidableEq

/-- Why a request fails. -/
inductive Failure where
  | exhausted (need : Exhaustion)
  | desync (found : Desync)
  deriving Repr, DecidableEq

/-- Carry out a request. -/
def perform : Operation → EStateM Failure CallStack Answer
  | .push operator framePointer => fun s =>
      match push operator framePointer s with
      | .ok index s => .ok (.index index) s
      | .error e s => .error (.exhausted e) s
  | .unwindTo index => fun s => .ok .done (s.unwindTo index)
  | .restore index instructionPointer => fun s =>
      match restore index instructionPointer s with
      | .ok () s => .ok .done s
      | .error e s => .error (.desync e) s
  | .frame index => fun s => .ok (.frame (s.frame? index)) s
  | .assign new => fun s => .ok .done (s.modifyActive new.apply)

/-- The state in which an operation leaves the stack, successful or not. -/
def after {ε α : Type} : EStateM.Result ε CallStack α → CallStack
  | .ok _ s => s
  | .error _ s => s

/-- No operation changes the number of slots. -/
theorem perform_capacity (op : Operation) (s : CallStack) :
    (after (perform op s)).capacity = s.capacity := by
  cases op with
  | push operator framePointer =>
      by_cases h : s.hasRoom <;> simp [perform, push, h, after, capacity]
  | unwindTo index => rfl
  | restore index instructionPointer =>
      by_cases h : index ≤ s.activeIndex <;>
        simp [perform, restore, h, after, capacity, jump, modifyActive]
  | frame index => rfl
  | assign new => simp [perform, after, capacity, modifyActive]

end CallStack
end FrameMachine
