import FrameMachine.Journal
import FrameMachine.Machine.Config
import FrameMachine.Program

/-!
# Machines

A machine is an arena, a call stack, a reclaim policy, a poison flag and a
journal.  The program that it runs is not part of it: operations that need one
take it as an argument.

A frame is allocated by `pushFrame`, which checks the call stack before the
arena and changes neither unless both have room.
-/

namespace FrameMachine

/-- All that changes while a program runs. -/
structure Machine where
  arena : Arena
  stack : CallStack
  reclaim : Reclaim
  /-- Set by the first fault; the machine then refuses all invocations. -/
  poisoned : Bool
  journal : Journal
  deriving Repr, DecidableEq

/-- A step of a machine that may fail; what was changed before stays changed. -/
abbrev Action (ε α : Type) := EStateM ε Machine α

namespace Machine

/-! ## Construction -/

/-- A fresh machine of given sizes. -/
def ofConfig (c : Config) : Machine where
  arena := Arena.empty c.memorySize
  stack := CallStack.empty c.callStackSize
  reclaim := c.reclaim
  poisoned := false
  journal := #[]

/-- A fresh machine, if its sizes are within the limits and the host has room. -/
def create (host : Host) (c : Config) : Except ConfigError Machine := do
  c.validate
  Config.allocateArena host c.memorySize
  Config.allocateCallStack host c.callStackSize
  return ofConfig c

/-- A fresh machine of the default configuration. -/
def initial : Machine := ofConfig {}

/-! ## Working on the parts -/

/-- Work on the arena. -/
def onArena {ε α : Type} (act : EStateM ε Arena α) : Action ε α
  | ⟨arena, stack, reclaim, poisoned, journal⟩ =>
      match act arena with
      | .ok a arena => .ok a ⟨arena, stack, reclaim, poisoned, journal⟩
      | .error e arena => .error e ⟨arena, stack, reclaim, poisoned, journal⟩

/-- Work on the call stack. -/
def onStack {ε α : Type} (act : EStateM ε CallStack α) : Action ε α
  | ⟨arena, stack, reclaim, poisoned, journal⟩ =>
      match act stack with
      | .ok a stack => .ok a ⟨arena, stack, reclaim, poisoned, journal⟩
      | .error e stack => .error e ⟨arena, stack, reclaim, poisoned, journal⟩

/-- Change the arena. -/
def modifyArena (change : Arena → Arena) : Machine → Machine
  | ⟨arena, stack, reclaim, poisoned, journal⟩ =>
      ⟨change arena, stack, reclaim, poisoned, journal⟩

/-- Change the call stack. -/
def modifyStack (change : CallStack → CallStack) : Machine → Machine
  | ⟨arena, stack, reclaim, poisoned, journal⟩ =>
      ⟨arena, change stack, reclaim, poisoned, journal⟩

/-- Note an event. -/
def note (e : Event) : Machine → Machine
  | ⟨arena, stack, reclaim, poisoned, journal⟩ =>
      ⟨arena, stack, reclaim, poisoned, journal.push e⟩

/-- Note a fault and refuse all further invocations. -/
def fail (cause : Fault) : Machine → Machine
  | ⟨arena, stack, reclaim, _, journal⟩ =>
      ⟨arena, stack, reclaim, true, journal.push (.faulted cause)⟩

/-- Forget what was noted so far. -/
def clearJournal : Machine → Machine
  | ⟨arena, stack, reclaim, poisoned, _⟩ => ⟨arena, stack, reclaim, poisoned, #[]⟩

/-! ## Fields after a change -/

section Fields

variable (m : Machine) (onArena : Arena → Arena) (onStack : CallStack → CallStack)
  (e : Event) (cause : Fault)

@[simp]
theorem arena_modifyArena : (m.modifyArena onArena).arena = onArena m.arena := rfl

@[simp]
theorem stack_modifyArena : (m.modifyArena onArena).stack = m.stack := rfl

@[simp]
theorem reclaim_modifyArena : (m.modifyArena onArena).reclaim = m.reclaim := rfl

@[simp]
theorem poisoned_modifyArena : (m.modifyArena onArena).poisoned = m.poisoned := rfl

@[simp]
theorem arena_modifyStack : (m.modifyStack onStack).arena = m.arena := rfl

@[simp]
theorem stack_modifyStack : (m.modifyStack onStack).stack = onStack m.stack := rfl

@[simp]
theorem reclaim_modifyStack : (m.modifyStack onStack).reclaim = m.reclaim := rfl

@[simp]
theorem poisoned_modifyStack : (m.modifyStack onStack).poisoned = m.poisoned := rfl

@[simp]
theorem arena_note : (m.note e).arena = m.arena := rfl

@[simp]
theorem stack_note : (m.note e).stack = m.stack := rfl

@[simp]
theorem reclaim_note : (m.note e).reclaim = m.reclaim := rfl

@[simp]
theorem poisoned_note : (m.note e).poisoned = m.poisoned := rfl

@[simp]
theorem arena_fail : (m.fail cause).arena = m.arena := rfl

@[simp]
theorem stack_fail : (m.fail cause).stack = m.stack := rfl

end Fields

/-! ## Frames -/

/-- The arena window of a frame, if the frame runs a function of the program. -/
def window? (program : Program) (m : Machine) (index : Nat) : Option Window := do
  let frame ← m.stack.frame? index
  let operator ← frame.operator
  let routine ← program.routine? operator
  return ⟨frame.framePointer, routine.descriptor.size.toNat⟩

/-- The arena window of the active frame. -/
def activeWindow? (program : Program) (m : Machine) : Option Window :=
  m.window? program m.stack.activeIndex

/-- Allocate and activate a frame for a function and return its window. -/
def pushFrame (operator : UInt16) (size : UInt32) : Action Exhaustion Window := fun m =>
  if m.stack.hasRoom then
    match onArena (Arena.reserve size.toNat) m with
    | .error e m => .error e m
    | .ok base m =>
        match onStack (CallStack.push operator base) m with
        | .error e m => .error e m
        | .ok index m =>
            let window : Window := ⟨base, size.toNat⟩
            .ok window (m.note (.framePushed index operator window))
  else .error (.callStack m.stack.capacity) m

/-- Apply the reclaim policy to the window of a frame that has returned. -/
def releaseFrame (window : Window) (m : Machine) : Machine :=
  if m.reclaim = .release ∧ window.stop = m.arena.stackPointer then
    m.modifyArena (Arena.releaseTo window.base)
  else m

end Machine
end FrameMachine
