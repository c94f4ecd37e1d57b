import FrameMachine.Word

/-!
# Machine configurations

A configuration sizes the arena and the call stack of a machine and says what
becomes of a frame's bytes after it has returned.  The limits are checked in a
fixed order, zero sizes first.

Sizes within the limits may still be too large for the host, which is asked for
the bytes of each region.  What it answers is not up to the machine, so the host
is a parameter of all that allocates.
-/

namespace FrameMachine

/-- What becomes of the arena window of a frame that has returned. -/
inductive Reclaim where
  /-- The stack pointer is never lowered. -/
  | retain
  /-- The stack pointer goes back to the start of the window, if the window
  is the most recent allocation. -/
  | release
  deriving Repr, DecidableEq

/-- The sizes and the policy of a machine. -/
structure Config where
  /-- Number of arena bytes. -/
  memorySize : Nat := 1024 * 1024
  /-- Number of call stack slots, the root frame included. -/
  callStackSize : Nat := 1000
  reclaim : Reclaim := .retain
  deriving Repr, DecidableEq

/-- A part of a machine that has to be allocated. -/
inductive Region where
  | arena
  | callStack
  deriving Repr, DecidableEq

/-- The host of machines: whether it grants so many bytes for a region. -/
abbrev Host := Region → Nat → Bool

/-- The name of a region in messages. -/
def Region.name : Region → String
  | arena => "arena"
  | callStack => "call stack"

/-- Why a configuration is refused. -/
inductive ConfigError where
  | zeroMemory
  | zeroCallStack
  | memoryTooLarge (requested limit : Nat)
  | callStackTooLarge (requested limit : Nat)
  /-- The host has no room for a region. -/
  | allocation (region : Region) (bytes : Nat)
  deriving Repr, DecidableEq

/-- The text of a refusal. -/
def ConfigError.message : ConfigError → String
  | zeroMemory => "memory size must be non-zero"
  | zeroCallStack => "call stack size must be non-zero"
  | memoryTooLarge requested limit =>
      s!"memory size {requested} exceeds the maximum of {limit} bytes"
  | callStackTooLarge requested limit =>
      s!"call stack size {requested} exceeds the maximum of {limit} frames"
  | allocation region bytes =>
      let name := region.name
      s!"cannot allocate {bytes} bytes for the {name}"

namespace Config

/-- Number of bytes that a call stack slot takes. -/
def slotBytes : Nat := 24

/-- The largest arena: its offsets are positive signed words. -/
def memoryLimit : Nat := Word.count / 2 - 1

/-- The largest call stack: its slots take no more bytes than the largest arena. -/
def callStackLimit : Nat := memoryLimit / slotBytes

/-- Check the sizes of a configuration. -/
def validate (c : Config) : Except ConfigError Unit :=
  if c.memorySize = 0 then .error .zeroMemory
  else if c.callStackSize = 0 then .error .zeroCallStack
  else if memoryLimit < c.memorySize then .error (.memoryTooLarge c.memorySize memoryLimit)
  else if callStackLimit < c.callStackSize then
    .error (.callStackTooLarge c.callStackSize callStackLimit)
  else .ok ()

/-- Ask the host for the bytes of a region. -/
def allocate (host : Host) (region : Region) (bytes : Nat) : Except ConfigError Unit :=
  if host region bytes then .ok () else .error (.allocation region bytes)

/-- Ask the host for an arena. -/
def allocateArena (host : Host) (capacity : Nat) : Except ConfigError Unit :=
  allocate host .arena capacity

/-- Ask the host for a call stack, which has at least one slot. -/
def allocateCallStack (host : Host) (capacity : Nat) : Except ConfigError Unit :=
  allocate host .callStack (min (max capacity 1 * slotBytes) Word.last)

end Config
end FrameMachine
