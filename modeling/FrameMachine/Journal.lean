import FrameMachine.Fault
import FrameMachine.Instruction

/-!
# The journal

A machine notes what it does: frames pushed, invocations begun and ended,
instructions about to run, returns and faults.  Each event has a level of
detail and a text.  The machine notes every event; the reader chooses how much
of it to see.
-/

namespace FrameMachine

/-- How much detail an event is, most important first. -/
inductive Level where
  | error
  | warn
  | info
  | debug
  | trace
  deriving Repr, DecidableEq

namespace Level

/-- Position of a level, counted from the most important one. -/
def rank : Level → Nat
  | error => 0
  | warn => 1
  | info => 2
  | debug => 3
  | trace => 4

/-- The name of a level in a journal line. -/
def name : Level → String
  | error => "ERROR"
  | warn => "WARN"
  | info => "INFO"
  | debug => "DEBUG"
  | trace => "TRACE"

/-- Whether a reader at level `shown` sees an event of this level. -/
def visibleAt (level shown : Level) : Bool := level.rank ≤ shown.rank

end Level

/-- Something that a machine notes. -/
inductive Event where
  /-- A frame was allocated and activated. -/
  | framePushed (index : Nat) (operator : UInt16) (window : Window)
  /-- An invocation was accepted. -/
  | invoked (function : UInt16) (frame previous : Nat)
  /-- An invocation brought its outputs. -/
  | returned (function : UInt16) (outputs : Nat)
  /-- An invocation ended in a fault. -/
  | faulted (cause : Fault)
  /-- An instruction is about to run. -/
  | executing (frame : Nat) (site : Location) (instruction : Instruction)
  /-- A CALL was completed by a return. -/
  | resumed (function : UInt16) (caller : Nat)
  /-- What a completed run of the command line used. -/
  | measured (function : UInt16) (executed arenaUsed : Nat)
  deriving Repr, DecidableEq

namespace Event

/-- How much detail an event is. -/
def level : Event → Level
  | framePushed .. => .debug
  | invoked .. => .debug
  | returned .. => .debug
  | faulted _ => .error
  | executing .. => .trace
  | resumed .. => .trace
  | measured .. => .info

/-- The text of an event. -/
def message : Event → String
  | framePushed index operator window =>
      s!"push frame {index}: fn {operator} at [{window.base}, {window.stop})"
  | invoked function frame previous =>
      s!"invoke fn {function} in frame {frame}, returning to {previous}"
  | returned function outputs => s!"fn {function} returned {outputs} outputs"
  | faulted cause => cause.message ++ "; machine poisoned"
  | executing frame site instruction =>
      s!"frame {frame} fn {site.function} @{site.position}: " ++ instruction.render
  | resumed function caller => s!"return from fn {function} to frame {caller}"
  | measured function executed arenaUsed =>
      s!"fn {function}: {executed} instructions, {arenaUsed} arena bytes used"

/-- The line of an event: its level and its text. -/
def line (e : Event) : String := e.level.name ++ " " ++ e.message

end Event

/-- What a machine noted, in order. -/
abbrev Journal := Array Event

/-- The lines that a reader at a level sees. -/
def Journal.lines (journal : Journal) (shown : Level) : List String :=
  (journal.toList.filter fun e => e.level.visibleAt shown).map Event.line

end FrameMachine
