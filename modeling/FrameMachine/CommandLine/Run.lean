import FrameMachine.CommandLine.Listing
import FrameMachine.CommandLine.Options
import FrameMachine.Container.Decode
import FrameMachine.Interpreter.Execution

/-!
# Running the command line

The command line either shows the listing of a program or invokes one of its
functions and prints the outputs, one line of hexadecimal digits each.  The exit
status is 0 on success, 1 for a complaint, 2 for a request that the machine
refuses and 3 for a fault.  Output is printed on success only.

What is outside of the program is given to it: a function that reads files, and
the host that has room for machines or has not.

Arguments `-v` and `-vv` may stand anywhere; they only choose how much of the
journal is shown.
-/

namespace FrameMachine
namespace CommandLine

/-- What a run of the command line leaves behind. -/
structure Report where
  code : Nat
  output : List String := []
  errors : List String := []
  journal : Journal := #[]
  deriving Repr, DecidableEq

/-- The report of a complaint. -/
def Report.ofComplaint (c : Complaint) : Report where
  code := 1
  errors := c.lines

/-! ## Verbosity -/

/-- How much an argument adds to the verbosity, if it is about that at all. -/
def verbosity? (argument : String) : Option Nat :=
  if argument = "-v" then some 1 else if argument = "-vv" then some 2 else none

/-- The arguments that are not about verbosity. -/
def dropVerbosity (arguments : List String) : List String :=
  arguments.filter fun a => (verbosity? a).isNone

/-- The verbosity that all arguments together ask for. -/
def verbosity : List String → Nat
  | [] => 0
  | a :: arguments => (verbosity? a).getD 0 + verbosity arguments

/-- The most detailed level that is shown. -/
def shownLevel (arguments : List String) : Level :=
  match verbosity arguments with
  | 0 => .warn
  | 1 => .debug
  | _ => .trace

/-! ## Commands -/

/-- What is to be done. -/
inductive Command where
  | help
  | inspect (path : String)
  | invoke (path : String) (function : UInt16) (options : Options)
  deriving Repr, DecidableEq

/-- The file that a command reads. -/
def Command.path? : Command → Option String
  | help => none
  | inspect path => some path
  | invoke path _ _ => some path

/-- Read the arguments of an invocation. -/
def readInvoke : List String → Except Complaint Command
  | path :: function :: rest =>
      match number? UInt16.size function with
      | none => .error (.functionIndex function)
      | some index =>
          match readOptions {} rest with
          | .error e => .error e
          | .ok options => .ok (.invoke path (UInt16.ofNat index) options)
  | _ => .error .invokeOperands

/-- Read the arguments of an inspection; those behind the file are not looked at. -/
def readInspect : List String → Except Complaint Command
  | path :: _ => .ok (.inspect path)
  | [] => .error .inspectOperand

/-- Read arguments that are not about verbosity. -/
def readCommand : List String → Except Complaint Command
  | [] => .error .noCommand
  | name :: rest =>
      if name = "invoke" then readInvoke rest
      else if name = "inspect" then readInspect rest
      else if name = "--help" ∨ name = "-h" ∨ name = "help" then .ok .help
      else .error (.unknownCommand name)

/-! ## Doing it -/

/-- Read the program at a path. -/
def load (read : String → Except FileError Bytes) (path : String) : Except Complaint Program :=
  match read path with
  | .error e => .error (.unreadable path e)
  | .ok contents => (Container.decode contents).mapError .invalidProgram

/-- The report of an answered invocation. -/
def Report.ofReply (function : UInt16) (reply : Reply Interpreter) : Report :=
  let m := reply.machine
  match reply.outcome with
  | .ok outputs =>
      { code := 0
        output := outputs.map Hex.encode
        journal := m.journal.push
          (.measured function reply.engine.executed m.arena.stackPointer) }
  | .error e =>
      match e.kind with
      | .fatal => { code := 3, errors := ["internal error: " ++ e.message], journal := m.journal }
      | _ => { code := 2, errors := ["error: " ++ e.message], journal := m.journal }

/-- Invoke a function of a program on a fresh machine.  There is no report if the
function never comes back. -/
def invoke (host : Host) (program : Program) (function : UInt16) (options : Options) :
    Option Report :=
  match Machine.create host options.config with
  | .error e => some (.ofComplaint (.configuration e))
  | .ok m =>
      (m.invoke program (Interpreter.run program) function options.inputs
        ⟨options.fuel, 0⟩).map (Report.ofReply function)

/-- Carry out a command. -/
def perform (host : Host) (read : String → Except FileError Bytes) : Command → Option Report
  | .help => some { code := 0, errors := usage }
  | .inspect path =>
      match load read path with
      | .error e => some (.ofComplaint e)
      | .ok program => some { code := 0, output := listing program }
  | .invoke path function options =>
      match load read path with
      | .error e => some (.ofComplaint e)
      | .ok program => invoke host program function options

/-- The command that the arguments ask for. -/
def commandOf (arguments : List String) : Except Complaint Command :=
  readCommand (dropVerbosity arguments)

/-- Run the command line with the given arguments. -/
def run (host : Host) (read : String → Except FileError Bytes) (arguments : List String) :
    Option Report :=
  match commandOf arguments with
  | .error e => some (.ofComplaint e)
  | .ok command => perform host read command

end CommandLine
end FrameMachine
