import FrameMachine.CommandLine.Directory
import FrameMachine.Container.Error
import FrameMachine.Hex
import FrameMachine.Machine.Config

/-!
# Complaints of the command line

Everything that can be wrong before a function is invoked, from a missing
command to a configuration that the machine refuses.  Each complaint has the
lines that are printed for it.
-/

namespace FrameMachine
namespace CommandLine

/-- The lines that explain the command line. -/
def usage : List String :=
  ["Usage: reentry [-v|-vv] <command> [args]",
   "",
   "Commands:",
   "  invoke <program.rbc> <function> [hex ...]   Invoke a function, print outputs as hex",
   "  inspect <program.rbc>                       Print descriptors and disassembly",
   "",
   "Invoke options:",
   "  --memory-size N   Arena size in bytes (default 1048576)",
   "  --call-depth N    Call stack slots, root included (default 1000)",
   "  --reclaim         Release frame memory after each return",
   "  --fuel N          Fault after N instructions"]

/-- What is wrong with the arguments or the program file. -/
inductive Complaint where
  /-- There is no command. -/
  | noCommand
  /-- The command is not known. -/
  | unknownCommand (command : String)
  /-- The file or the function of an invocation is missing. -/
  | invokeOperands
  /-- The file of an inspection is missing. -/
  | inspectOperand
  /-- The function is no index. -/
  | functionIndex (text : String)
  /-- An option that needs a value comes last. -/
  | missingValue (flag : String)
  /-- The value of an option is no number. -/
  | badValue (flag value : String)
  /-- The option is not known. -/
  | unknownOption (flag : String)
  /-- An input is no byte string. -/
  | badInput (index : Nat) (reason : Hex.Error)
  /-- The file cannot be read. -/
  | unreadable (path : String) (reason : FileError)
  /-- The file holds no program. -/
  | invalidProgram (reason : DecodeError)
  /-- The machine refuses its configuration. -/
  | configuration (reason : ConfigError)
  deriving Repr, DecidableEq

/-- The lines of a complaint. -/
def Complaint.lines : Complaint → List String
  | noCommand => usage
  | unknownCommand command => s!"error: unknown command '{command}'" :: "" :: usage
  | invokeOperands =>
      ["error: invoke requires a program file and a function index",
       "Usage: reentry invoke <program.rbc> <function> [hex ...] [options]"]
  | inspectOperand =>
      ["error: inspect requires an input file",
       "Usage: reentry inspect <program.rbc>"]
  | functionIndex text => [s!"error: invalid function index '{text}'"]
  | missingValue flag => [s!"error: {flag} requires a value"]
  | badValue flag value => [s!"error: {flag} expects a number, got '{value}'"]
  | unknownOption flag => [s!"error: unknown option '{flag}'"]
  | badInput index reason => [s!"error: input {index}: " ++ reason.message]
  | unreadable path reason => [s!"error: cannot read '{path}': " ++ reason.message]
  | invalidProgram reason => ["error: invalid program: " ++ reason.message]
  | configuration reason => ["error: " ++ reason.message]

end CommandLine
end FrameMachine
