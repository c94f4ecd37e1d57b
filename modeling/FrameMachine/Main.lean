import FrameMachine.CommandLine.Run

/-!
# The program

The outermost layer: it fetches the file that the arguments name, runs the
command line on its contents and prints the report.
-/

namespace FrameMachine
namespace CommandLine

/-- The error of a failed file operation. -/
def fileError : IO.Error → FileError
  | .noFileOrDirectory .. => .notFound
  | .inappropriateType _ 20 _ => .notADirectory
  | .inappropriateType _ 21 _ => .isADirectory
  | e => .other (toString e)

/-- Read a file. -/
def readPath (path : String) : IO (Except FileError Bytes) := do
  match ← (IO.FS.readBinFile path).toBaseIO with
  | .ok contents => return .ok contents.toList
  | .error e => return .error (fileError e)

/-- The file that the arguments name, if they name one. -/
def readNamed (arguments : List String) : IO (Except FileError Bytes) := do
  match commandOf arguments with
  | .ok command =>
      match command.path? with
      | some path => readPath path
      | none => return .error .notFound
  | .error _ => return .error .notFound

/-- The host of this program.  An array cannot be asked for ahead of time without ending
the process when the system has no room for it, so large regions are refused at once. -/
def host : Host := fun _ bytes => bytes ≤ UInt32.size

end CommandLine
end FrameMachine

open FrameMachine CommandLine in
/-- Run the command line. -/
def main (arguments : List String) : IO UInt32 := do
  let file ← readNamed arguments
  match run host (fun _ => file) arguments with
  | none => return 3
  | some report =>
      for line in report.journal.lines (shownLevel arguments) do
        IO.eprintln line
      for line in report.errors do
        IO.eprintln line
      for line in report.output do
        IO.println line
      return UInt32.ofNat report.code
