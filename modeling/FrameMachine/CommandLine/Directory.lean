import FrameMachine.Bytes

/-!
# Files seen from the command line

The command line reads one file.  What it sees of the outside is therefore a
function from paths to contents or errors.  This file holds the errors and the
simplest such function: a working directory with at most one file in it.

A path is walked component by component.  Empty components and `.` stay where
they are, `..` leads out of the working directory, and a file has nothing below
it, not even an empty component.
-/

namespace FrameMachine
namespace CommandLine

/-- Why a file cannot be read. -/
inductive FileError where
  | notFound
  | notADirectory
  | isADirectory
  | other (text : String)
  deriving Repr, DecidableEq

/-- The system's text for an error. -/
def FileError.message : FileError → String
  | notFound => "No such file or directory (os error 2)"
  | notADirectory => "Not a directory (os error 20)"
  | isADirectory => "Is a directory (os error 21)"
  | other text => text

/-- A working directory with at most one file. -/
structure Directory where
  fileName : String
  contents : Option Bytes

namespace Directory

/-- Walk a path; `inside` says whether the walk is in the working directory. -/
def walk (d : Directory) (inside : Bool) : List String → Except FileError Bytes
  | [] => .error .isADirectory
  | "" :: rest => d.walk inside rest
  | "." :: rest => d.walk inside rest
  | ".." :: rest => d.walk false rest
  | name :: rest =>
      match inside && name == d.fileName, d.contents with
      | true, some contents => if rest.isEmpty then .ok contents else .error .notADirectory
      | _, _ => .error .notFound

/-- The contents of the file at a path. -/
def read (d : Directory) (path : String) : Except FileError Bytes :=
  if path = "" then .error .notFound
  else d.walk (!path.startsWith "/") (path.splitOn "/")

end Directory
end CommandLine
end FrameMachine
