import FrameMachine.CommandLine.Complaint
import FrameMachine.CommandLine.Number

/-!
# Options of an invocation

Behind the file and the function come inputs and options in any order, read from
left to right.  An option with a value takes the next argument, whatever it
looks like; a repeated option counts for its last occurrence.  What is neither
an option nor starts with two dashes is an input.
-/

namespace FrameMachine
namespace CommandLine

/-- How a function is to be invoked. -/
structure Options where
  config : Config := {}
  fuel : Option Nat := none
  inputs : List Bytes := []
  deriving Repr, DecidableEq

/-- An option with a value. -/
inductive Setting where
  | memorySize
  | callDepth
  | fuel
  deriving Repr, DecidableEq

namespace Setting

/-- The argument that names a setting. -/
def flag : Setting → String
  | memorySize => "--memory-size"
  | callDepth => "--call-depth"
  | fuel => "--fuel"

/-- The setting that an argument names. -/
def ofFlag? (argument : String) : Option Setting :=
  [memorySize, callDepth, fuel].find? fun s => s.flag == argument

/-- Give a setting its value. -/
def assign (value : Nat) : Setting → Options → Options
  | memorySize, o => { o with config := { o.config with memorySize := value } }
  | callDepth, o => { o with config := { o.config with callStackSize := value } }
  | fuel, o => { o with fuel := some value }

/-- Read the value of a setting. -/
def read (s : Setting) (value : String) : Except Complaint Nat :=
  match number? Word.count value with
  | some n => .ok n
  | none => .error (.badValue s.flag value)

end Setting

/-- The argument that asks for frames to be released. -/
def reclaimFlag : String := "--reclaim"

/-- Take an argument that is no option with a value. -/
def Options.take (argument : String) (o : Options) : Except Complaint Options :=
  if argument = reclaimFlag then .ok { o with config := { o.config with reclaim := .release } }
  else if argument.startsWith "--" then .error (.unknownOption argument)
  else
    match Hex.decode argument with
    | .ok input => .ok { o with inputs := o.inputs ++ [input] }
    | .error e => .error (.badInput o.inputs.length e)

/-- Read the arguments behind the file and the function. -/
def readOptions (o : Options) : List String → Except Complaint Options
  | [] => .ok o
  | argument :: rest =>
      match Setting.ofFlag? argument with
      | none =>
          match o.take argument with
          | .error e => .error e
          | .ok o => readOptions o rest
      | some setting =>
          match rest with
          | [] => .error (.missingValue setting.flag)
          | value :: rest =>
              match setting.read value with
              | .error e => .error e
              | .ok n => readOptions (setting.assign n o) rest

end CommandLine
end FrameMachine
