/-!
# Numbers on the command line

A number is an optional plus sign and at least one ASCII digit.  Leading zeros
do not matter, and a number must stay below the bound of the field it is for.
-/

namespace FrameMachine
namespace CommandLine

/-- The value of a decimal digit. -/
def digitValue? (c : Char) : Option Nat :=
  if '0' ≤ c ∧ c ≤ '9' then some (c.toNat - '0'.toNat) else none

/-- Read digits behind those that gave `value`. -/
def readDigits (value : Nat) : List Char → Option Nat
  | [] => some value
  | c :: rest =>
      match digitValue? c with
      | some digit => readDigits (value * 10 + digit) rest
      | none => none

/-- The characters behind one leading plus sign, if there is one. -/
def dropPlus : List Char → List Char
  | '+' :: rest => rest
  | text => text

/-- Read a number below `bound`. -/
def number? (bound : Nat) (text : String) : Option Nat :=
  match dropPlus text.toList with
  | [] => none
  | digits => (readDigits 0 digits).filter fun n => n < bound

end CommandLine
end FrameMachine
