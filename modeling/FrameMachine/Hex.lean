import FrameMachine.Bytes

/-!
# Hexadecimal text

Byte strings are written as text with two lowercase digits per byte.  Reading
accepts digits of either case and one leading `0x` marker.  An odd number of
digits is reported before any digit that is none.
-/

namespace FrameMachine
namespace Hex

/-- Why a text is no byte string. -/
inductive Error where
  | oddLength
  | invalidDigit (digit : Char)
  deriving Repr, DecidableEq

/-- The text of a reading error. -/
def Error.message : Error → String
  | .oddLength => "odd number of hex digits"
  | .invalidDigit digit => s!"invalid hex digit '{digit}'"

/-- The value of a hexadecimal digit of either case. -/
def digitValue? (c : Char) : Option UInt8 :=
  if '0' ≤ c ∧ c ≤ '9' then some (UInt8.ofNat (c.toNat - '0'.toNat))
  else if 'a' ≤ c ∧ c ≤ 'f' then some (UInt8.ofNat (c.toNat - 'a'.toNat + 10))
  else if 'A' ≤ c ∧ c ≤ 'F' then some (UInt8.ofNat (c.toNat - 'A'.toNat + 10))
  else none

/-- The value of a digit, or the complaint about the character in its place. -/
def readDigit (c : Char) : Except Error UInt8 :=
  match digitValue? c with
  | some value => .ok value
  | none => .error (.invalidDigit c)

/-- Read digits two by two; `read` holds the bytes so far, last one first. -/
def readPairs (read : Bytes) : List Char → Except Error Bytes
  | high :: low :: rest =>
      match readDigit high, readDigit low with
      | .ok h, .ok l => readPairs ((h <<< 4 ||| l) :: read) rest
      | .error e, _ => .error e
      | _, .error e => .error e
  | _ => .ok read.reverse

/-- The characters of a text behind one leading `0x` marker, if it has one. -/
def dropMarker : List Char → List Char
  | '0' :: 'x' :: digits => digits
  | digits => digits

/-- Read a byte string, with or without the `0x` marker. -/
def decode (text : String) : Except Error Bytes :=
  let digits := dropMarker text.toList
  if digits.length % 2 = 1 then .error .oddLength else readPairs [] digits

/-- The two lowercase digits of a byte. -/
def byteDigits (b : UInt8) : List Char :=
  [Nat.digitChar (b.toNat / 16), Nat.digitChar (b.toNat % 16)]

/-- Write a byte string with two lowercase digits per byte. -/
def encode (bytes : Bytes) : String :=
  String.ofList (bytes.flatMap byteDigits)

end Hex
end FrameMachine
