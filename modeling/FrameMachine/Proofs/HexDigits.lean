import FrameMachine.Proofs.Texts

/-!
# Texts that are byte strings

A text is a byte string if, apart from one leading marker, it consists of an even number
of hexadecimal digits.  Digits of either case mean the same, so writing what has been
read brings back the text in lowercase.  Of a text that is no byte string an odd length
is reported first, and otherwise the first character that is no digit, whichever place
it has in its pair.

Main results:

- Theorems `readDigit_of_isDigit` and `readDigit_of_not_isDigit`: which characters are
  read as digits.
- Theorem `exists_bytes_of_digits`: an even number of digits, in lowercase, is what some
  byte string is written as.
- Theorem `readPairs_of_find?_eq_some`: pair by pair, the first character that is no
  digit is reported.
- Theorem `codec_exact`: what is written is read back, and every text is a byte string or
  has one of the two faults.
-/

namespace FrameMachine
namespace Hex

/-! ## Digits of either case -/

/-- The hexadecimal digits. -/
def digitChars : List Char := "0123456789abcdefABCDEF".toList

/-- Whether a character is a hexadecimal digit. -/
def isDigit (c : Char) : Bool := digitChars.contains c

section Digits

variable {c : Char}

theorem exists_value_of_isDigit (h : isDigit c = true) :
    ∃ n < 16, digitValue? c = some (UInt8.ofNat n) ∧ c.toLower = Nat.digitChar n := by
  have hall : (digitChars.all fun c => (List.range 16).any fun n =>
      digitValue? c = some (UInt8.ofNat n) ∧ c.toLower = Nat.digitChar n) = true := by decide
  have hc := List.all_eq_true.mp hall c (List.contains_iff_mem.mp h)
  rcases List.any_eq_true.mp hc with ⟨n, hn, hvalue⟩
  exact ⟨n, List.mem_range.mp hn, of_decide_eq_true hvalue⟩

/-- A digit has the value of its lowercase form. -/
theorem readDigit_of_isDigit (h : isDigit c = true) :
    ∃ n < 16, readDigit c = .ok (UInt8.ofNat n) ∧ c.toLower = Nat.digitChar n := by
  rcases exists_value_of_isDigit h with ⟨n, hn, hvalue, hlower⟩
  refine ⟨n, hn, ?_, hlower⟩
  simp only [readDigit, hvalue]

/-- All characters of a range are digits if those with the numbers of the range are. -/
theorem isDigit_of_between {low high : Char} (hlow : low ≤ c) (hhigh : c ≤ high)
    (hall : ∀ n ≤ high.toNat, low.toNat ≤ n → isDigit (Char.ofNat n) = true) :
    isDigit c = true := by
  have hn := hall c.toNat (UInt32.le_iff_toNat_le.mp hhigh) (UInt32.le_iff_toNat_le.mp hlow)
  rwa [Char.ofNat_toNat] at hn

/-- No other character has a value. -/
theorem readDigit_of_not_isDigit (h : isDigit c = false) :
    readDigit c = .error (.invalidDigit c) := by
  have hrange {low high : Char}
      (hall : ∀ n ≤ high.toNat, low.toNat ≤ n → isDigit (Char.ofNat n) = true) :
      ¬(low ≤ c ∧ c ≤ high) := by
    rintro ⟨hlow, hhigh⟩
    exact absurd (h.symm.trans (isDigit_of_between hlow hhigh hall)) (by decide)
  have hnone : digitValue? c = none := by
    unfold digitValue?
    rw [if_neg (hrange (by decide)), if_neg (hrange (by decide)), if_neg (hrange (by decide))]
  simp only [readDigit, hnone]

end Digits

/-! ## Pairs of digits -/

section Pairs

/-- Two digits are what some byte is written as. -/
theorem exists_byteDigits {n k : Nat} (hn : n < 16) (hk : k < 16) :
    ∃ b, byteDigits b = [Nat.digitChar n, Nat.digitChar k] := by
  have hb : (UInt8.ofNat (16 * n + k)).toNat = 16 * n + k := by
    rw [UInt8.toNat_ofNat']
    omega
  refine ⟨UInt8.ofNat (16 * n + k), ?_⟩
  rw [byteDigits, hb, show (16 * n + k) / 16 = n by omega, show (16 * n + k) % 16 = k by omega]

/-- An even number of digits, in lowercase, is what some byte string is written as. -/
theorem exists_bytes_of_digits : ∀ {cs : List Char}, cs.length % 2 = 0 →
    (∀ c ∈ cs, isDigit c = true) → ∃ bytes : Bytes, cs.map Char.toLower = bytes.flatMap byteDigits
  | [], _, _ => ⟨[], rfl⟩
  | [_], hlength, _ => absurd hlength (by simp)
  | high :: low :: rest, hlength, hdigits => by
      rcases readDigit_of_isDigit (hdigits high (by simp)) with ⟨n, hn, -, hhigh⟩
      rcases readDigit_of_isDigit (hdigits low (by simp)) with ⟨k, hk, -, hlow⟩
      rcases exists_byteDigits hn hk with ⟨b, hb⟩
      have hrest : rest.length % 2 = 0 := by
        simp only [List.length_cons] at hlength
        omega
      rcases exists_bytes_of_digits hrest fun c hc => hdigits c (by simp [hc]) with
        ⟨bytes, hbytes⟩
      refine ⟨b :: bytes, ?_⟩
      rw [List.map_cons, List.map_cons, hbytes, List.flatMap_cons, hb, hhigh, hlow]
      rfl

/-- Reading takes no notice of the case of digits. -/
theorem readPairs_toLower : ∀ (read : Bytes) {cs : List Char},
    (∀ c ∈ cs, isDigit c = true) → readPairs read (cs.map Char.toLower) = readPairs read cs
  | _, [], _ => rfl
  | _, [_], _ => rfl
  | read, high :: low :: rest, hdigits => by
      have hsame (c : Char) (hc : c ∈ high :: low :: rest) : readDigit c.toLower = readDigit c := by
        rcases readDigit_of_isDigit (hdigits c hc) with ⟨n, hn, hread, hlower⟩
        rw [hlower, hread, readDigit_digitChar hn]
      rcases readDigit_of_isDigit (hdigits high (by simp)) with ⟨n, -, hhigh, -⟩
      rcases readDigit_of_isDigit (hdigits low (by simp)) with ⟨k, -, hlow, -⟩
      simp only [List.map_cons, readPairs, hsame high (by simp), hsame low (by simp), hhigh, hlow]
      exact readPairs_toLower _ fun c hc => hdigits c (by simp [hc])

/-- The first character that is no digit is reported, whichever place it has in its
pair. -/
theorem readPairs_of_find?_eq_some {c : Char} : ∀ (read : Bytes) {cs : List Char},
    cs.length % 2 = 0 → cs.find? (fun d => !isDigit d) = some c →
      readPairs read cs = .error (.invalidDigit c)
  | _, [], _, hfirst => nomatch hfirst
  | _, [_], hlength, _ => absurd hlength (by simp)
  | read, high :: low :: rest, hlength, hfirst => by
      rw [List.find?_cons] at hfirst
      cases hhigh : isDigit high with
      | false =>
          simp only [hhigh, Bool.not_false, Option.some.injEq] at hfirst
          subst hfirst
          simp only [readPairs, readDigit_of_not_isDigit hhigh]
      | true =>
          simp only [hhigh, Bool.not_true] at hfirst
          rcases readDigit_of_isDigit hhigh with ⟨n, -, hreadHigh, -⟩
          rw [List.find?_cons] at hfirst
          cases hlow : isDigit low with
          | false =>
              simp only [hlow, Bool.not_false, Option.some.injEq] at hfirst
              subst hfirst
              simp only [readPairs, hreadHigh, readDigit_of_not_isDigit hlow]
          | true =>
              simp only [hlow, Bool.not_true] at hfirst
              rcases readDigit_of_isDigit hlow with ⟨k, -, hreadLow, -⟩
              have hrest : rest.length % 2 = 0 := by
                simp only [List.length_cons] at hlength
                omega
              simp only [readPairs, hreadHigh, hreadLow]
              exact readPairs_of_find?_eq_some _ hrest hfirst

end Pairs

/-! ## Texts -/

/-- The characters of a text without one leading marker, if it has one. -/
def unmarked (text : String) : List Char :=
  if text.startsWith "0x" then text.toList.drop 2 else text.toList

section Texts

variable {text : String}

theorem dropMarker_toList (text : String) : dropMarker text.toList = unmarked text := by
  unfold dropMarker unmarked
  split
  · rename_i rest htext
    have hmarked : text.startsWith "0x" = true := by
      rw [String.startsWith_string_iff, htext]
      exact ⟨rest, rfl⟩
    rw [if_pos hmarked, htext]
    rfl
  · rename_i hplain
    have hunmarked : ¬text.startsWith "0x" = true := by
      rw [String.startsWith_string_iff]
      rintro ⟨rest, htext⟩
      exact hplain rest htext.symm
    rw [if_neg hunmarked]

theorem unmarked_marked (text : String) : unmarked ("0x" ++ text) = text.toList := by
  rw [← dropMarker_toList, String.toList_append]
  rfl

theorem decode_eq (text : String) :
    decode text =
      if (unmarked text).length % 2 = 1 then .error .oddLength
      else readPairs [] (unmarked text) := by
  rw [← dropMarker_toList]
  rfl

/-- An odd length is reported first. -/
theorem decode_of_odd (hodd : (unmarked text).length % 2 = 1) :
    decode text = .error .oddLength := by
  rw [decode_eq, if_pos hodd]

/-- An even number of digits is a byte string, which is written as the digits in
lowercase. -/
theorem decode_of_digits (heven : (unmarked text).length % 2 = 0)
    (hdigits : ∀ c ∈ unmarked text, isDigit c = true) :
    ∃ bytes, decode text = .ok bytes ∧
      encode bytes = String.ofList ((unmarked text).map Char.toLower) := by
  rcases exists_bytes_of_digits heven hdigits with ⟨bytes, hbytes⟩
  refine ⟨bytes, ?_, by rw [hbytes, encode]⟩
  rw [decode_eq, if_neg (by omega), ← readPairs_toLower [] hdigits, hbytes, readPairs_byteDigits]
  rfl

/-- Otherwise the first character that is no digit is reported. -/
theorem decode_of_find?_eq_some {c : Char} (heven : (unmarked text).length % 2 = 0)
    (hfirst : (unmarked text).find? (fun d => !isDigit d) = some c) :
    decode text = .error (.invalidDigit c) := by
  rw [decode_eq, if_neg (by omega), readPairs_of_find?_eq_some [] heven hfirst]

/-- There is nothing else that a text can be read as. -/
theorem decode_cases (text : String) :
    ((unmarked text).length % 2 = 1 ∧ decode text = .error .oddLength) ∨
    ((unmarked text).length % 2 = 0 ∧ (∀ c ∈ unmarked text, isDigit c = true) ∧
      ∃ bytes, decode text = .ok bytes ∧
        encode bytes = String.ofList ((unmarked text).map Char.toLower)) ∨
    (unmarked text).length % 2 = 0 ∧ ∃ c, (unmarked text).find? (fun d => !isDigit d) = some c ∧
      decode text = .error (.invalidDigit c) := by
  rcases Nat.mod_two_eq_zero_or_one (unmarked text).length with heven | hodd
  · cases hfirst : (unmarked text).find? (fun d => !isDigit d) with
    | none =>
        have hdigits : ∀ c ∈ unmarked text, isDigit c = true := by
          simpa using List.find?_eq_none.mp hfirst
        exact Or.inr (Or.inl ⟨heven, hdigits, decode_of_digits heven hdigits⟩)
    | some c => exact Or.inr (Or.inr ⟨heven, c, rfl, decode_of_find?_eq_some heven hfirst⟩)
  · exact Or.inl ⟨hodd, decode_of_odd hodd⟩

theorem exists_decode_eq_ok_iff :
    (∃ bytes, decode text = .ok bytes) ↔
      (unmarked text).length % 2 = 0 ∧ ∀ c ∈ unmarked text, isDigit c = true := by
  constructor
  · rintro ⟨bytes, hread⟩
    rcases decode_cases text with ⟨-, hodd⟩ | ⟨heven, hdigits, -⟩ | ⟨-, c, -, hinvalid⟩
    · exact absurd (hread.symm.trans hodd) nofun
    · exact ⟨heven, hdigits⟩
    · exact absurd (hread.symm.trans hinvalid) nofun
  · rintro ⟨heven, hdigits⟩
    rcases decode_of_digits heven hdigits with ⟨bytes, hread, -⟩
    exact ⟨bytes, hread⟩

/-- Writing what has been read brings back the text in lowercase, without its marker. -/
theorem encode_of_decode {bytes : Bytes} (hread : decode text = .ok bytes) :
    encode bytes = String.ofList ((unmarked text).map Char.toLower) := by
  rcases exists_decode_eq_ok_iff.mp ⟨bytes, hread⟩ with ⟨heven, hdigits⟩
  rcases decode_of_digits heven hdigits with ⟨bytes', hread', hwritten⟩
  cases hread.symm.trans hread'
  exact hwritten

theorem decode_eq_oddLength_iff :
    decode text = .error .oddLength ↔ (unmarked text).length % 2 = 1 := by
  constructor
  · intro hread
    rcases decode_cases text with ⟨hodd, -⟩ | ⟨-, -, bytes, hok, -⟩ | ⟨-, c, -, hinvalid⟩
    · exact hodd
    · exact absurd (hread.symm.trans hok) nofun
    · exact absurd (hread.symm.trans hinvalid) nofun
  · exact decode_of_odd

theorem decode_eq_invalidDigit_iff {c : Char} :
    decode text = .error (.invalidDigit c) ↔
      (unmarked text).length % 2 = 0 ∧
        (unmarked text).find? (fun d => !isDigit d) = some c := by
  constructor
  · intro hread
    rcases decode_cases text with ⟨-, hodd⟩ | ⟨-, -, bytes, hok, -⟩ | ⟨heven, d, hfirst, hinvalid⟩
    · exact absurd (hread.symm.trans hodd) nofun
    · exact absurd (hread.symm.trans hok) nofun
    · cases hread.symm.trans hinvalid
      exact ⟨heven, hfirst⟩
  · rintro ⟨heven, hfirst⟩
    exact decode_of_find?_eq_some heven hfirst

/-- What is written is read back behind a marker as well. -/
theorem decode_marked_encode (bytes : Bytes) : decode ("0x" ++ encode bytes) = .ok bytes := by
  rw [decode_eq, unmarked_marked, encode, String.toList_ofList, length_byteDigits,
    if_neg (by omega), readPairs_byteDigits]
  rfl

/-- What is written is read back, with the marker or without.  A text is a byte string
exactly if it consists of an even number of digits, marker apart, and is then written in
lowercase; an odd length is reported whatever the characters are, and otherwise the
first character that is no digit. -/
theorem codec_exact :
    (∀ bytes, decode (encode bytes) = .ok bytes ∧ decode ("0x" ++ encode bytes) = .ok bytes) ∧
    ∀ text,
      ((∃ bytes, decode text = .ok bytes) ↔
        (unmarked text).length % 2 = 0 ∧ ∀ c ∈ unmarked text, isDigit c = true) ∧
      (∀ bytes, decode text = .ok bytes →
        encode bytes = String.ofList ((unmarked text).map Char.toLower)) ∧
      (decode text = .error .oddLength ↔ (unmarked text).length % 2 = 1) ∧
      ∀ c, decode text = .error (.invalidDigit c) ↔
        (unmarked text).length % 2 = 0 ∧
          (unmarked text).find? (fun d => !isDigit d) = some c := by
  constructor
  · intro bytes
    exact ⟨decode_encode bytes, decode_marked_encode bytes⟩
  · intro text
    refine ⟨exists_decode_eq_ok_iff, ?_, decode_eq_oddLength_iff, ?_⟩
    · intro bytes hread
      exact encode_of_decode hread
    · intro c
      exact decode_eq_invalidDigit_iff

/-- Of two characters that are no digits the first one is reported, here from the second
place of its pair. -/
example : decode "0x0Agz" = .error (.invalidDigit 'g') := by cbv

end Texts
end Hex
end FrameMachine
