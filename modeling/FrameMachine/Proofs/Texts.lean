import FrameMachine.Hex

/-!
# Texts that can be read back

Numbers, byte strings and lines are written one behind the other.  This file says
when a reader can tell where each of them ends: a run of characters of one kind
ends where another kind begins, byte strings are read back digit by digit, and a
line ends at its newline.

Main results:

- Theorem `eq_of_append_of_stops`: where a run of characters of one kind ends.
- Theorem `eq_of_digits_append`: a decimal number is known from its digits.
- Theorem `Hex.decode_encode`: what is written in hexadecimal digits is read back.
- Theorem `eq_of_printed_eq`: a printed text tells its lines.
-/

namespace FrameMachine

/-! ## Runs of characters -/

/-- A text does not go on with a character of a kind. -/
def Stops (kind : Char → Bool) : List Char → Prop
  | [] => True
  | c :: _ => kind c = false

/-- Where two texts start with runs of one kind, the runs are the same, and so is what
follows them. -/
theorem eq_of_append_of_stops {kind : Char → Bool} {word word' rest rest' : List Char}
    (hword : ∀ c ∈ word, kind c = true) (hword' : ∀ c ∈ word', kind c = true)
    (hrest : Stops kind rest) (hrest' : Stops kind rest')
    (h : word ++ rest = word' ++ rest') : word = word' ∧ rest = rest' := by
  induction word generalizing word' with
  | nil =>
      cases word' with
      | nil => exact ⟨rfl, h⟩
      | cons c word' =>
          subst h
          have hc := hword' c (List.mem_cons_self ..)
          exact absurd (hc.symm.trans hrest) (by decide)
  | cons c word ih =>
      cases word' with
      | nil =>
          subst h
          have hc := hword c (List.mem_cons_self ..)
          exact absurd (hc.symm.trans hrest') (by decide)
      | cons c' word' =>
          simp only [List.cons_append, List.cons.injEq] at h
          rcases h with ⟨rfl, h⟩
          have hsame := ih (fun d hd => hword d (List.mem_cons_of_mem _ hd))
            (fun d hd => hword' d (List.mem_cons_of_mem _ hd)) h
          exact ⟨congrArg (c :: ·) hsame.1, hsame.2⟩

/-! ## Decimal numbers -/

/-- The digits of a number. -/
def digits (n : Nat) : List Char := Nat.toDigits 10 n

theorem toList_toString (n : Nat) : (toString n).toList = digits n := by
  rw [Nat.toString_eq_ofList_toDigits, String.toList_ofList]
  rfl

theorem isDigit_of_mem_digits {n : Nat} {c : Char} (h : c ∈ digits n) : c.isDigit = true :=
  Nat.isDigit_of_mem_toDigits (by decide) (by decide) h

/-- A number has a digit. -/
theorem digits_append_ne {n : Nat} {rest rest' : List Char} (hrest' : Stops Char.isDigit rest') :
    digits n ++ rest ≠ rest' := by
  rintro rfl
  have hne : digits n ≠ [] := Nat.toDigits_ne_nil
  rcases List.exists_cons_of_ne_nil hne with ⟨c, more, hdigits⟩
  have hc : c.isDigit = true := isDigit_of_mem_digits (hdigits ▸ List.mem_cons_self ..)
  rw [hdigits] at hrest'
  exact absurd (hc.symm.trans hrest') (by decide)

/-- A number is known from its digits, and so is what follows them. -/
theorem eq_of_digits_append {n n' : Nat} {rest rest' : List Char}
    (hrest : Stops Char.isDigit rest) (hrest' : Stops Char.isDigit rest')
    (h : digits n ++ rest = digits n' ++ rest') : n = n' ∧ rest = rest' := by
  rcases eq_of_append_of_stops (fun _ => isDigit_of_mem_digits) (fun _ => isDigit_of_mem_digits)
    hrest hrest' h with ⟨hdigits, hsame⟩
  have hvalue : n = n' := by
    calc
      n = Nat.ofDigitChars 10 (digits n) 0 := Nat.ofDigitChars_ten_toDigits.symm
      _ = Nat.ofDigitChars 10 (digits n') 0 := by rw [hdigits]
      _ = n' := Nat.ofDigitChars_ten_toDigits
  exact ⟨hvalue, hsame⟩

/-! ## Hexadecimal digits -/

namespace Hex

theorem readDigit_digitChar {n : Nat} (h : n < 16) :
    readDigit (Nat.digitChar n) = .ok (UInt8.ofNat n) := by
  have hvalue : ∀ n < 16, digitValue? (Nat.digitChar n) = some (UInt8.ofNat n) := by decide
  simp only [readDigit, hvalue n h]

/-- A byte is put together from its two digits. -/
theorem joined_digits (b : UInt8) :
    UInt8.ofNat (b.toNat / 16) <<< 4 ||| UInt8.ofNat (b.toNat % 16) = b := by
  have hb := b.toNat_lt
  have hplaces : (4 : UInt8).toNat % 8 = 4 := rfl
  have hhigh : (UInt8.ofNat (b.toNat / 16) <<< 4).toNat = (b.toNat / 16) <<< 4 := by
    rw [UInt8.toNat_shiftLeft, UInt8.toNat_ofNat', hplaces, Nat.shiftLeft_eq]
    omega
  have hlow : (UInt8.ofNat (b.toNat % 16)).toNat = b.toNat % 16 := by
    rw [UInt8.toNat_ofNat']
    omega
  apply UInt8.toNat_inj.mp
  rw [UInt8.toNat_or, hhigh, hlow, ← Nat.shiftLeft_add_eq_or_of_lt (by omega), Nat.shiftLeft_eq]
  omega

theorem readPairs_byteDigits (read bytes : Bytes) :
    readPairs read (bytes.flatMap byteDigits) = .ok (read.reverse ++ bytes) := by
  induction bytes generalizing read with
  | nil => simp [readPairs]
  | cons b bytes ih =>
      have hb := b.toNat_lt
      simp only [List.flatMap_cons, byteDigits, List.cons_append, List.nil_append, readPairs,
        readDigit_digitChar (show b.toNat / 16 < 16 by omega),
        readDigit_digitChar (show b.toNat % 16 < 16 by omega), joined_digits]
      rw [ih, List.reverse_cons, List.append_assoc]
      rfl

theorem length_byteDigits (bytes : Bytes) :
    (bytes.flatMap byteDigits).length = 2 * bytes.length := by
  induction bytes with
  | nil => rfl
  | cons b bytes ih =>
      simp only [List.flatMap_cons, List.length_append, ih, byteDigits, List.length_cons,
        List.length_nil]
      omega

/-- Byte strings are written with the digits of the numbers below 16. -/
theorem exists_digit_of_mem {bytes : Bytes} {c : Char} (h : c ∈ bytes.flatMap byteDigits) :
    ∃ n < 16, c = Nat.digitChar n := by
  rcases List.mem_flatMap.mp h with ⟨b, -, hc⟩
  have hb := b.toNat_lt
  simp only [byteDigits, List.mem_cons, List.not_mem_nil, or_false] at hc
  rcases hc with rfl | rfl
  · exact ⟨_, by omega, rfl⟩
  · exact ⟨_, by omega, rfl⟩

/-- No digit is taken for the marker. -/
theorem dropMarker_byteDigits (bytes : Bytes) :
    dropMarker (bytes.flatMap byteDigits) = bytes.flatMap byteDigits := by
  unfold dropMarker
  split
  · rename_i rest hmarker
    have hx : 'x' ∈ bytes.flatMap byteDigits := by simp [hmarker]
    rcases exists_digit_of_mem hx with ⟨n, hn, hdigit⟩
    have hother : ∀ n < 16, 'x' ≠ Nat.digitChar n := by decide
    exact absurd hdigit (hother n hn)
  · rfl

/-- What is written in hexadecimal digits is read back. -/
@[simp]
theorem decode_encode (bytes : Bytes) : decode (encode bytes) = .ok bytes := by
  simp only [decode, encode, String.toList_ofList, dropMarker_byteDigits, length_byteDigits,
    readPairs_byteDigits, List.reverse_nil, List.nil_append]
  rw [if_neg (by omega)]

theorem encode_inj {bytes bytes' : Bytes} (h : encode bytes = encode bytes') :
    bytes = bytes' := by
  have hread := congrArg decode h
  simpa using hread

theorem newline_notMem_encode (bytes : Bytes) : '\n' ∉ (encode bytes).toList := by
  rw [encode, String.toList_ofList]
  intro h
  rcases exists_digit_of_mem h with ⟨n, hn, hdigit⟩
  have hother : ∀ n < 16, '\n' ≠ Nat.digitChar n := by decide
  exact hother n hn hdigit

end Hex

/-! ## Lines -/

/-- The text of some lines, each with a newline behind it. -/
def printed (lines : List String) : String :=
  String.ofList (lines.flatMap fun line => line.toList ++ ['\n'])

theorem toList_printed (lines : List String) :
    (printed lines).toList = lines.flatMap fun line => line.toList ++ ['\n'] :=
  String.toList_ofList

theorem toList_printed_cons (line : String) (lines : List String) :
    (printed (line :: lines)).toList = line.toList ++ '\n' :: (printed lines).toList := by
  simp only [toList_printed, List.flatMap_cons, List.append_assoc, List.cons_append,
    List.nil_append]

theorem toList_printed_append (lines lines' : List String) :
    (printed (lines ++ lines')).toList = (printed lines).toList ++ (printed lines').toList := by
  simp only [toList_printed, List.flatMap_append]

/-- A printed text tells its lines if none of them has a newline inside. -/
theorem eq_of_printed_eq {lines lines' : List String} (hline : ∀ line ∈ lines, '\n' ∉ line.toList)
    (hline' : ∀ line ∈ lines', '\n' ∉ line.toList) (h : printed lines = printed lines') :
    lines = lines' := by
  have htext := congrArg String.toList h
  clear h
  induction lines generalizing lines' with
  | nil =>
      cases lines' with
      | nil => rfl
      | cons line' lines' => simp [toList_printed] at htext
  | cons line lines ih =>
      cases lines' with
      | nil => simp [toList_printed] at htext
      | cons line' lines' =>
          rw [toList_printed_cons, toList_printed_cons] at htext
          have hkind : ∀ l : String, '\n' ∉ l.toList → ∀ c ∈ l.toList, (c != '\n') = true := by
            intro l hl c hc
            exact bne_iff_ne.mpr fun heq => hl (heq ▸ hc)
          have hstops : ∀ rest, Stops (fun c => c != '\n') ('\n' :: rest) := fun _ => rfl
          rcases eq_of_append_of_stops (hkind line (hline line (List.mem_cons_self ..)))
            (hkind line' (hline' line' (List.mem_cons_self ..))) (hstops _) (hstops _) htext with
            ⟨hword, hrest⟩
          have hrest := ih (fun l hl => hline l (List.mem_cons_of_mem _ hl))
            (fun l hl => hline' l (List.mem_cons_of_mem _ hl)) (List.cons.inj hrest).2
          rw [String.toList_inj.mp hword, hrest]

end FrameMachine
