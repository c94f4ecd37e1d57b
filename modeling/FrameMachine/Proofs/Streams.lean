import FrameMachine.Container.Code
import Mathlib.Algebra.Ring.Nat

/-!
# Reading back what was written

Numbers and instructions are stored in a fixed number of bytes.  This file shows that
storing and reading them are inverse to each other, in both directions, and carries this
over to instruction streams of any length: a stream is read exactly if it is the stored form
of some instructions, and then these are what is read.

Main results:

- Theorems `combine_split` and `split_combine`: a field holds every number that fits it, and
  the number tells the field.
- Theorem `Instruction.decode_eq_ok_iff`: eight bytes are read as an instruction exactly if
  they are its stored form.
- Theorem `Code.decode_eq_ok_iff`: so it is with streams.
- Theorem `Code.isOpcode_of_decode_eq_error`: a stream of whole instructions is refused only
  for an opcode.
-/

namespace FrameMachine

/-! ## Fields -/

namespace LittleEndian

/-- A field holds only numbers below the number of its values. -/
theorem combine_lt (bytes : Bytes) : combine bytes < 256 ^ bytes.length := by
  induction bytes with
  | nil => exact Nat.one_pos
  | cons b bytes ih =>
      have hb := b.toNat_lt
      simp only [combine, List.length_cons, pow_succ]
      omega

/-- The bytes of a field are those of the number that it holds. -/
@[simp]
theorem split_combine (bytes : Bytes) : split bytes.length (combine bytes) = bytes := by
  induction bytes with
  | nil => rfl
  | cons b bytes ih =>
      have hb := b.toNat_lt
      have hlow : UInt8.ofNat (b.toNat + 256 * combine bytes) = b := by
        apply UInt8.toNat.inj
        rw [UInt8.toNat_ofNat']
        omega
      have hrest : (b.toNat + 256 * combine bytes) / 256 = combine bytes := by omega
      simp only [List.length_cons, combine, split, hlow, hrest, ih]

/-- A field holds every number that fits it. -/
theorem combine_split {width n : Nat} (h : n < 256 ^ width) : combine (split width n) = n := by
  induction width generalizing n with
  | zero =>
      have hn : n = 0 := by simpa using h
      rw [hn]
      rfl
  | succ width ih =>
      have hrest : n / 256 < 256 ^ width := by
        rw [pow_succ] at h
        omega
      simp only [split, combine, ih hrest, UInt8.toNat_ofNat']
      omega

/-- Every half word fits two bytes. -/
theorem half_lt (x : UInt16) : x.toNat < 256 ^ 2 := by
  have hx := x.toNat_lt
  omega

/-- Every word fits four bytes. -/
theorem word_lt (x : UInt32) : x.toNat < 256 ^ 4 := by
  have hx := x.toNat_lt
  omega

/-- A number that fits two bytes is a half word. -/
theorem toNat_ofNat_half {n : Nat} (h : n < 256 ^ 2) : (UInt16.ofNat n).toNat = n := by
  rw [UInt16.toNat_ofNat', Nat.mod_eq_of_lt (by omega)]

/-- A number that fits four bytes is a word. -/
theorem toNat_ofNat_word {n : Nat} (h : n < 256 ^ 4) : (UInt32.ofNat n).toNat = n := by
  rw [UInt32.toNat_ofNat', Nat.mod_eq_of_lt (by omega)]

end LittleEndian

/-! ## Opcodes and instructions -/

/-- A byte is read as an opcode exactly if it is its byte. -/
theorem Opcode.decode_eq_ok_iff {byte : UInt8} {op : Opcode} :
    Opcode.decode byte = .ok op ↔ op.byte = byte := by
  unfold Opcode.decode
  constructor
  · intro h
    split at h
    · rename_i found hfound
      cases h
      simpa using List.find?_some hfound
    · contradiction
  · rintro rfl
    rw [Opcode.ofByte?_byte]

/-- Whether a rejection is that of an opcode byte. -/
def DecodeError.isOpcode : DecodeError → Bool
  | .illegalOpcode | .reservedOpcode _ => true
  | _ => false

/-- A byte that is no opcode is rejected as such. -/
theorem Opcode.isOpcode_of_decode_eq_error {byte : UInt8} {e : DecodeError}
    (h : Opcode.decode byte = .error e) : e.isOpcode = true := by
  unfold Opcode.decode at h
  split at h
  · contradiction
  · cases h
    split <;> rfl

namespace Instruction

/-- The immediate has `b` as its high half and `c` as its low half. -/
theorem toNat_immediate (i : Instruction) :
    i.immediate.toNat = i.b.toNat * UInt16.size + i.c.toNat := by
  have hb := i.b.toNat_lt
  have hc := i.c.toNat_lt
  have hplaces : (16 : UInt32).toNat % 32 = 16 := rfl
  have hshift : (i.b.toUInt32 <<< 16).toNat = i.b.toNat <<< 16 := by
    rw [UInt32.toNat_shiftLeft, UInt16.toNat_toUInt32, hplaces, Nat.shiftLeft_eq]
    exact Nat.mod_eq_of_lt (by omega)
  rw [immediate, UInt32.toNat_or, hshift, UInt16.toNat_toUInt32,
    ← Nat.shiftLeft_add_eq_or_of_lt hc, Nat.shiftLeft_eq]

/-- An operand is read exactly if its two bytes are its stored form. -/
theorem operand_eq_iff {a : UInt16} {low high : UInt8} :
    operand low high = a ↔ LittleEndian.split 2 a.toNat = [low, high] := by
  unfold operand
  constructor
  · rintro rfl
    rw [LittleEndian.toNat_ofNat_half (LittleEndian.combine_lt [low, high])]
    exact LittleEndian.split_combine [low, high]
  · intro h
    rw [← h, LittleEndian.combine_split (LittleEndian.half_lt a), UInt16.ofNat_toNat]

@[simp]
theorem length_encode (i : Instruction) : i.encode.length = encodedSize := by
  simp [encode, encodedSize]

/-- Eight bytes are read as an instruction exactly if they are its stored form. -/
theorem decode_eq_ok_iff {op width a₀ a₁ b₀ b₁ c₀ c₁ : UInt8} {i : Instruction} :
    decode op width a₀ a₁ b₀ b₁ c₀ c₁ = .ok i ↔
      i.encode = [op, width, a₀, a₁, b₀, b₁, c₀, c₁] := by
  rcases i with ⟨opcode, width', a, b, c⟩
  have hencode : Instruction.encode ⟨opcode, width', a, b, c⟩ =
        [op, width, a₀, a₁, b₀, b₁, c₀, c₁] ↔
      opcode.byte = op ∧ width' = width ∧ LittleEndian.split 2 a.toNat = [a₀, a₁] ∧
        LittleEndian.split 2 b.toNat = [b₀, b₁] ∧ LittleEndian.split 2 c.toNat = [c₀, c₁] := by
    simp [encode, LittleEndian.split, and_assoc]
  rw [hencode, ← operand_eq_iff, ← operand_eq_iff, ← operand_eq_iff, ← Opcode.decode_eq_ok_iff]
  unfold decode
  cases Opcode.decode op <;> simp [eq_comm]

end Instruction

/-! ## Streams -/

namespace Code

@[simp]
theorem encode_nil : encode [] = [] := rfl

@[simp]
theorem encode_cons (i : Instruction) (code : List Instruction) :
    encode (i :: code) = i.encode ++ encode code := by
  simp [encode]

theorem length_encode (code : List Instruction) :
    (encode code).length = code.length * Instruction.encodedSize := by
  induction code with
  | nil => rfl
  | cons i code ih => rw [encode_cons, List.length_append, ih, Instruction.length_encode,
      List.length_cons, Nat.succ_mul, Nat.add_comm]

/-- The stored form of some instructions starts with that of the first one. -/
theorem encode_eq_cons_iff {op width a₀ a₁ b₀ b₁ c₀ c₁ : UInt8} {rest : Bytes}
    {code : List Instruction} :
    encode code = op :: width :: a₀ :: a₁ :: b₀ :: b₁ :: c₀ :: c₁ :: rest ↔
      ∃ i later, code = i :: later ∧
        Instruction.decode op width a₀ a₁ b₀ b₁ c₀ c₁ = .ok i ∧ encode later = rest := by
  simp only [Instruction.decode_eq_ok_iff]
  constructor
  · intro h
    cases code with
    | nil => contradiction
    | cons i later =>
        have happend : i.encode ++ encode later =
            [op, width, a₀, a₁, b₀, b₁, c₀, c₁] ++ rest := (encode_cons i later).symm.trans h
        rcases List.append_inj happend (Instruction.length_encode i) with ⟨hi, hlater⟩
        exact ⟨i, later, rfl, hi, hlater⟩
  · rintro ⟨i, later, rfl, hi, rfl⟩
    rw [encode_cons, hi]
    rfl

/-- What follows the first of a whole number of instructions is a whole number of them. -/
theorem whole_rest {op width a₀ a₁ b₀ b₁ c₀ c₁ : UInt8} {rest : Bytes}
    (h : (op :: width :: a₀ :: a₁ :: b₀ :: b₁ :: c₀ :: c₁ :: rest).length %
      Instruction.encodedSize = 0) :
    rest.length % Instruction.encodedSize = 0 := by
  simp only [List.length_cons, Instruction.encodedSize] at h ⊢
  omega

/-- A whole number of instructions without a first one is none. -/
theorem eq_nil_of_short {stream : Bytes}
    (h : stream.length % Instruction.encodedSize = 0)
    (hshort : ∀ (op width a₀ a₁ b₀ b₁ c₀ c₁ : UInt8) (rest : Bytes),
      stream = op :: width :: a₀ :: a₁ :: b₀ :: b₁ :: c₀ :: c₁ :: rest → False) :
    stream = [] := by
  rcases stream with
    _ | ⟨_, _ | ⟨_, _ | ⟨_, _ | ⟨_, _ | ⟨_, _ | ⟨_, _ | ⟨_, _ | ⟨_, _⟩⟩⟩⟩⟩⟩⟩⟩
  case nil => rfl
  case cons.cons.cons.cons.cons.cons.cons.cons => exact (hshort _ _ _ _ _ _ _ _ _ rfl).elim
  all_goals simp [Instruction.encodedSize] at h

/-- Instructions are read behind those read so far, and from nothing but their stored form. -/
theorem decodeInto_eq_ok_iff {read code : List Instruction} {stream : Bytes}
    (h : stream.length % Instruction.encodedSize = 0) :
    decodeInto read stream = .ok code ↔
      ∃ later, code = read.reverse ++ later ∧ encode later = stream := by
  fun_induction decodeInto read stream with
  | case1 read op width a₀ a₁ b₀ b₁ c₀ c₁ rest i hi ih =>
      simp only [ih (whole_rest h), encode_eq_cons_iff, hi, Except.ok.injEq, List.reverse_cons,
        List.append_assoc, List.cons_append, List.nil_append]
      constructor
      · rintro ⟨later, rfl, rfl⟩
        exact ⟨i :: later, rfl, i, later, rfl, rfl, rfl⟩
      · rintro ⟨_, rfl, _, later, rfl, rfl, rfl⟩
        exact ⟨later, rfl, rfl⟩
  | case2 read op width a₀ a₁ b₀ b₁ c₀ c₁ rest e he => simp [encode_eq_cons_iff, he]
  | case3 stream read hshort =>
      rw [eq_nil_of_short h hshort]
      constructor
      · intro hcode
        cases hcode
        exact ⟨[], (List.append_nil _).symm, rfl⟩
      · rintro ⟨later, rfl, hlater⟩
        cases later with
        | nil => simp
        | cons i later => simp [encode, Instruction.encode] at hlater

/-- A stream is read exactly if it is the stored form of some instructions, and then these
are what is read. -/
theorem decode_eq_ok_iff {stream : Bytes} {code : List Instruction} :
    decode stream = .ok code ↔ encode code = stream := by
  unfold decode
  split
  · rename_i h
    rw [decodeInto_eq_ok_iff h]
    simp
  · rename_i h
    constructor
    · intro hcode
      contradiction
    · rintro rfl
      exact absurd (by rw [length_encode, Nat.mul_mod_left]) h

/-- A stream of whole instructions is refused only for an opcode. -/
theorem isOpcode_of_decode_eq_error {stream : Bytes} {e : DecodeError}
    (h : stream.length % Instruction.encodedSize = 0) (he : decode stream = .error e) :
    e.isOpcode = true := by
  unfold decode at he
  rw [if_pos h] at he
  clear h
  generalize ([] : List Instruction) = read at he
  fun_induction decodeInto read stream with
  | case1 read op width a₀ a₁ b₀ b₁ c₀ c₁ rest i hi ih => exact ih he
  | case2 read op width a₀ a₁ b₀ b₁ c₀ c₁ rest e' he' =>
      cases he
      unfold Instruction.decode at he'
      split at he'
      · contradiction
      · cases he'
        exact Opcode.isOpcode_of_decode_eq_error ‹_›
  | case3 => contradiction

end Code
end FrameMachine
