import FrameMachine.Proofs.Streams

/-!
# Opcode bytes of a stream

In a stream of whole instructions every eighth byte stands in opcode position, and only such
a byte can make the stream unreadable.  This file states reading a stream byte position by
byte position: a stream is read exactly if all its opcode bytes stand for opcodes, and
otherwise it is refused for the first one that does not.

Main results:

- Theorem `Code.decode_eq_error_iff`: a stream of whole instructions is refused for its first
  opcode byte that stands for no opcode.
- Theorem `Code.decode_append`: two streams one after the other are read one after the other.
- Theorem `Code.decode_by_positions`: which streams are read, as what, and why others are not.
-/

namespace FrameMachine

/-! ## Bytes that stand for opcodes -/

/-- The byte stands for an opcode. -/
def Opcode.Assigned (byte : UInt8) : Prop := ∃ op : Opcode, op.byte = byte

/-- A byte that stands for no opcode is refused as illegal if it is zero, and else as
reserved. -/
theorem Opcode.decode_eq_error_iff {byte : UInt8} {e : DecodeError} :
    Opcode.decode byte = .error e ↔
      ¬ Assigned byte ∧ e = if byte = 0 then .illegalOpcode else .reservedOpcode byte := by
  constructor
  · intro h
    have hnone : ¬ Assigned byte := by
      rintro ⟨op, hop⟩
      rw [Opcode.decode_eq_ok_iff.mpr hop] at h
      contradiction
    refine ⟨hnone, ?_⟩
    unfold Opcode.decode at h
    split at h
    · contradiction
    · exact (Except.error.inj h).symm
  · rintro ⟨hnone, rfl⟩
    unfold Opcode.decode
    split
    · rename_i op hop
      exact absurd ⟨op, by simpa using List.find?_some hop⟩ hnone
    · rfl

/-- Eight bytes are refused for the first of them, and for nothing else. -/
theorem Instruction.decode_eq_error_iff {op width a₀ a₁ b₀ b₁ c₀ c₁ : UInt8} {e : DecodeError} :
    Instruction.decode op width a₀ a₁ b₀ b₁ c₀ c₁ = .error e ↔ Opcode.decode op = .error e := by
  unfold Instruction.decode
  cases Opcode.decode op <;> simp

/-- Where an instruction is read, the first byte stands for its opcode. -/
theorem Opcode.assigned_of_decode_eq_ok {op width a₀ a₁ b₀ b₁ c₀ c₁ : UInt8} {i : Instruction}
    (h : Instruction.decode op width a₀ a₁ b₀ b₁ c₀ c₁ = .ok i) : Opcode.Assigned op :=
  ⟨i.opcode, (List.cons.inj (Instruction.decode_eq_ok_iff.mp h)).1⟩

/-! ## Positions in a stream -/

namespace Code

/-- All bytes in opcode position stand for opcodes. -/
def AllAssigned (stream : Bytes) : Prop :=
  ∀ (k : Nat) (byte : UInt8), stream[k * Instruction.encodedSize]? = some byte →
    Opcode.Assigned byte

/-- The byte is the first one in opcode position that stands for no opcode; before it come
`k` whole instructions. -/
structure FirstUnassigned (stream : Bytes) (k : Nat) (byte : UInt8) : Prop where
  byte_eq : stream[k * Instruction.encodedSize]? = some byte
  unassigned : ¬ Opcode.Assigned byte
  earlier : ∀ (j : Nat) (other : UInt8), j < k →
    stream[j * Instruction.encodedSize]? = some other → Opcode.Assigned other

section Positions

variable {op width a₀ a₁ b₀ b₁ c₀ c₁ byte : UInt8} {rest stream more : Bytes} {k : Nat}
  {e : DecodeError}

/-- Behind the first instruction, positions count on from it. -/
theorem getElem?_succ_position :
    (op :: width :: a₀ :: a₁ :: b₀ :: b₁ :: c₀ :: c₁ :: rest)[
        (k + 1) * Instruction.encodedSize]? = rest[k * Instruction.encodedSize]? := by
  rw [Nat.succ_mul]
  rfl

theorem FirstUnassigned.not_allAssigned (h : FirstUnassigned stream k byte) :
    ¬ AllAssigned stream :=
  fun hall => h.unassigned (hall k byte h.byte_eq)

/-- A first byte that stands for no opcode is the first such byte of the stream. -/
theorem firstUnassigned_cons_iff_of_not_assigned (h : ¬ Opcode.Assigned op) :
    FirstUnassigned (op :: rest) k byte ↔ k = 0 ∧ byte = op := by
  constructor
  · intro hfirst
    cases k with
    | zero => exact ⟨rfl, (Option.some.inj (by simpa using hfirst.byte_eq)).symm⟩
    | succ k => exact absurd (hfirst.earlier 0 op (Nat.succ_pos k) (by simp)) h
  · rintro ⟨rfl, rfl⟩
    exact ⟨by simp, h, fun j _ hj => absurd hj (Nat.not_lt_zero j)⟩

/-- Behind an instruction with an opcode, the search goes on in the rest of the stream. -/
theorem exists_firstUnassigned_cons_iff {p : UInt8 → Prop} (h : Opcode.Assigned op) :
    (∃ k byte, FirstUnassigned (op :: width :: a₀ :: a₁ :: b₀ :: b₁ :: c₀ :: c₁ :: rest) k byte ∧
        p byte) ↔
      ∃ k byte, FirstUnassigned rest k byte ∧ p byte := by
  constructor
  · rintro ⟨k, byte, hfirst, hp⟩
    cases k with
    | zero =>
        have hbyte : byte = op := (Option.some.inj (by simpa using hfirst.byte_eq)).symm
        exact absurd (hbyte ▸ h) hfirst.unassigned
    | succ k =>
        refine ⟨k, byte, ⟨getElem?_succ_position ▸ hfirst.byte_eq, hfirst.unassigned, ?_⟩, hp⟩
        intro j other hj hother
        exact hfirst.earlier (j + 1) other (Nat.succ_lt_succ hj)
          (getElem?_succ_position.trans hother)
  · rintro ⟨k, byte, hfirst, hp⟩
    refine ⟨k + 1, byte, ⟨getElem?_succ_position.trans hfirst.byte_eq, hfirst.unassigned, ?_⟩, hp⟩
    intro j other hj hother
    cases j with
    | zero =>
        have hbyte : other = op := (Option.some.inj (by simpa using hother)).symm
        exact hbyte ▸ h
    | succ j =>
        exact hfirst.earlier j other (Nat.lt_of_succ_lt_succ hj)
          (getElem?_succ_position.symm.trans hother)

/-! ## Reading -/

/-- Reading ends at the first opcode byte that stands for no opcode. -/
theorem decodeInto_eq_error_iff {read : List Instruction}
    (h : stream.length % Instruction.encodedSize = 0) :
    decodeInto read stream = .error e ↔
      ∃ k byte, FirstUnassigned stream k byte ∧ Opcode.decode byte = .error e := by
  -- What was read so far plays no part in a refusal, so it may be anything.
  fun_induction decodeInto read stream with
  | case1 read op width a₀ a₁ b₀ b₁ c₀ c₁ rest i hi ih =>
      rw [ih (whole_rest h), exists_firstUnassigned_cons_iff (Opcode.assigned_of_decode_eq_ok hi)]
  | case2 read op width a₀ a₁ b₀ b₁ c₀ c₁ rest e' he' =>
      have hop := Instruction.decode_eq_error_iff.mp he'
      have hnone := (Opcode.decode_eq_error_iff.mp hop).1
      constructor
      · rintro ⟨rfl⟩
        exact ⟨0, op, (firstUnassigned_cons_iff_of_not_assigned hnone).mpr ⟨rfl, rfl⟩, hop⟩
      · rintro ⟨k, byte, hfirst, hbyte⟩
        rcases (firstUnassigned_cons_iff_of_not_assigned hnone).mp hfirst with ⟨-, rfl⟩
        rw [Except.error.inj (hop.symm.trans hbyte)]
  | case3 stream read hshort =>
      rw [eq_nil_of_short h hshort]
      constructor
      · intro hread
        contradiction
      · rintro ⟨k, byte, hfirst, -⟩
        simpa using hfirst.byte_eq

/-- A stream of whole instructions is refused for its first opcode byte that stands for no
opcode. -/
theorem decode_eq_error_iff (h : stream.length % Instruction.encodedSize = 0) :
    decode stream = .error e ↔
      ∃ k byte, FirstUnassigned stream k byte ∧ Opcode.decode byte = .error e := by
  unfold decode
  rw [if_pos h, decodeInto_eq_error_iff h]

/-- A stream that is no whole number of instructions is refused for its length. -/
theorem decode_of_length (h : stream.length % Instruction.encodedSize ≠ 0) :
    decode stream = .error (.invalidLength stream.length) :=
  if_neg h

/-- The opcode bytes of stored instructions stand for opcodes. -/
theorem allAssigned_encode (code : List Instruction) : AllAssigned (encode code) := by
  induction code with
  | nil =>
      intro k byte hbyte
      simp at hbyte
  | cons i code ih =>
      intro k byte hbyte
      cases k with
      | zero =>
          refine ⟨i.opcode, ?_⟩
          simpa [Instruction.encode] using hbyte
      | succ k => exact ih k byte (getElem?_succ_position.symm.trans hbyte)

/-- A stream is read exactly if it is a whole number of instructions and all its opcode bytes
stand for opcodes. -/
theorem exists_decode_eq_ok_iff :
    (∃ code, decode stream = .ok code) ↔
      stream.length % Instruction.encodedSize = 0 ∧ AllAssigned stream := by
  constructor
  · rintro ⟨code, hcode⟩
    rw [← decode_eq_ok_iff.mp hcode]
    exact ⟨by rw [length_encode, Nat.mul_mod_left], allAssigned_encode code⟩
  · rintro ⟨hlength, hall⟩
    cases hread : decode stream with
    | ok code => exact ⟨code, rfl⟩
    | error e =>
        obtain ⟨k, byte, hfirst, -⟩ := (decode_eq_error_iff hlength).mp hread
        exact absurd hall hfirst.not_allAssigned

end Positions

/-! ## Streams one after the other -/

section Append

variable {stream more : Bytes}

/-- What was read before is put before what is read. -/
theorem decodeInto_append_read (later read : List Instruction) (stream : Bytes) :
    decodeInto (later ++ read) stream = (decodeInto later stream).map (read.reverse ++ ·) := by
  fun_induction decodeInto later stream with
  | case1 later op width a₀ a₁ b₀ b₁ c₀ c₁ rest i hi ih =>
      simp only [decodeInto, hi]
      exact ih
  | case2 later op width a₀ a₁ b₀ b₁ c₀ c₁ rest e he => simp only [decodeInto, he, Except.map]
  | case3 stream later hshort => simp [decodeInto, Except.map]

/-- Behind whole instructions, reading goes on with what was read so far. -/
theorem decodeInto_append (read : List Instruction)
    (h : stream.length % Instruction.encodedSize = 0) :
    decodeInto read (stream ++ more) =
      (decodeInto read stream).bind fun code => decodeInto code.reverse more := by
  fun_induction decodeInto read stream with
  | case1 read op width a₀ a₁ b₀ b₁ c₀ c₁ rest i hi ih =>
      simpa only [List.cons_append, decodeInto, hi] using ih (whole_rest h)
  | case2 read op width a₀ a₁ b₀ b₁ c₀ c₁ rest e he =>
      simp only [List.cons_append, decodeInto, he, Except.bind]
  | case3 stream read hshort =>
      rw [eq_nil_of_short h hshort, List.nil_append]
      simp only [Except.bind, List.reverse_reverse]

/-- Two streams of whole instructions, one after the other, are read one after the other; the
first error of either stands. -/
theorem decode_append (h : stream.length % Instruction.encodedSize = 0)
    (hmore : more.length % Instruction.encodedSize = 0) :
    decode (stream ++ more) = do
      let code ← decode stream
      let later ← decode more
      return code ++ later := by
  have hboth : (stream ++ more).length % Instruction.encodedSize = 0 := by
    rw [List.length_append, Nat.add_mod, h, hmore]
    rfl
  unfold decode
  rw [if_pos h, if_pos hmore, if_pos hboth, decodeInto_append [] h]
  cases decodeInto [] stream with
  | error e => rfl
  | ok code =>
      have hread := decodeInto_append_read [] code.reverse more
      rw [List.nil_append, List.reverse_reverse] at hread
      refine hread.trans ?_
      cases decodeInto [] more <;> rfl

end Append

/-- Reading a stream, byte position by byte position.  It is read exactly if it is a whole
number of instructions and all its opcode bytes stand for opcodes, and then as the instructions
whose stored form it is, one for every eight bytes.  A wrong length is reported before any
opcode, and otherwise the first opcode byte that stands for no opcode.  So a stream that
continues another one is read behind it, and is looked at only if that one can be read. -/
theorem decode_by_positions (stream more : Bytes) :
    ((∃ code, decode stream = .ok code) ↔
        stream.length % Instruction.encodedSize = 0 ∧ AllAssigned stream) ∧
      (∀ code, decode stream = .ok code →
        code.length = stream.length / Instruction.encodedSize ∧ encode code = stream) ∧
      (∀ code, decode (encode code) = .ok code) ∧
      (stream.length % Instruction.encodedSize ≠ 0 →
        decode stream = .error (.invalidLength stream.length)) ∧
      (stream.length % Instruction.encodedSize = 0 → ∀ e,
        (decode stream = .error e ↔ ∃ k byte, FirstUnassigned stream k byte ∧
          e = if byte = 0 then .illegalOpcode else .reservedOpcode byte)) ∧
      (stream.length % Instruction.encodedSize = 0 → more.length % Instruction.encodedSize = 0 →
        decode (stream ++ more) = do
          let code ← decode stream
          let later ← decode more
          return code ++ later) := by
  refine ⟨exists_decode_eq_ok_iff, ?_, fun code => decode_eq_ok_iff.mpr rfl, decode_of_length, ?_,
    decode_append⟩
  · intro code hcode
    have hstream := decode_eq_ok_iff.mp hcode
    refine ⟨?_, hstream⟩
    rw [← hstream, length_encode, Nat.mul_div_cancel _ (by decide)]
  · intro h e
    rw [decode_eq_error_iff h]
    refine exists_congr fun k => exists_congr fun byte => and_congr_right fun hfirst => ?_
    rw [Opcode.decode_eq_error_iff]
    exact and_iff_right hfirst.unassigned

/-- A stream that can be read, one with two bytes in opcode position that stand for no opcode,
the two one after the other, and a stream that is cut short. -/
theorem decode_by_positions_second_stream :
    decode [0xFF, 0, 0, 0, 0, 0, 0, 0] = .ok [⟨.nop, 0, 0, 0, 0⟩] ∧
      decode [0x03, 0, 0, 0, 0, 0, 0, 0, 0x00, 0, 0, 0, 0, 0, 0, 0] =
        .error (.reservedOpcode 0x03) ∧
      decode ([0xFF, 0, 0, 0, 0, 0, 0, 0] ++
          [0x03, 0, 0, 0, 0, 0, 0, 0, 0x00, 0, 0, 0, 0, 0, 0, 0]) =
        .error (.reservedOpcode 0x03) ∧
      decode [0x03, 0, 0] = .error (.invalidLength 3) := by
  have hfirst : FirstUnassigned [0x03, 0, 0, 0, 0, 0, 0, 0, 0x00, 0, 0, 0, 0, 0, 0, 0] 0 0x03 :=
    ⟨rfl, by rintro ⟨op, hop⟩; cases op <;> contradiction, fun j _ hj => absurd hj (by omega)⟩
  have hnop := (decode_by_positions [] []).2.2.1 [⟨.nop, 0, 0, 0, 0⟩]
  have hbad := ((decode_by_positions _ []).2.2.2.2.1 (by decide) _).mpr ⟨0, 0x03, hfirst, rfl⟩
  have hboth := (decode_by_positions (encode [⟨.nop, 0, 0, 0, 0⟩])
    [0x03, 0, 0, 0, 0, 0, 0, 0, 0x00, 0, 0, 0, 0, 0, 0, 0]).2.2.2.2.2 (by decide) (by decide)
  refine ⟨hnop, hbad, ?_, (decode_by_positions [0x03, 0, 0] []).2.2.2.1 (by decide)⟩
  rw [hnop, hbad] at hboth
  exact hboth

end Code
end FrameMachine
