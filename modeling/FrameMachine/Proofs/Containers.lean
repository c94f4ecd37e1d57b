import FrameMachine.Container.Decode
import FrameMachine.Proofs.Streams

/-!
# The grammar of containers

A reader follows a grammar: a relation between what is read and the bytes in which it may be
stored.  A reader that is put together from others follows the grammar put together in the
same way, so the grammar of containers is found from that of their fields.  It comes out as
this: a program has a stored form if it is within the limits of the fields and its layouts
are valid, and then only the one that is written.

Main results:

- Theorem `Reads.bind`: one reader after another reads one form after another.
- Theorem `reads_program`: what is read of a container is the stored form of a program.
- Theorem `decode_exact`: a container is read as a program exactly if it is the stored form of
  that program.
-/

namespace FrameMachine

/-! ## Programs that can be stored -/

/-- A function within the limits of the fields, whose slots lie inside its frame. -/
structure Routine.Storable (f : Routine) : Prop where
  inputs_lt : f.descriptor.inputs.length < UInt16.size
  outputs_lt : f.descriptor.outputs.length < UInt16.size
  code_lt : f.code.size < UInt32.size
  valid : f.descriptor.validate = .ok ()

/-- A program within the limits of the fields, all of whose layouts are valid. -/
structure Program.Storable (p : Program) : Prop where
  count_lt : p.routines.size < UInt16.size
  routines : ∀ f ∈ p.routines, f.Storable

namespace Container

/-! ## Readers and grammars -/

/-- A reader reads an item exactly from where one of its forms starts, and is behind that form
then. -/
def Reads {α : Type} (item : Reader α) (Form : α → Bytes → Prop) : Prop :=
  ∀ (c c' : Cursor) (a : α), item c = .ok (a, c') ↔
    ∃ bytes, Form a bytes ∧ c.rest = bytes ++ c'.rest ∧ c'.offset = c.offset + bytes.length

section Readers

variable {α β : Type} {item : Reader α} {Form Form' : α → Bytes → Prop}

/-- Only the forms count, not how they are described. -/
theorem Reads.congr (h : Reads item Form) (hform : ∀ a bytes, Form a bytes ↔ Form' a bytes) :
    Reads item Form' := by
  intro c c' a
  simp only [h c c' a, hform]

theorem reads_pure (a : α) :
    Reads (pure a : Reader α) (fun b bytes => b = a ∧ bytes = []) := by
  intro c c' b
  rcases c with ⟨offset, rest⟩
  rcases c' with ⟨offset', rest'⟩
  constructor
  · intro h
    cases h
    exact ⟨[], ⟨rfl, rfl⟩, rfl, rfl⟩
  · rintro ⟨_, ⟨rfl, rfl⟩, hrest, hoffset⟩
    simp only [List.nil_append, List.length_nil, Nat.add_zero] at hrest hoffset
    subst hrest hoffset
    rfl

/-- A rejected container has no form. -/
theorem reads_reject (e : DecodeError) :
    Reads (reject e : Reader α) (fun _ _ => False) := by
  intro c c' a
  simp [reject]

/-- One reader after another reads one form after another. -/
theorem Reads.bind {next : α → Reader β} {Next : α → β → Bytes → Prop} (h : Reads item Form)
    (hnext : ∀ a, Reads (next a) (Next a)) :
    Reads (item >>= next) fun b bytes =>
      ∃ a first later, Form a first ∧ Next a b later ∧ bytes = first ++ later := by
  intro c c' b
  have hbind : (item >>= next) c = .ok (b, c') ↔
      ∃ a d, item c = .ok (a, d) ∧ next a d = .ok (b, c') := by
    simp only [Bind.bind, StateT.bind, Except.bind]
    cases item c with
    | error e => simp
    | ok found =>
        rcases found with ⟨a, d⟩
        constructor
        · intro hb
          exact ⟨a, d, rfl, hb⟩
        · rintro ⟨_, _, ⟨⟩, hb⟩
          exact hb
  rw [hbind]
  constructor
  · rintro ⟨a, d, ha, hb⟩
    rcases (h c d a).mp ha with ⟨first, hfirst, hrest, hoffset⟩
    rcases (hnext a d c' b).mp hb with ⟨later, hlater, hrest', hoffset'⟩
    refine ⟨first ++ later, ⟨a, first, later, hfirst, hlater, rfl⟩, ?_, ?_⟩
    · rw [hrest, hrest', List.append_assoc]
    · rw [hoffset', hoffset, List.length_append, Nat.add_assoc]
  · rintro ⟨_, ⟨a, first, later, hfirst, hlater, rfl⟩, hrest, hoffset⟩
    refine ⟨a, ⟨c.offset + first.length, later ++ c'.rest⟩, ?_, ?_⟩
    · exact (h _ _ _).mpr ⟨first, hfirst, by rw [hrest, List.append_assoc], rfl⟩
    · refine (hnext _ _ _ _).mpr ⟨later, hlater, rfl, ?_⟩
      rw [hoffset, List.length_append, Nat.add_assoc]

/-- Any bytes are a form of themselves. -/
theorem reads_take (needed : Nat) :
    Reads (Reader.take needed) (fun field bytes => field.length = needed ∧ bytes = field) := by
  intro c c' field
  rcases c with ⟨offset, rest⟩
  rcases c' with ⟨offset', rest'⟩
  unfold Reader.take
  constructor
  · intro h
    dsimp only at h
    split at h
    · rename_i hlength
      cases h
      exact ⟨_, ⟨hlength, rfl⟩, (List.take_append_drop needed rest).symm, by rw [hlength]⟩
    · contradiction
  · rintro ⟨_, ⟨rfl, rfl⟩, hrest, hoffset⟩
    dsimp only at hrest hoffset
    subst hrest hoffset
    simp

/-- A number has one form, if it fits the field. -/
theorem reads_number (width : Nat) :
    Reads (Reader.number width) fun n bytes =>
      n < 256 ^ width ∧ bytes = LittleEndian.split width n := by
  refine ((reads_take width).bind fun field => reads_pure _).congr ?_
  intro n bytes
  constructor
  · rintro ⟨field, _, _, ⟨rfl, rfl⟩, ⟨rfl, rfl⟩, rfl⟩
    refine ⟨LittleEndian.combine_lt _, ?_⟩
    rw [List.append_nil, LittleEndian.split_combine]
  · rintro ⟨hn, rfl⟩
    refine ⟨LittleEndian.split width n, _, [], ⟨LittleEndian.length_split width n, rfl⟩,
      ⟨(LittleEndian.combine_split hn).symm, rfl⟩, (List.append_nil _).symm⟩

/-- Items are read one after another, behind those read so far; the readers of the items may
differ in how they reject a container. -/
theorem reads_loop (item : Nat → Reader α) (loop : List α → Nat → Nat → Reader (List α))
    {Legal : α → Prop} {form : α → Bytes}
    (hzero : ∀ done index, loop done index 0 = pure done.reverse)
    (hsucc : ∀ done index n, loop done index (n + 1) =
      item index >>= fun a => loop (a :: done) (index + 1) n)
    (hitem : ∀ index, Reads (item index) fun a bytes => Legal a ∧ bytes = form a)
    (done : List α) (index n : Nat) :
    Reads (loop done index n) fun as bytes => ∃ later, as = done.reverse ++ later ∧
      later.length = n ∧ (∀ a ∈ later, Legal a) ∧ bytes = later.flatMap form := by
  induction n generalizing done index with
  | zero =>
      rw [hzero]
      refine (reads_pure _).congr ?_
      intro as bytes
      constructor
      · rintro ⟨rfl, rfl⟩
        exact ⟨[], (List.append_nil _).symm, rfl, nofun, rfl⟩
      · rintro ⟨later, rfl, hlength, -, rfl⟩
        rw [List.eq_nil_of_length_eq_zero hlength]
        exact ⟨List.append_nil _, rfl⟩
  | succ n ih =>
      rw [hsucc]
      refine ((hitem index).bind fun a => ih (a :: done) (index + 1)).congr ?_
      intro as bytes
      constructor
      · rintro ⟨a, _, _, ⟨ha, rfl⟩, ⟨later, rfl, rfl, hlater, rfl⟩, rfl⟩
        refine ⟨a :: later, ?_, rfl, List.forall_mem_cons.mpr ⟨ha, hlater⟩, ?_⟩
        · rw [List.reverse_cons, List.append_assoc, List.singleton_append]
        · rw [List.flatMap_cons]
      · rintro ⟨later, rfl, hlength, hlater, rfl⟩
        cases later with
        | nil => contradiction
        | cons a later =>
            rcases List.forall_mem_cons.mp hlater with ⟨ha, hlater⟩
            refine ⟨a, _, _, ⟨ha, rfl⟩, ⟨later, ?_, Nat.succ.inj hlength, hlater, rfl⟩,
              List.flatMap_cons ..⟩
            rw [List.reverse_cons, List.append_assoc, List.singleton_append]

/-- A fixed number of items is read one after another. -/
theorem Reads.times {Legal : α → Prop} {form : α → Bytes}
    (h : Reads item fun a bytes => Legal a ∧ bytes = form a) (n : Nat) :
    Reads (Reader.times n item) fun as bytes =>
      as.length = n ∧ (∀ a ∈ as, Legal a) ∧ bytes = as.flatMap form := by
  have hloop := reads_loop (fun _ => item) (fun done _ n => Reader.repeatInto item done n)
    (fun _ _ => rfl) (fun _ _ _ => rfl) (fun _ => h) [] 0 n
  refine hloop.congr ?_
  intro as bytes
  simp

end Readers

/-! ## The parts of a container -/

/-- A slot has one form. -/
theorem reads_slot : Reads slot fun s bytes => True ∧ bytes = encodeSlot s := by
  refine ((reads_number 4).bind fun offset => (reads_number 4).bind fun size =>
    reads_pure _).congr ?_
  intro s bytes
  constructor
  · rintro ⟨offset, _, _, ⟨hoffset, rfl⟩, ⟨size, _, _, ⟨hsize, rfl⟩, ⟨rfl, rfl⟩, rfl⟩, rfl⟩
    refine ⟨trivial, ?_⟩
    rw [encodeSlot, LittleEndian.toNat_ofNat_word hoffset, LittleEndian.toNat_ofNat_word hsize,
      List.append_nil]
  · rintro ⟨-, rfl⟩
    exact ⟨s.offset.toNat, _, _, ⟨LittleEndian.word_lt _, rfl⟩, ⟨s.size.toNat, _, _,
      ⟨LittleEndian.word_lt _, rfl⟩, ⟨by simp, rfl⟩, rfl⟩, by simp [encodeSlot]⟩

/-- Read the code of the function at `index`, whose layout has been read. -/
def body (index : Nat) (d : Descriptor) (codeLength : Nat) : Reader Routine :=
  match d.validate with
  | .error misfit => reject (.invalidDescriptor (UInt16.ofNat index) misfit)
  | .ok () => do
      let stream ← Reader.take (codeLength * Instruction.encodedSize)
      match Code.decode stream with
      | .error e => reject e
      | .ok code => return ⟨d, code.toArray⟩

/-- A function is read field by field, its code last. -/
theorem routine_eq (index : Nat) :
    routine index = (do
      let size ← Reader.number 4
      let inputCount ← Reader.number 2
      let outputCount ← Reader.number 2
      let codeLength ← Reader.number 4
      let inputs ← Reader.times inputCount slot
      let outputs ← Reader.times outputCount slot
      body index ⟨UInt32.ofNat size, inputs, outputs⟩ codeLength) :=
  rfl

/-- A stream is read as code exactly if it is the stored form of some. -/
theorem reads_code (d : Descriptor) (stream : Bytes) :
    Reads (match Code.decode stream with
      | .error e => reject e
      | .ok code => (return ⟨d, code.toArray⟩ : Reader Routine)) fun f bytes =>
        f.descriptor = d ∧ Code.encode f.code.toList = stream ∧ bytes = [] := by
  cases hdecode : Code.decode stream with
  | error e =>
      refine (reads_reject e).congr ?_
      intro f bytes
      rw [← Code.decode_eq_ok_iff, hdecode]
      simp
  | ok code =>
      refine (reads_pure _).congr ?_
      intro f bytes
      rw [← Code.decode_eq_ok_iff, hdecode]
      constructor
      · rintro ⟨rfl, rfl⟩
        exact ⟨rfl, rfl, rfl⟩
      · rintro ⟨rfl, hcode, rfl⟩
        cases hcode
        exact ⟨rfl, rfl⟩

/-- The code of a function has one form, if its layout is valid. -/
theorem reads_body (index : Nat) (d : Descriptor) (codeLength : Nat) :
    Reads (body index d codeLength) fun f bytes =>
      f.descriptor = d ∧ d.validate = .ok () ∧ f.code.size = codeLength ∧
        bytes = Code.encode f.code.toList := by
  unfold body
  cases hvalid : d.validate with
  | error misfit =>
      refine (reads_reject _).congr ?_
      intro f bytes
      simp
  | ok _ =>
      refine ((reads_take _).bind (reads_code d)).congr ?_
      intro f bytes
      have hlength : (Code.encode f.code.toList).length = codeLength * Instruction.encodedSize ↔
          f.code.size = codeLength := by
        rw [Code.length_encode, Array.length_toList]
        simp only [Instruction.encodedSize]
        omega
      constructor
      · rintro ⟨stream, _, _, ⟨hstream, rfl⟩, ⟨rfl, rfl, rfl⟩, rfl⟩
        exact ⟨rfl, rfl, hlength.mp hstream, List.append_nil _⟩
      · rintro ⟨rfl, -, hsize, rfl⟩
        exact ⟨_, _, [], ⟨hlength.mpr hsize, rfl⟩, ⟨rfl, rfl, rfl⟩, (List.append_nil _).symm⟩

/-- A function has one form, if it is within the limits of the fields and its layout is
valid. -/
theorem reads_routine (index : Nat) :
    Reads (routine index) fun f bytes => f.Storable ∧ bytes = encodeRoutine f := by
  rw [routine_eq]
  refine ((reads_number 4).bind fun size => (reads_number 2).bind fun inputCount =>
    (reads_number 2).bind fun outputCount => (reads_number 4).bind fun codeLength =>
    (reads_slot.times inputCount).bind fun inputs =>
    (reads_slot.times outputCount).bind fun outputs => reads_body index _ codeLength).congr ?_
  intro f bytes
  constructor
  · rintro ⟨size, _, _, ⟨hsize, rfl⟩, ⟨inputCount, _, _, ⟨hinputs, rfl⟩,
      ⟨outputCount, _, _, ⟨houtputs, rfl⟩, ⟨codeLength, _, _, ⟨hcode, rfl⟩,
      ⟨inputs, _, _, ⟨rfl, -, rfl⟩, ⟨outputs, _, _, ⟨rfl, -, rfl⟩,
      ⟨hlayout, hvalid, rfl, rfl⟩, rfl⟩, rfl⟩, rfl⟩, rfl⟩, rfl⟩, rfl⟩
    rcases f with ⟨d, code⟩
    cases hlayout
    refine ⟨⟨by simpa using hinputs, by simpa using houtputs, by simpa using hcode, hvalid⟩, ?_⟩
    simp only [encodeRoutine, LittleEndian.toNat_ofNat_word hsize, List.append_assoc]
  · rintro ⟨hf, rfl⟩
    refine ⟨f.descriptor.size.toNat, _, _, ⟨LittleEndian.word_lt _, rfl⟩,
      ⟨f.descriptor.inputs.length, _, _, ⟨by simpa using hf.inputs_lt, rfl⟩,
      ⟨f.descriptor.outputs.length, _, _, ⟨by simpa using hf.outputs_lt, rfl⟩,
      ⟨f.code.size, _, _, ⟨by simpa using hf.code_lt, rfl⟩,
      ⟨f.descriptor.inputs, _, _, ⟨rfl, fun _ _ => trivial, rfl⟩,
      ⟨f.descriptor.outputs, _, _, ⟨rfl, fun _ _ => trivial, rfl⟩,
      ⟨by simp, by simpa using hf.valid, rfl, rfl⟩, rfl⟩, rfl⟩, rfl⟩, rfl⟩, rfl⟩, ?_⟩
    simp only [encodeRoutine, List.append_assoc]

/-- The version is read exactly if it is the known one. -/
theorem reads_version (found : Nat) :
    Reads (if found = version.toNat then Reader.number 2
      else reject (.unsupportedVersion (UInt16.ofNat found))) fun count bytes =>
        found = version.toNat ∧ count < 256 ^ 2 ∧ bytes = LittleEndian.split 2 count := by
  split
  · rename_i hfound
    refine (reads_number 2).congr ?_
    intro count bytes
    rw [and_iff_right hfound]
  · rename_i hfound
    refine (reads_reject _).congr ?_
    intro count bytes
    rw [eq_false hfound, false_and]

/-- The start of a container is read exactly if it begins with the magic bytes. -/
theorem reads_magic (start : Bytes) :
    Reads (if start = magic then do
        let found ← Reader.number 2
        if found = version.toNat then Reader.number 2
        else reject (.unsupportedVersion (UInt16.ofNat found))
      else reject .badMagic) fun count bytes => start = magic ∧ count < 256 ^ 2 ∧
        bytes = LittleEndian.split 2 version.toNat ++ LittleEndian.split 2 count := by
  split
  · rename_i hstart
    refine ((reads_number 2).bind reads_version).congr ?_
    intro count bytes
    rw [and_iff_right hstart]
    constructor
    · rintro ⟨_, _, _, ⟨-, rfl⟩, ⟨rfl, hcount, rfl⟩, rfl⟩
      exact ⟨hcount, rfl⟩
    · rintro ⟨hcount, rfl⟩
      exact ⟨_, _, _, ⟨LittleEndian.half_lt version, rfl⟩, ⟨rfl, hcount, rfl⟩, rfl⟩
  · rename_i hstart
    refine (reads_reject _).congr ?_
    intro count bytes
    rw [eq_false hstart, false_and]

/-- What comes before the functions tells their number. -/
theorem reads_header :
    Reads header fun count bytes => count < 256 ^ 2 ∧
      bytes = magic ++ LittleEndian.split 2 version.toNat ++ LittleEndian.split 2 count := by
  refine ((reads_take 4).bind reads_magic).congr ?_
  intro count bytes
  constructor
  · rintro ⟨_, _, _, ⟨-, rfl⟩, ⟨rfl, hcount, rfl⟩, rfl⟩
    exact ⟨hcount, (List.append_assoc ..).symm⟩
  · rintro ⟨hcount, rfl⟩
    exact ⟨magic, _, _, ⟨rfl, rfl⟩, ⟨rfl, hcount, rfl⟩, List.append_assoc ..⟩

theorem reads_routines (n : Nat) :
    Reads (routinesInto [] 0 n) fun fs bytes =>
      fs.length = n ∧ (∀ f ∈ fs, f.Storable) ∧ bytes = fs.flatMap encodeRoutine := by
  refine (reads_loop routine routinesInto (fun _ _ => rfl) (fun _ _ _ => rfl) reads_routine
    [] 0 n).congr ?_
  intro fs bytes
  simp

/-- What is read of a container is the stored form of a program. -/
theorem reads_program : Reads program fun p bytes => p.Storable ∧ bytes = encode p := by
  refine (reads_header.bind fun count => (reads_routines count).bind fun fs =>
    reads_pure _).congr ?_
  intro p bytes
  constructor
  · rintro ⟨_, _, _, ⟨hcount, rfl⟩, ⟨fs, _, _, ⟨rfl, hfs, rfl⟩, ⟨rfl, rfl⟩, rfl⟩, rfl⟩
    refine ⟨⟨by simpa using hcount, by simpa using hfs⟩, ?_⟩
    simp [encode]
  · rintro ⟨hp, rfl⟩
    refine ⟨p.routines.size, _, _, ⟨by simpa using hp.count_lt, rfl⟩,
      ⟨p.routines.toList, _, _, ⟨Array.length_toList, by simpa using hp.routines, rfl⟩,
      ⟨rfl, rfl⟩, rfl⟩, ?_⟩
    simp [encode]

/-- A container is read as a program exactly if nothing is left behind it. -/
theorem decode_eq_ok_iff {container : Bytes} {p : Program} :
    decode container = .ok p ↔ ∃ offset, program ⟨0, container⟩ = .ok (p, ⟨offset, []⟩) := by
  unfold decode
  cases program ⟨0, container⟩ with
  | error e => simp
  | ok found =>
      rcases found with ⟨p', offset, rest⟩
      cases rest <;> simp [eq_comm]

/-- A container is read as a program exactly if it is the stored form of that program, and
the program can be stored at all.  So reading undoes writing, writing undoes reading, and no
two containers are read as the same program. -/
theorem decode_exact :
    (∀ (container : Bytes) (p : Program),
      decode container = .ok p ↔ p.Storable ∧ encode p = container) ∧
    (∀ p : Program, p.Storable → decode (encode p) = .ok p) ∧
    (∀ (container : Bytes) (p : Program), decode container = .ok p → encode p = container) ∧
    ∀ (container container' : Bytes) (p : Program), decode container = .ok p →
      decode container' = .ok p → container = container' := by
  have hexact (container : Bytes) (p : Program) :
      decode container = .ok p ↔ p.Storable ∧ encode p = container := by
    rw [decode_eq_ok_iff]
    constructor
    · rintro ⟨offset, h⟩
      rcases (reads_program _ _ _).mp h with ⟨_, ⟨hp, rfl⟩, hrest, -⟩
      exact ⟨hp, ((List.append_nil _).symm.trans hrest.symm)⟩
    · rintro ⟨hp, rfl⟩
      exact ⟨(encode p).length, (reads_program _ _ _).mpr
        ⟨_, ⟨hp, rfl⟩, (List.append_nil _).symm, (Nat.zero_add _).symm⟩⟩
  refine ⟨hexact, ?_, ?_, ?_⟩
  · intro p hp
    exact (hexact _ p).mpr ⟨hp, rfl⟩
  · intro container p h
    exact ((hexact container p).mp h).2
  · intro container container' p h h'
    exact (((hexact container p).mp h).2).symm.trans ((hexact container' p).mp h').2

/-- A program whose instructions carry fields that they do not use. -/
def padded : Program :=
  ⟨#[⟨⟨6, [⟨0, 4⟩], [⟨2, 4⟩]⟩, #[⟨.nop, 7, 1, 515, 65535⟩, ⟨.ret, 9, 0, 0, 1⟩]⟩]⟩

/-- The container of that program. -/
def paddedBytes : Bytes :=
  [82, 78, 84, 89, 1, 0, 1, 0, 6, 0, 0, 0, 1, 0, 1, 0, 2, 0, 0, 0,
    0, 0, 0, 0, 4, 0, 0, 0, 2, 0, 0, 0, 4, 0, 0, 0,
    255, 7, 1, 0, 3, 2, 255, 255, 66, 9, 0, 0, 0, 0, 1, 0]

theorem storable_padded : padded.Storable where
  count_lt := by decide
  routines := by
    intro f hf
    rw [padded, List.mem_toArray, List.mem_singleton] at hf
    subst hf
    exact ⟨by decide, by decide, by decide, by decide⟩

/-- All fields of the instructions are read back. -/
theorem decode_exact_padded :
    padded.Storable ∧ encode padded = paddedBytes ∧ decode paddedBytes = .ok padded ∧
      decode (encode padded) = .ok padded ∧
      ∀ container, decode container = .ok padded → container = paddedBytes := by
  have hbytes : encode padded = paddedBytes := by decide
  have hread : decode paddedBytes = .ok padded :=
    (decode_exact.1 paddedBytes padded).mpr ⟨storable_padded, hbytes⟩
  refine ⟨storable_padded, hbytes, hread, decode_exact.2.1 padded storable_padded, ?_⟩
  intro container h
  exact decode_exact.2.2.2 container paddedBytes padded h hread

end Container
end FrameMachine
