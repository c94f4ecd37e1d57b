import FrameMachine.Proofs.Containers

/-!
# Containers cut short and continued

Reading goes from front to back, and every decision depends on no more bytes than have been
read for it.  So what has been read stays the same with more bytes behind it, and so does
every reason to reject a container but two: that a container is too short names the place
where it would have to go on, and that it is too long counts the bytes that are left.

Main results:

- Theorem `Steady.bind`: readers one after another are as steady as each of them.
- Theorem `steady_program`: what follows a container has no part in how it is read.
- Theorem `decode_continued`: how a container is read with more bytes behind it.
- Theorem `decode_prefixes`: what this means for the prefixes of a container and for
  the containers of which it is a prefix.
-/

namespace FrameMachine

/-- Whether a container is rejected for the bytes that are there, and not for their number. -/
def DecodeError.isFinal : DecodeError → Bool
  | .truncated .. | .trailingBytes _ => false
  | .illegalOpcode | .reservedOpcode _ | .invalidLength _ | .badMagic | .unsupportedVersion _
  | .invalidDescriptor .. => true

/-- The rejection of an opcode byte is final. -/
theorem DecodeError.isFinal_of_isOpcode {e : DecodeError} (h : e.isOpcode = true) :
    e.isFinal = true := by
  cases e with
  | illegalOpcode | reservedOpcode byte => rfl
  | _ => contradiction

namespace Container

/-! ## More bytes -/

/-- Where a container ends. -/
def Cursor.stop (c : Cursor) : Nat := c.offset + c.rest.length

/-- The same place in a container with more bytes behind it. -/
def Cursor.extend (extra : Bytes) (c : Cursor) : Cursor := ⟨c.offset, c.rest ++ extra⟩

/-- What more bytes behind a container change about the result of a reader. -/
inductive Persists {α : Type} (c : Cursor) (extra : Bytes) :
    Except DecodeError (α × Cursor) → Except DecodeError (α × Cursor) → Prop
  | read {a : α} {c' : Cursor} (hstop : c'.stop = c.stop) :
      Persists c extra (.ok (a, c')) (.ok (a, c'.extend extra))
  | cut {offset needed : Nat} {later : Except DecodeError (α × Cursor)}
      (hoffset : offset ≤ c.stop) (hneeded : c.stop < offset + needed)
      (hlater : c.stop + extra.length < offset + needed →
        later = .error (.truncated offset needed)) :
      Persists c extra (.error (.truncated offset needed)) later
  | rejected {e : DecodeError} (hfinal : e.isFinal = true)
      (hlength : ∀ length, e ≠ .invalidLength length) :
      Persists c extra (.error e) (.error e)

/-- What follows a container has no part in how it is read. -/
def Steady {α : Type} (item : Reader α) : Prop :=
  ∀ (c : Cursor) (extra : Bytes), Persists c extra (item c) (item (c.extend extra))

section Readers

variable {α β : Type} {item : Reader α}

/-- Only the end of the container counts. -/
theorem Persists.of_stop_eq {c d : Cursor} {extra : Bytes}
    {now later : Except DecodeError (α × Cursor)} (h : Persists c extra now later)
    (hstop : c.stop = d.stop) : Persists d extra now later := by
  cases h with
  | read h => exact .read (h.trans hstop)
  | cut hoffset hneeded hlater =>
      rw [hstop] at hoffset hneeded hlater
      exact .cut hoffset hneeded hlater
  | rejected hfinal hlength => exact .rejected hfinal hlength

theorem steady_pure (a : α) : Steady (pure a : Reader α) :=
  fun _ _ => .read rfl

theorem steady_reject {e : DecodeError} (hfinal : e.isFinal = true)
    (hlength : ∀ length, e ≠ .invalidLength length) : Steady (reject e : Reader α) :=
  fun _ _ => .rejected hfinal hlength

/-- Readers one after another are as steady as each of them; the second one may rely on what
the first one has read. -/
theorem Steady.bind {next : α → Reader β} (h : Steady item)
    (hnext : ∀ c a c', item c = .ok (a, c') → Steady (next a)) : Steady (item >>= next) := by
  intro c extra
  have hitem := h c extra
  have hrest := hnext c
  simp only [Bind.bind, StateT.bind, Except.bind]
  generalize item c = now at hitem hrest
  generalize item (c.extend extra) = later at hitem
  cases hitem with
  | @read a c' hstop => exact (hrest a c' rfl c' extra).of_stop_eq hstop
  | cut hoffset hneeded hlater =>
      refine .cut hoffset hneeded ?_
      intro hshort
      rw [hlater hshort]
  | rejected hfinal hlength => exact .rejected hfinal hlength

/-- A field that is there is not changed by what follows it, and a field that is cut short
is so until all its bytes are there. -/
theorem steady_take (needed : Nat) : Steady (Reader.take needed) := by
  intro c extra
  rcases c with ⟨offset, rest⟩
  unfold Reader.take
  dsimp only [Cursor.extend]
  by_cases hneeded : needed ≤ rest.length
  · rw [if_pos (List.length_take_of_le hneeded),
      if_pos (List.length_take_of_le (by rw [List.length_append]; omega)),
      List.take_append_of_le_length hneeded, List.drop_append_of_le_length hneeded]
    refine .read ?_
    simp only [Cursor.stop, List.length_drop]
    omega
  · rw [if_neg (by rw [List.length_take]; omega)]
    refine .cut (Nat.le_add_right _ _) (by simp only [Cursor.stop]; omega) ?_
    intro hshort
    simp only [Cursor.stop] at hshort
    rw [if_neg]
    rw [List.length_take, List.length_append]
    omega

theorem steady_number (width : Nat) : Steady (Reader.number width) :=
  (steady_take width).bind fun _ _ _ _ => steady_pure _

/-- Items one after another are read as steadily as each of them. -/
theorem steady_loop (item : Nat → Reader α) (loop : List α → Nat → Nat → Reader (List α))
    (hzero : ∀ done index, loop done index 0 = pure done.reverse)
    (hsucc : ∀ done index n, loop done index (n + 1) =
      item index >>= fun a => loop (a :: done) (index + 1) n)
    (hitem : ∀ index, Steady (item index)) (done : List α) (index n : Nat) :
    Steady (loop done index n) := by
  induction n generalizing done index with
  | zero =>
      rw [hzero]
      exact steady_pure _
  | succ n ih =>
      rw [hsucc]
      exact (hitem index).bind fun _ a _ _ => ih (a :: done) (index + 1)

theorem Steady.times (h : Steady item) (n : Nat) : Steady (Reader.times n item) :=
  steady_loop (fun _ => item) (fun done _ n => Reader.repeatInto item done n)
    (fun _ _ => rfl) (fun _ _ _ => rfl) (fun _ => h) [] 0 n

end Readers

/-! ## The parts of a container -/

theorem steady_slot : Steady slot :=
  (steady_number 4).bind fun _ _ _ _ => (steady_number 4).bind fun _ _ _ _ => steady_pure _

/-- The code of a function is there as a whole before its opcodes are looked at. -/
theorem steady_body (index : Nat) (d : Descriptor) (codeLength : Nat) :
    Steady (body index d codeLength) := by
  unfold body
  split
  · exact steady_reject rfl nofun
  · refine (steady_take _).bind ?_
    intro c stream c' hstream
    rcases (reads_take _ _ _ _).mp hstream with ⟨_, ⟨hlength, -⟩, -⟩
    cases hdecode : Code.decode stream with
    | error e =>
        have hopcode := Code.isOpcode_of_decode_eq_error
          (by rw [hlength, Nat.mul_mod_left]) hdecode
        refine steady_reject (DecodeError.isFinal_of_isOpcode hopcode) ?_
        rintro length rfl
        contradiction
    | ok code => exact steady_pure _

theorem steady_routine (index : Nat) : Steady (routine index) := by
  rw [routine_eq]
  exact (steady_number 4).bind fun _ _ _ _ => (steady_number 2).bind fun _ _ _ _ =>
    (steady_number 2).bind fun _ _ _ _ => (steady_number 4).bind fun _ _ _ _ =>
    (steady_slot.times _).bind fun _ _ _ _ => (steady_slot.times _).bind fun _ _ _ _ =>
    steady_body index _ _

theorem steady_header : Steady header := by
  refine (steady_take 4).bind fun _ start _ _ => ?_
  split
  · refine (steady_number 2).bind fun _ found _ _ => ?_
    split
    · exact steady_number 2
    · exact steady_reject rfl nofun
  · exact steady_reject rfl nofun

/-- What follows a container has no part in how it is read. -/
theorem steady_program : Steady program :=
  steady_header.bind fun _ n _ _ =>
    (steady_loop routine routinesInto (fun _ _ => rfl) (fun _ _ _ => rfl) steady_routine
      [] 0 n).bind fun _ _ _ _ => steady_pure _

/-! ## Containers -/

/-- What more bytes behind a container change about how it is read. -/
inductive Continues (container extra : Bytes) :
    Except DecodeError Program → Except DecodeError Program → Prop
  | read (p : Program) : Continues container extra (.ok p)
      (if extra = [] then .ok p else .error (.trailingBytes extra.length))
  | trailing (excess : Nat) : Continues container extra (.error (.trailingBytes excess))
      (.error (.trailingBytes (excess + extra.length)))
  | cut {offset needed : Nat} {later : Except DecodeError Program}
      (hoffset : offset ≤ container.length) (hneeded : container.length < offset + needed)
      (hlater : container.length + extra.length < offset + needed →
        later = .error (.truncated offset needed)) :
      Continues container extra (.error (.truncated offset needed)) later
  | rejected {e : DecodeError} (hfinal : e.isFinal = true)
      (hlength : ∀ length, e ≠ .invalidLength length) :
      Continues container extra (.error e) (.error e)

/-- How a container is read with more bytes behind it. -/
theorem decode_continued (container extra : Bytes) :
    Continues container extra (decode container) (decode (container ++ extra)) := by
  have hprogram := steady_program ⟨0, container⟩ extra
  have hextend : (⟨0, container⟩ : Cursor).extend extra = ⟨0, container ++ extra⟩ := rfl
  have hstop : (⟨0, container⟩ : Cursor).stop = container.length := Nat.zero_add _
  rw [hextend] at hprogram
  unfold decode
  generalize program ⟨0, container⟩ = now at hprogram
  generalize program ⟨0, container ++ extra⟩ = later at hprogram
  cases hprogram with
  | @read p c hread =>
      rcases c with ⟨offset, rest⟩
      cases rest with
      | nil =>
          have hcontinues := @Continues.read container extra p
          cases extra <;> exact hcontinues
      | cons b rest =>
          have hcontinues := @Continues.trailing container extra (b :: rest).length
          rw [← List.length_append] at hcontinues
          exact hcontinues
  | cut hoffset hneeded hlater =>
      rw [hstop] at hoffset hneeded hlater
      refine .cut hoffset hneeded ?_
      intro hshort
      rw [hlater hshort]
  | rejected hfinal hlength => exact .rejected hfinal hlength

section Containers

variable {container cut extra : Bytes} {p : Program}

theorem continues_of_decode {result : Except DecodeError Program}
    (h : decode container = result) (extra : Bytes) :
    Continues container extra result (decode (container ++ extra)) := by
  rw [← h]
  exact decode_continued container extra

/-- Whatever follows a whole container is too much. -/
theorem decode_append_of_ok (h : decode container = .ok p) (hextra : extra ≠ []) :
    decode (container ++ extra) = .error (.trailingBytes extra.length) := by
  have hcontinued := continues_of_decode h extra
  generalize decode (container ++ extra) = later at hcontinued
  cases hcontinued
  exact if_neg hextra

theorem decode_append_of_trailing {excess : Nat}
    (h : decode container = .error (.trailingBytes excess)) (extra : Bytes) :
    decode (container ++ extra) = .error (.trailingBytes (excess + extra.length)) := by
  have hcontinued := continues_of_decode h extra
  generalize decode (container ++ extra) = later at hcontinued
  cases hcontinued with
  | trailing => rfl
  | rejected hfinal => contradiction

theorem decode_append_of_final {e : DecodeError} (h : decode container = .error e)
    (hfinal : e.isFinal = true) (extra : Bytes) : decode (container ++ extra) = .error e := by
  have hcontinued := continues_of_decode h extra
  generalize decode (container ++ extra) = later at hcontinued
  cases hcontinued with
  | trailing => contradiction
  | cut => contradiction
  | rejected => rfl

/-- A container that is too short is so until all bytes of the field are there. -/
theorem decode_append_of_truncated {offset needed : Nat}
    (h : decode container = .error (.truncated offset needed)) (extra : Bytes) :
    offset ≤ container.length ∧ container.length < offset + needed ∧
      (container.length + extra.length < offset + needed →
        decode (container ++ extra) = .error (.truncated offset needed)) := by
  have hcontinued := continues_of_decode h extra
  generalize decode (container ++ extra) = later at hcontinued
  cases hcontinued with
  | cut hoffset hneeded hlater => exact ⟨hoffset, hneeded, hlater⟩
  | rejected hfinal => contradiction

theorem decode_ne_invalidLength (container : Bytes) (length : Nat) :
    decode container ≠ .error (.invalidLength length) := by
  intro h
  have hcontinued := continues_of_decode h []
  generalize decode (container ++ []) = later at hcontinued
  cases hcontinued with
  | rejected _ hlength => exact hlength length rfl

/-- Whatever is missing from a whole container makes it too short: every other result
would show with the rest of the container, too. -/
theorem decode_eq_truncated_of_prefix (h : decode container = .ok p) (hcut : cut <+: container)
    (hne : cut ≠ container) : ∃ offset needed, decode cut = .error (.truncated offset needed) := by
  rcases hcut with ⟨extra, rfl⟩
  have hextra : extra ≠ [] := by
    rintro rfl
    exact hne (List.append_nil cut).symm
  cases hnow : decode cut with
  | ok q =>
      rw [decode_append_of_ok hnow hextra] at h
      contradiction
  | error e =>
      cases e with
      | truncated offset needed => exact ⟨offset, needed, rfl⟩
      | trailingBytes excess =>
          rw [decode_append_of_trailing hnow] at h
          contradiction
      | _ =>
          rw [decode_append_of_final hnow rfl] at h
          contradiction

end Containers

/-- A prefix of a whole container is too short, and a longer one too long.  If a container is
rejected for the bytes that are there, so is every longer one.  If it is too long, a longer
one is too long by that much more, and if it is too short, it is so for a place within it,
until all bytes needed there are there.  There is no other reason. -/
theorem decode_prefixes (container : Bytes) :
    (∀ p, decode container = .ok p →
      (∀ cut, cut <+: container → cut ≠ container →
        ∃ offset needed, decode cut = .error (.truncated offset needed)) ∧
      ∀ extra, extra ≠ [] →
        decode (container ++ extra) = .error (.trailingBytes extra.length)) ∧
    (∀ e, decode container = .error e → (∀ offset needed, e ≠ .truncated offset needed) →
      (∀ excess, e ≠ .trailingBytes excess) →
        ∀ extra, decode (container ++ extra) = .error e) ∧
    (∀ excess, decode container = .error (.trailingBytes excess) → ∀ extra,
      decode (container ++ extra) = .error (.trailingBytes (excess + extra.length))) ∧
    (∀ offset needed, decode container = .error (.truncated offset needed) →
      offset ≤ container.length ∧ container.length < offset + needed ∧
        ∀ extra, container.length + extra.length < offset + needed →
          decode (container ++ extra) = .error (.truncated offset needed)) ∧
    ∀ length, decode container ≠ .error (.invalidLength length) := by
  refine ⟨?_, ?_, ?_, ?_, decode_ne_invalidLength container⟩
  · intro p h
    exact ⟨fun cut => decode_eq_truncated_of_prefix h, fun extra => decode_append_of_ok h⟩
  · intro e h htruncated htrailing
    refine decode_append_of_final h ?_
    cases e with
    | truncated offset needed => exact absurd rfl (htruncated offset needed)
    | trailingBytes excess => exact absurd rfl (htrailing excess)
    | _ => rfl
  · intro excess h
    exact decode_append_of_trailing h
  · intro offset needed h
    have hcut := decode_append_of_truncated h
    exact ⟨(hcut []).1, (hcut []).2.1, fun extra => (hcut extra).2.2⟩

/-- Each kind of result of the reader, and what comes of it. -/
theorem decode_prefixes_padded :
    (decode paddedBytes = .ok padded ∧
      (∃ offset needed, decode (paddedBytes.take 45) = .error (.truncated offset needed)) ∧
      decode (paddedBytes ++ [0, 0]) = .error (.trailingBytes 2)) ∧
    (decode [82, 78, 84, 89, 2, 0] = .error (.unsupportedVersion 2) ∧
      decode ([82, 78, 84, 89, 2, 0] ++ paddedBytes) = .error (.unsupportedVersion 2)) ∧
    decode (paddedBytes ++ [0, 0] ++ [7]) = .error (.trailingBytes 3) ∧
    (decode (paddedBytes.take 45) = .error (.truncated 36 16) ∧
      decode (paddedBytes.take 45 ++ [255]) = .error (.truncated 36 16)) := by
  have hread : decode paddedBytes = .ok padded := by decide
  have hversion : decode [82, 78, 84, 89, 2, 0] = .error (.unsupportedVersion 2) := by decide
  have hcut : decode (paddedBytes.take 45) = .error (.truncated 36 16) := by decide
  have hlong := ((decode_prefixes paddedBytes).1 padded hread).2 [0, 0] (by decide)
  refine ⟨⟨hread, ?_, hlong⟩, ⟨hversion, ?_⟩, ?_, hcut, ?_⟩
  · exact ((decode_prefixes paddedBytes).1 padded hread).1 _ (List.take_prefix 45 paddedBytes)
      (by decide)
  · exact (decode_prefixes _).2.1 _ hversion nofun nofun paddedBytes
  · exact (decode_prefixes _).2.2.1 2 hlong [7]
  · exact ((decode_prefixes _).2.2.2.1 36 16 hcut).2.2 [255] (by decide)

end Container
end FrameMachine
