import FrameMachine.Proofs.Plans
import FrameMachine.Proofs.Streams

/-!
# Effects of a single instruction

An instruction that neither transfers control nor traps reads its operands, and
then it does one thing: it stores a result, or it goes on elsewhere.  This file
says what that is in terms of whole numbers and of the bytes that the window
held before, and when the instruction faults instead.  Nothing is assumed about
the machine: the window of the active frame may lie anywhere, even outside the
arena.

Main results:

- Theorem `yields_plan`: an instruction is planned exactly when it is proper, and
  the plan is to store its result or to go on at its target.
- Theorem `execute_effects`: an instruction either faults and changes nothing, or
  it changes its destination and the instruction pointer of the active frame.
-/

namespace FrameMachine

/-! ## Signed words -/

namespace LittleEndian

/-- The signed number that the bytes of a word stand for. -/
def signed (bytes : Bytes) : Int := Int.bmod (combine bytes) UInt32.size

/-- The word that holds a number modulo the number of words. -/
def wrapped (n : Int) : Bytes := split 4 (n % UInt32.size).toNat

/-- A number and its signed residue are held by the same word. -/
theorem wrapped_bmod (n : Int) : wrapped (n.bmod UInt32.size) = wrapped n := by
  simp only [wrapped, Int.bmod_emod]

-- The least signed word divided by `-1` is itself.
example : wrapped (Int32.minValue.toInt.tdiv (-1)) = wrapped Int32.minValue.toInt := by decide

@[simp]
theorem length_wrapped (n : Int) : (wrapped n).length = 4 :=
  length_split 4 _

theorem toInt_ofNat_combine (bytes : Bytes) :
    (UInt32.ofNat (combine bytes)).toInt32.toInt = signed bytes := by
  change (BitVec.ofNat 32 (combine bytes)).toInt = signed bytes
  rw [BitVec.toInt_eq_toNat_bmod, BitVec.toNat_ofNat, Int.natCast_emod, Int.emod_bmod]
  rfl

theorem wordBytes_eq (x : Int32) : Plan.wordBytes x = wrapped x.toInt := by
  have hlt : (x.toUInt32.toNat : Int) < UInt32.size := Int.ofNat_lt.mpr x.toUInt32.toNat_lt
  have hword : ((x.toUInt32.toNat : Int)).toNat = x.toUInt32.toNat := Int.toNat_natCast _
  change split 4 x.toUInt32.toNat = wrapped x.toBitVec.toInt
  rw [BitVec.toInt_eq_toNat_bmod]
  change _ = wrapped ((x.toUInt32.toNat : Int).bmod UInt32.size)
  rw [wrapped_bmod, wrapped, Int.emod_eq_of_lt (Int.natCast_nonneg _) hlt, hword]

section Operations

variable (x y : Int32)

theorem wordBytes_add : Plan.wordBytes (x + y) = wrapped (x.toInt + y.toInt) := by
  rw [wordBytes_eq, Int32.toInt_add]
  exact wrapped_bmod _

theorem wordBytes_sub : Plan.wordBytes (x - y) = wrapped (x.toInt - y.toInt) := by
  rw [wordBytes_eq, Int32.toInt_sub]
  exact wrapped_bmod _

theorem wordBytes_mul : Plan.wordBytes (x * y) = wrapped (x.toInt * y.toInt) := by
  rw [wordBytes_eq, Int32.toInt_mul]
  exact wrapped_bmod _

/-- Quotients are rounded toward zero. -/
theorem wordBytes_div : Plan.wordBytes (x / y) = wrapped (x.toInt.tdiv y.toInt) := by
  rw [wordBytes_eq, Int32.toInt_div]
  exact wrapped_bmod _

theorem flagBytes_eq :
    Plan.flagBytes (x == y) = [if x.toInt = y.toInt then 1 else 0] := by
  by_cases h : x = y <;> simp [Plan.flagBytes, Int32.toInt_inj, h]

theorem flagBytes_lt :
    Plan.flagBytes (x < y) = [if x.toInt < y.toInt then 1 else 0] := by
  by_cases h : x < y <;> simp [Plan.flagBytes, ← Int32.lt_iff_toInt_lt, h]

end Operations

end LittleEndian

/-! ## What an instruction is to do -/

/-- A range lies inside a window, and the arena holds it. -/
def Window.Accessible (w : Window) (a : Arena) (offset length : Nat) : Prop :=
  offset + length ≤ w.size ∧ a.contains ⟨w.base + offset, length⟩ = true

instance (w : Window) (a : Arena) (offset length : Nat) :
    Decidable (w.Accessible a offset length) :=
  inferInstanceAs (Decidable (_ ∧ _))

namespace Instruction

/-- The signed word at an operand. -/
def value (w : Window) (a : Arena) (operand : UInt16) : Int :=
  LittleEndian.signed (w.part a operand.toNat 4)

/-- The signed word at an operand as the interpreter reads it. -/
theorem toInt_word (w : Window) (a : Arena) (operand : UInt16) :
    (UInt32.ofNat (LittleEndian.combine (w.part a operand.toNat 4))).toInt32.toInt =
      value w a operand :=
  LittleEndian.toInt_ofNat_combine _

/-- The ranges of its window that an instruction reads or writes. -/
def accesses (i : Instruction) : List (Nat × Nat) :=
  match i.opcode with
  | .const => [(i.a.toNat, i.width.toNat)]
  | .copy => [(i.b.toNat, i.c.toNat), (i.a.toNat, i.c.toNat)]
  | .add | .sub | .mul | .div => [(i.b.toNat, 4), (i.c.toNat, 4), (i.a.toNat, 4)]
  | .eq | .lt => [(i.b.toNat, 4), (i.c.toNat, 4), (i.a.toNat, 1)]
  | .jz | .jnz => [(i.a.toNat, 1)]
  | .jmp | .nop | .call | .callback | .ret | .trap => []

/-- The bytes that an instruction stores at `a`, from the bytes before. -/
def result (i : Instruction) (w : Window) (a : Arena) : Bytes :=
  let x := value w a i.b
  let y := value w a i.c
  match i.opcode with
  | .const => LittleEndian.split i.width.toNat (i.b.toNat * UInt16.size + i.c.toNat)
  | .copy => w.part a i.b.toNat i.c.toNat
  | .add => LittleEndian.wrapped (x + y)
  | .sub => LittleEndian.wrapped (x - y)
  | .mul => LittleEndian.wrapped (x * y)
  | .div => LittleEndian.wrapped (x.tdiv y)
  | .eq => [if x = y then 1 else 0]
  | .lt => [if x < y then 1 else 0]
  | .jmp | .jz | .jnz | .nop | .call | .callback | .ret | .trap => []

/-- The position at which the frame goes on behind an instruction at `position`. -/
def target (i : Instruction) (w : Window) (a : Arena) (position : Nat) : Nat :=
  let flag := w.part a i.a.toNat 1
  match i.opcode with
  | .jmp => i.a.toNat
  | .jz => if flag = [0] then i.b.toNat else position + 1
  | .jnz => if flag = [0] then position + 1 else i.b.toNat
  | _ => position + 1

/-- An instruction can be executed: it has access to its operands and to its
destination, a constant has one of the three widths, and no division is by zero. -/
def Proper (i : Instruction) (w : Window) (a : Arena) : Prop :=
  (∀ access ∈ i.accesses, w.Accessible a access.1 access.2) ∧
    (i.opcode = .const → i.width = 1 ∨ i.width = 2 ∨ i.width = 4) ∧
    (i.opcode = .div → value w a i.c ≠ 0)

instance (i : Instruction) (w : Window) (a : Arena) : Decidable (i.Proper w a) :=
  inferInstanceAs (Decidable (_ ∧ _ ∧ _))

/-- The second machine is the first one with the result of an instruction stored
inside the window of the active frame, and with that frame gone on. -/
structure Effects (i : Instruction) (w : Window) (frame : Frame) (m m' : Machine) : Prop where
  inside : ∀ k < (i.result w m.arena).length, i.a.toNat + k < w.size
  cells : ∀ k, m'.arena.cells[k]? =
    if w.base + i.a.toNat ≤ k ∧ k < w.base + i.a.toNat + (i.result w m.arena).length then
      (i.result w m.arena)[k - (w.base + i.a.toNat)]?
    else m.arena.cells[k]?
  stackPointer : m'.arena.stackPointer = m.arena.stackPointer
  frames : ∀ k, m'.stack.frames[k]? =
    if k = m.stack.activeIndex then
      some { frame with
        instructionPointer := i.target w m.arena frame.instructionPointer }
    else m.stack.frames[k]?
  activeIndex : m'.stack.activeIndex = m.stack.activeIndex
  reclaim : m'.reclaim = m.reclaim
  poisoned : m'.poisoned = m.poisoned
  journal : m'.journal = m.journal

end Instruction

/-! ## Computations that succeed on a condition -/

/-- A computation gives a value on a condition, and otherwise it fails. -/
def Yields {α : Type} (condition : Prop) (value : α) (x : Except Fault α) : Prop :=
  (condition ∧ x = .ok value) ∨ (¬condition ∧ ∃ cause, x = .error cause)

namespace Yields

variable {α β : Type} {P Q : Prop} {v : α} {w : β} {x : Except Fault α}

theorem ok (v : α) : Yields True v (.ok v) :=
  Or.inl ⟨trivial, rfl⟩

theorem congr (h : Yields P v x) (hiff : P ↔ Q) : Yields Q v x := by
  rcases h with ⟨hP, hx⟩ | ⟨hP, hx⟩
  · exact Or.inl ⟨hiff.mp hP, hx⟩
  · exact Or.inr ⟨fun hQ => hP (hiff.mpr hQ), hx⟩

/-- The value matters only on the condition. -/
theorem congr_value {v' : α} (h : Yields P v x) (hvalue : P → v = v') : Yields P v' x := by
  rcases h with ⟨hP, hx⟩ | h
  · exact Or.inl ⟨hP, hvalue hP ▸ hx⟩
  · exact Or.inr h

/-- A second computation starts from the value of the first one. -/
theorem bind {f : α → Except Fault β} (hx : Yields P v x) (hf : P → Yields Q w (f v)) :
    Yields (P ∧ Q) w (x >>= f) := by
  rcases hx with ⟨hP, hx⟩ | ⟨hP, cause, hx⟩
  · rw [hx]
    exact (hf hP).congr (by simp [hP])
  · rw [hx]
    exact Or.inr ⟨fun h => hP h.1, cause, rfl⟩

theorem map (f : α → β) (h : Yields P v x) : Yields P (f v) (x >>= fun a => .ok (f a)) :=
  (h.bind fun _ => ok (f v)).congr (by rw [and_true])

end Yields

/-! ## Accesses -/

section Accesses

variable {site : Site} {m : Machine} {offset length : Nat}

/-- A range lies inside a window, and its start is a word. -/
def Window.Resolvable (w : Window) (offset length : Nat) : Prop :=
  offset + length < Word.count ∧ w.base + offset < Word.count ∧ offset + length ≤ w.size

/-- The arena holds a range only if the end of the range is a word. -/
theorem Window.accessible_iff {w : Window} {a : Arena} :
    w.Accessible a offset length ↔
      w.Resolvable offset length ∧ a.contains ⟨w.base + offset, length⟩ = true := by
  rw [Accessible, Resolvable, Arena.contains_iff]
  dsimp only
  omega

theorem yields_resolve (site : Site) (offset length : Nat) :
    Yields (site.window.Resolvable offset length) ⟨site.window.base + offset, length⟩
      (site.resolve offset length) := by
  unfold Site.resolve Window.resolve Window.Resolvable Word.add?
  by_cases hstop : offset + length < Word.count
  · by_cases hstart : site.window.base + offset < Word.count
    · rw [if_pos hstop, if_pos hstart]
      by_cases hfit : offset + length ≤ site.window.size
      · exact Or.inl ⟨⟨hstop, hstart, hfit⟩, by simp only [if_pos hfit]; rfl⟩
      · exact Or.inr ⟨fun h => hfit h.2.2, _, by simp only [if_neg hfit]; rfl⟩
    · rw [if_pos hstop, if_neg hstart]
      exact Or.inr ⟨fun h => hstart h.2.1, _, rfl⟩
  · rw [if_neg hstop]
    exact Or.inr ⟨fun h => hstop h.1, _, rfl⟩

theorem yields_bytesAt (m : Machine) (range : Address) :
    Yields (m.arena.contains range = true) (m.arena.slice range) (m.bytesAt range) := by
  unfold Machine.bytesAt Arena.read
  by_cases h : m.arena.contains range = true
  · exact Or.inl ⟨h, by rw [if_pos h]; rfl⟩
  · exact Or.inr ⟨h, _, by rw [if_neg h]; rfl⟩

theorem yields_check (m : Machine) (range : Address) :
    Yields (m.arena.contains range = true) () ((m.arena.check range).mapError Fault.memory) := by
  unfold Arena.check
  by_cases h : m.arena.contains range = true
  · exact Or.inl ⟨h, by rw [if_pos h]; rfl⟩
  · exact Or.inr ⟨h, _, by rw [if_neg h]; rfl⟩

theorem yields_operand (site : Site) (m : Machine) (offset length : Nat) :
    Yields (site.window.Accessible m.arena offset length)
      (site.window.part m.arena offset length) (site.operand m offset length) :=
  ((yields_resolve site offset length).bind fun _ => yields_bytesAt m _).congr
    Window.accessible_iff.symm

theorem yields_word (site : Site) (m : Machine) (offset : UInt16) :
    Yields (site.window.Accessible m.arena offset.toNat 4)
      (UInt32.ofNat (LittleEndian.combine (site.window.part m.arena offset.toNat 4))).toInt32
      (site.word m offset) :=
  (yields_operand site m offset.toNat 4).map _

/-- Accessible bytes are all there. -/
theorem Window.Accessible.length_part {w : Window} {a : Arena}
    (h : w.Accessible a offset length) : (w.part a offset length).length = length :=
  Arena.length_slice (Arena.contains_iff.mp h.2).2

/-- An instruction that is proper has access to its destination. -/
theorem Instruction.Proper.destination {i : Instruction} {w : Window} {a : Arena}
    (h : i.Proper w a) :
    i.result w a = [] ∨ w.Accessible a i.a.toNat (i.result w a).length := by
  have haccess := h.1
  cases hopcode : i.opcode with
  | jmp | jz | jnz | nop | call | callback | ret | trap =>
      exact Or.inl (by simp only [Instruction.result, hopcode])
  | const | add | sub | mul | div | eq | lt =>
      right
      apply haccess (i.a.toNat, _)
      simp [Instruction.accesses, Instruction.result, hopcode]
  | copy =>
      right
      simp only [Instruction.accesses, hopcode, List.forall_mem_cons] at haccess
      have hlength := haccess.1.length_part
      simp only [Instruction.result, hopcode, hlength]
      exact haccess.2.1

theorem LittleEndian.combine_eq_zero_iff {bytes : Bytes} (h : bytes.length = 1) :
    combine bytes = 0 ↔ bytes = [0] := by
  obtain ⟨b, rfl⟩ := List.length_eq_one_iff.mp h
  simp only [combine, Nat.mul_zero, Nat.add_zero, List.cons.injEq, and_true]
  exact UInt8.toNat_inj (a := b) (b := 0)

theorem yields_flag (site : Site) (m : Machine) (offset : UInt16) :
    Yields (site.window.Accessible m.arena offset.toNat 1)
      (decide (LittleEndian.combine (site.window.part m.arena offset.toNat 1) ≠ 0))
      (site.flag m offset) :=
  (yields_operand site m offset.toNat 1).map fun bytes =>
    decide (LittleEndian.combine bytes ≠ 0)

end Accesses

/-! ## Plans -/

namespace Plan

variable {m : Machine} {site : Site} {i : Instruction}

theorem yields_storing (m : Machine) (site : Site) (destination : UInt16) (bytes : Bytes) :
    Yields (site.window.Accessible m.arena destination.toNat bytes.length)
      (.store ⟨site.window.base + destination.toNat, bytes.length⟩ bytes)
      (storing m site destination bytes) :=
  ((yields_resolve site destination.toNat bytes.length).bind fun _ =>
    (yields_check m _).map _).congr Window.accessible_iff.symm

/-- Two words are read before the result is stored. -/
theorem yields_combining (op : Int32 → Int32 → Bytes)
    (hresult : op
      (UInt32.ofNat (LittleEndian.combine (site.window.part m.arena i.b.toNat 4))).toInt32
      (UInt32.ofNat (LittleEndian.combine (site.window.part m.arena i.c.toNat 4))).toInt32 =
        i.result site.window m.arena) :
    Yields (site.window.Accessible m.arena i.b.toNat 4 ∧
        site.window.Accessible m.arena i.c.toNat 4 ∧
        site.window.Accessible m.arena i.a.toNat (i.result site.window m.arena).length)
      (.store ⟨site.window.base + i.a.toNat, (i.result site.window m.arena).length⟩
        (i.result site.window m.arena))
      (combining m site i op) :=
  (yields_word site m i.b).bind fun _ => (yields_word site m i.c).bind fun _ =>
    hresult ▸ yields_storing m site i.a (i.result site.window m.arena)

/-- The flag is the byte at `a`. -/
theorem yields_jumpingIf (wanted : Bool) (m : Machine) (site : Site) (i : Instruction) :
    Yields (site.window.Accessible m.arena i.a.toNat 1)
      (if decide (site.window.part m.arena i.a.toNat 1 ≠ [0]) = wanted then .goto i.b else .next)
      (jumpingIf wanted m site i) := by
  have hflag := (yields_flag site m i.a).map fun flag =>
    if flag = wanted then Plan.goto i.b else .next
  apply hflag.congr_value
  intro haccess
  simp only [ne_eq, LittleEndian.combine_eq_zero_iff haccess.length_part]

/-- A COPY resolves both of its ranges before it reads the source. -/
theorem yields_copy (program : Program) (hopcode : i.opcode = .copy) :
    Yields (site.window.Accessible m.arena i.b.toNat i.c.toNat ∧
        site.window.Accessible m.arena i.a.toNat i.c.toNat)
      (.store ⟨site.window.base + i.a.toNat, i.c.toNat⟩
        (site.window.part m.arena i.b.toNat i.c.toNat))
      (ofInstruction program m site i) := by
  have hplan : Yields
      (site.window.Resolvable i.b.toNat i.c.toNat ∧ site.window.Resolvable i.a.toNat i.c.toNat ∧
        m.arena.contains ⟨site.window.base + i.b.toNat, i.c.toNat⟩ = true ∧
        m.arena.contains ⟨site.window.base + i.a.toNat, i.c.toNat⟩ = true)
      (.store ⟨site.window.base + i.a.toNat, i.c.toNat⟩
        (site.window.part m.arena i.b.toNat i.c.toNat))
      (ofInstruction program m site i) := by
    simp only [ofInstruction, hopcode]
    exact (yields_resolve site _ _).bind fun _ => (yields_resolve site _ _).bind fun _ =>
      (yields_bytesAt m _).bind fun _ => (yields_check m _).map _
  apply hplan.congr
  rw [Window.accessible_iff, Window.accessible_iff]
  constructor
  · rintro ⟨hb, ha, hsource, htarget⟩
    exact ⟨⟨hb, hsource⟩, ha, htarget⟩
  · rintro ⟨⟨hb, hsource⟩, ha, htarget⟩
    exact ⟨hb, ha, hsource, htarget⟩

/-- A division looks at its divisor first, and reads it again after the dividend. -/
theorem yields_div (program : Program) (hopcode : i.opcode = .div) :
    Yields ((site.window.Accessible m.arena i.b.toNat 4 ∧
        site.window.Accessible m.arena i.c.toNat 4 ∧
        site.window.Accessible m.arena i.a.toNat (i.result site.window m.arena).length) ∧
          Instruction.value site.window m.arena i.c ≠ 0)
      (.store ⟨site.window.base + i.a.toNat, (i.result site.window m.arena).length⟩
        (i.result site.window m.arena))
      (ofInstruction program m site i) := by
  have hresult : wordBytes
      ((UInt32.ofNat (LittleEndian.combine (site.window.part m.arena i.b.toNat 4))).toInt32 /
        (UInt32.ofNat (LittleEndian.combine (site.window.part m.arena i.c.toNat 4))).toInt32) =
          i.result site.window m.arena := by
    simp only [Instruction.result, hopcode, LittleEndian.wordBytes_div, Instruction.toInt_word]
  have hzero : (UInt32.ofNat
      (LittleEndian.combine (site.window.part m.arena i.c.toNat 4))).toInt32 = 0 ↔
        Instruction.value site.window m.arena i.c = 0 := by
    rw [← Int32.toInt_inj, Instruction.toInt_word]
    rfl
  have hcombining := yields_combining (fun x y => wordBytes (x / y)) hresult
  have hplan : Yields (site.window.Accessible m.arena i.c.toNat 4 ∧
        (site.window.Accessible m.arena i.b.toNat 4 ∧
        site.window.Accessible m.arena i.c.toNat 4 ∧
        site.window.Accessible m.arena i.a.toNat (i.result site.window m.arena).length) ∧
          Instruction.value site.window m.arena i.c ≠ 0)
      (.store ⟨site.window.base + i.a.toNat, (i.result site.window m.arena).length⟩
        (i.result site.window m.arena))
      (ofInstruction program m site i) := by
    simp only [ofInstruction, hopcode]
    apply (yields_word site m i.c).bind
    intro _
    by_cases hdivisor : Instruction.value site.window m.arena i.c = 0
    · rw [if_pos (hzero.mpr hdivisor)]
      exact Or.inr ⟨fun h => h.2 hdivisor, _, rfl⟩
    · rw [if_neg (mt hzero.mp hdivisor)]
      exact hcombining.congr (by simp only [ne_eq, hdivisor, not_false_eq_true, and_true])
  exact hplan.congr ⟨fun h => h.2, fun h => ⟨h.1.2.1, h⟩⟩

/-- The plan of an instruction that is proper. -/
def intended (i : Instruction) (w : Window) (a : Arena) : Plan :=
  match i.opcode with
  | .jmp => .goto i.a
  | .jz => if w.part a i.a.toNat 1 = [0] then .goto i.b else .next
  | .jnz => if w.part a i.a.toNat 1 = [0] then .next else .goto i.b
  | .nop => .next
  | _ => .store ⟨w.base + i.a.toNat, (i.result w a).length⟩ (i.result w a)

variable (m site) in
/-- An instruction is planned exactly when it is proper, and the plan is to store its
result or to go on at its target. -/
theorem yields_plan (program : Program) (hplain : i.opcode.transfers = false)
    (htrap : i.opcode ≠ .trap) :
    Yields (i.Proper site.window m.arena) (intended i site.window m.arena)
      (ofInstruction program m site i) := by
  cases hopcode : i.opcode with
  | call | callback | ret => simp [hopcode, Opcode.transfers] at hplain
  | trap => exact absurd hopcode htrap
  | const =>
      have hresult : i.result site.window m.arena =
          LittleEndian.split i.width.toNat i.immediate.toNat := by
        simp only [Instruction.result, hopcode, Instruction.toNat_immediate]
      have hstoring := yields_storing m site i.a (i.result site.window m.arena)
      simp only [ofInstruction, intended, hopcode, ← hresult]
      by_cases hwidth : i.width = 1 ∨ i.width = 2 ∨ i.width = 4
      · rw [if_pos hwidth]
        apply hstoring.congr
        simp [Instruction.Proper, Instruction.accesses, hopcode, hwidth, hresult]
      · rw [if_neg hwidth]
        exact Or.inr ⟨fun h => hwidth (h.2.1 hopcode), _, rfl⟩
  | copy =>
      have hproper : site.window.Accessible m.arena i.b.toNat i.c.toNat ∧
          site.window.Accessible m.arena i.a.toNat i.c.toNat ↔
            i.Proper site.window m.arena := by
        simp [Instruction.Proper, Instruction.accesses, hopcode]
      apply ((yields_copy program hopcode).congr hproper).congr_value
      intro h
      simp only [intended, Instruction.result, hopcode, (hproper.mpr h).1.length_part]
  | div =>
      have hplan : intended i site.window m.arena =
          .store ⟨site.window.base + i.a.toNat, (i.result site.window m.arena).length⟩
            (i.result site.window m.arena) := by
        simp only [intended, hopcode]
      rw [hplan]
      apply (yields_div program hopcode).congr
      simp [Instruction.Proper, Instruction.accesses, Instruction.result, hopcode]
  | add | sub | mul | eq | lt =>
      simp only [ofInstruction, intended, hopcode]
      refine (yields_combining (i := i) _ ?_).congr ?_
      · simp only [Instruction.result, hopcode, LittleEndian.wordBytes_add,
          LittleEndian.wordBytes_sub, LittleEndian.wordBytes_mul, LittleEndian.flagBytes_eq,
          LittleEndian.flagBytes_lt, Instruction.toInt_word]
      · simp [Instruction.Proper, Instruction.accesses, Instruction.result, hopcode]
  | jz | jnz =>
      simp only [ofInstruction, intended, hopcode]
      apply ((yields_jumpingIf _ m site i).congr _).congr_value
      · simp
      · simp [Instruction.Proper, Instruction.accesses, hopcode]
  | jmp | nop =>
      simp only [ofInstruction, intended, hopcode]
      refine (Yields.ok _).congr ?_
      simp [Instruction.Proper, Instruction.accesses, hopcode]

end Plan

/-! ## Effects -/

namespace Interpreter

variable {program : Program} {m : Machine} {frame : Frame} {i : Instruction} {w : Window}

/-- Storing the result of an instruction and jumping to its target has the effects
of the instruction. -/
theorem effects_jump (hframe : m.stack.frames[m.stack.activeIndex]? = some frame)
    (hfit : i.result w m.arena = [] ∨
      w.Accessible m.arena i.a.toNat (i.result w m.arena).length) :
    i.Effects w frame m
      ((m.modifyArena (Arena.store (w.base + i.a.toNat) (i.result w m.arena))).modifyStack
        (CallStack.jump (i.target w m.arena frame.instructionPointer))) where
  inside k hk := by
    rcases hfit with hnil | hfit
    · rw [hnil] at hk
      contradiction
    · have hsize := hfit.1
      omega
  cells k := by
    rw [Machine.arena_modifyStack, Machine.arena_modifyArena, Arena.cells_store,
      getElem?_overwrite]
    rcases hfit with hnil | hfit
    · rw [hnil, if_neg (by simp only [List.length_nil]; omega),
        if_neg (by simp only [List.length_nil]; omega)]
    · have hstop := (Arena.contains_iff.mp hfit.2).2
      simp only [Arena.capacity] at hstop
      split
      · rw [if_pos (by omega)]
      · rw [if_neg (by omega)]
  stackPointer := rfl
  frames k := by
    rw [Machine.stack_modifyStack, Machine.stack_modifyArena, CallStack.jump,
      CallStack.frames_modifyActive, Array.getElem?_modify]
    by_cases hk : m.stack.activeIndex = k
    · rw [if_pos hk, if_pos hk.symm, ← hk, hframe]
      rfl
    · rw [if_neg hk, if_neg (Ne.symm hk)]
  activeIndex := rfl
  reclaim := rfl
  poisoned := rfl
  journal := rfl

/-- What is intended has the form of a store and a jump. -/
theorem carryOut_intended (program : Program) (returnTo : Nat) (location : Location)
    (w : Window) (hframe : m.stack.frames[m.stack.activeIndex]? = some frame) :
    carryOut program returnTo ⟨location, w⟩ i (Plan.intended i w m.arena) m =
      .ok .running ((m.modifyArena
        (Arena.store (w.base + i.a.toNat) (i.result w m.arena))).modifyStack
          (CallStack.jump (i.target w m.arena frame.instructionPointer))) := by
  have hnext := advance_eq_jump hframe
  have hstored : advance (m.modifyArena
        (Arena.store (w.base + i.a.toNat) (i.result w m.arena))) = _ :=
    advance_eq_jump hframe
  cases hopcode : i.opcode with
  | const | copy | add | sub | mul | div | eq | lt | call | callback | ret | trap =>
      simp only [Plan.intended, Instruction.target, hopcode, carryOut, hstored]
  | jmp =>
      simp only [Plan.intended, Instruction.result, Instruction.target, hopcode, carryOut]
      rfl
  | nop =>
      simp only [Plan.intended, Instruction.result, Instruction.target, hopcode, carryOut, hnext]
      rfl
  | jz | jnz =>
      by_cases hflag : w.part m.arena i.a.toNat 1 = [0]
      · simp only [Plan.intended, Instruction.result, Instruction.target, hopcode, carryOut,
          if_pos hflag, hnext]
        rfl
      · simp only [Plan.intended, Instruction.result, Instruction.target, hopcode, carryOut,
          if_neg hflag, hnext]
        rfl

/-- An instruction that neither transfers control nor traps is executed exactly when it
is proper.  Then it changes its destination inside the window and the instruction
pointer of the active frame; otherwise it is a fault and changes nothing. -/
theorem execute_effects {function : UInt16} {routine : Routine}
    (hframe : m.stack.frames[m.stack.activeIndex]? = some frame)
    (hoperator : frame.operator = some function)
    (hroutine : program.routine? function = some routine)
    (hinstruction : routine.code[frame.instructionPointer]? = some i)
    (hplain : i.opcode.transfers = false) (htrap : i.opcode ≠ .trap) (returnTo : Nat) :
    let w : Window := ⟨frame.framePointer, routine.descriptor.size.toNat⟩
    let site : Site := ⟨⟨function, frame.instructionPointer⟩, w⟩
    fetch program m = .ok (site, i) ∧
      ((i.Proper w m.arena ∧
          ∃ m', execute program returnTo site i m = .ok .running m' ∧ i.Effects w frame m m') ∨
        (¬i.Proper w m.arena ∧ ∃ cause, execute program returnTo site i m = .error cause m)) := by
  intro w site
  have hfetch : fetch program m = .ok (site, i) := by
    have hrunning := running?_eq_some_iff.mpr ⟨hframe, hoperator, hroutine⟩
    simp only [fetch, hrunning, hinstruction]
    rfl
  refine ⟨hfetch, ?_⟩
  rcases Plan.yields_plan m site program hplain htrap with
    ⟨hproper, hplan⟩ | ⟨hproper, cause, hplan⟩
  · refine Or.inl ⟨hproper, _, ?_, effects_jump hframe hproper.destination⟩
    simp only [execute, hplan]
    exact carryOut_intended program returnTo _ w hframe
  · exact Or.inr ⟨hproper, cause, by simp only [execute, hplan]⟩

/-- A function that adds the words at 0 and 4 and stores the sum over half of each. -/
def summation : Program :=
  ⟨#[⟨⟨8, [], []⟩, #[⟨.add, 0, 2, 0, 4⟩, ⟨.ret, 0, 0, 0, 0⟩]⟩]⟩

/-- A machine that is about to add `-1` and the least signed word. -/
def summing : Machine :=
  Machine.after (Machine.perform summation (.arena (.write 0 [255, 255, 255, 255, 0, 0, 0, 128]))
    (Machine.after (Machine.perform summation (.pushFrame 0 8) (Machine.ofConfig ⟨8, 2, .retain⟩))))

/-- The sum wraps, and it is that of the operands before the store. -/
theorem sum_over_operands :
    let i : Instruction := ⟨.add, 0, 2, 0, 4⟩
    i.result ⟨0, 8⟩ summing.arena = [255, 255, 255, 127] ∧
      ∃ m', execute summation 0 ⟨⟨0, 0⟩, ⟨0, 8⟩⟩ i summing = .ok .running m' ∧
        i.Effects ⟨0, 8⟩ ⟨some 0, 0, 0⟩ summing m' := by
  have hframe : summing.stack.frames[summing.stack.activeIndex]? = some ⟨some 0, 0, 0⟩ := by
    decide
  have hroutine : summation.routine? 0 =
      some ⟨⟨8, [], []⟩, #[⟨.add, 0, 2, 0, 4⟩, ⟨.ret, 0, 0, 0, 0⟩]⟩ := rfl
  have heffects := execute_effects hframe rfl hroutine rfl rfl (by decide) 0
  refine ⟨by decide, ?_⟩
  rcases heffects.2 with ⟨-, hdone⟩ | ⟨himproper, -⟩
  · exact hdone
  · exact absurd (by decide) himproper

end Interpreter
end FrameMachine
