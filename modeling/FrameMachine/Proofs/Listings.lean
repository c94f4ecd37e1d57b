import FrameMachine.CommandLine.Listing
import FrameMachine.Proofs.Essence
import FrameMachine.Proofs.Streams
import FrameMachine.Proofs.Texts

/-!
# Listings can be read back

A listing shows all of a program that matters: its text tells the functions, their
layouts and, for each instruction, the opcode and the fields that the opcode uses.
So programs with the same listing have the same essence, and no invocation tells them
apart.

The text is read from front to back.  Every number in it ends where something other
than a digit follows, a mnemonic where a blank or a newline follows, and the code of a
function where a line is not indented.

Main results:

- Theorem `Instruction.eq_of_render_append`: the text of an instruction tells its essence.
- Theorem `CommandLine.eq_of_showDescriptor_append`: the line of a frame layout tells the
  layout.
- Theorem `CommandLine.listing_eq_iff`: the text of a listing tells the essence of the
  program, and nothing more.
- Theorem `CommandLine.listing_determines`: programs with the same listing behave alike.
-/

namespace FrameMachine

/-! ## Marked numbers -/

/-- Numbers, each behind its mark. -/
def marked : List String → List Nat → List Char
  | mark :: marks, n :: numbers => mark.toList ++ digits n ++ marked marks numbers
  | _, _ => []

section Marked

variable {marks : List String} {numbers numbers' : List Nat} {rest rest' : List Char}

/-- No mark starts with a digit. -/
theorem stops_marked (hmarks : ∀ mark ∈ marks, ∀ text, Stops Char.isDigit (mark.toList ++ text))
    (hrest : Stops Char.isDigit rest) : Stops Char.isDigit (marked marks numbers ++ rest) := by
  cases marks with
  | nil => simpa only [marked, List.nil_append] using hrest
  | cons mark marks =>
      cases numbers with
      | nil => simpa only [marked, List.nil_append] using hrest
      | cons n numbers =>
          simp only [marked, List.append_assoc]
          exact hmarks mark (List.mem_cons_self ..) _

/-- Numbers behind marks are known from their text, and so is what follows them. -/
theorem eq_of_marked_append
    (hmarks : ∀ mark ∈ marks, ∀ text, Stops Char.isDigit (mark.toList ++ text))
    (hlength : numbers.length = marks.length) (hlength' : numbers'.length = marks.length)
    (hrest : Stops Char.isDigit rest) (hrest' : Stops Char.isDigit rest')
    (h : marked marks numbers ++ rest = marked marks numbers' ++ rest') :
    numbers = numbers' ∧ rest = rest' := by
  induction marks generalizing numbers numbers' with
  | nil =>
      rw [List.length_nil, List.length_eq_zero_iff] at hlength hlength'
      subst hlength
      subst hlength'
      exact ⟨rfl, h⟩
  | cons mark marks ih =>
      obtain ⟨n, numbers, rfl⟩ := List.exists_cons_of_length_eq_add_one hlength
      obtain ⟨n', numbers', rfl⟩ := List.exists_cons_of_length_eq_add_one hlength'
      have htail : ∀ m ∈ marks, ∀ text, Stops Char.isDigit (m.toList ++ text) :=
        fun m hm => hmarks m (List.mem_cons_of_mem _ hm)
      simp only [marked, List.append_assoc] at h
      rcases eq_of_digits_append (stops_marked htail hrest) (stops_marked htail hrest')
        (List.append_cancel_left h) with ⟨rfl, hafter⟩
      rcases ih htail (Nat.succ.inj hlength) (Nat.succ.inj hlength') hafter with ⟨rfl, hsame⟩
      exact ⟨rfl, hsame⟩

end Marked

/-! ## Instructions -/

/-- What stands in front of the fields of an instruction. -/
def Opcode.marks : Opcode → List String
  | .const => [" w", " @"]
  | .copy => [" @", " @", " "]
  | .add | .sub | .mul | .div | .eq | .lt => [" @", " @", " @"]
  | .jmp | .trap => [" "]
  | .jz | .jnz => [" @", " "]
  | .call | .callback => [" fn ", " @", " @"]
  | .ret | .nop => []

namespace Instruction

/-- The fields of an instruction that are shown as numbers. -/
def numbers (i : Instruction) : List Nat :=
  match i.opcode with
  | .const => [i.width.toNat, i.a.toNat]
  | .copy | .add | .sub | .mul | .div | .eq | .lt | .call | .callback =>
      [i.a.toNat, i.b.toNat, i.c.toNat]
  | .jmp | .trap => [i.a.toNat]
  | .jz | .jnz => [i.a.toNat, i.b.toNat]
  | .ret | .nop => []

/-- The immediate as it is shown behind the numbers of a constant. -/
def shownImmediate (i : Instruction) : List Char :=
  match i.opcode with
  | .const => " 0x".toList ++
      (Hex.encode (LittleEndian.split 4 i.immediate.toNat).reverse).toList
  | _ => []

/-- The text of an instruction has three parts. -/
theorem toList_render (i : Instruction) :
    i.render.toList =
      i.opcode.mnemonic.toList ++ (marked i.opcode.marks i.numbers ++ i.shownImmediate) := by
  have hbyte : ∀ x : UInt8, (toString x).toList = digits x.toNat := fun x => toList_toString _
  have hhalf : ∀ x : UInt16, (toString x).toList = digits x.toNat := fun x => toList_toString _
  have hstring : ∀ s : String, toString s = s := fun _ => rfl
  cases hopcode : i.opcode <;>
    simp only [render, numbers, shownImmediate, Opcode.marks, marked, hopcode, hbyte, hhalf,
      hstring, String.toList_append, List.append_assoc, List.append_nil]

theorem length_numbers (i : Instruction) : i.numbers.length = i.opcode.marks.length := by
  cases hopcode : i.opcode <;> simp [numbers, Opcode.marks, hopcode]

end Instruction

namespace Opcode

@[simp]
theorem ofMnemonic?_mnemonic (op : Opcode) : ofMnemonic? op.mnemonic = some op := by
  cases op <;> decide

theorem isUpper_of_mem_mnemonic {op : Opcode} : ∀ c ∈ op.mnemonic.toList, c.isUpper = true := by
  have hall : op.mnemonic.toList.all Char.isUpper = true := by
    cases op <;> rfl
  exact List.all_eq_true.mp hall

theorem stops_mark {op : Opcode} :
    ∀ mark ∈ op.marks, ∀ text, Stops Char.isDigit (mark.toList ++ text) := by
  have hmarks : ∀ mark ∈ op.marks, mark ∈ [" w", " @", " ", " fn "] := by
    cases op <;> decide
  intro mark hmark text
  have hmem := hmarks mark hmark
  simp only [List.mem_cons, List.not_mem_nil, or_false] at hmem
  rcases hmem with rfl | rfl | rfl | rfl <;> exact rfl

end Opcode

namespace Instruction

section Lines

variable {i j : Instruction} {rest rest' : List Char}

/-- What follows a mnemonic is a blank or the end of the line. -/
theorem stops_fields (i : Instruction) (rest : List Char) :
    Stops Char.isUpper
      (marked i.opcode.marks i.numbers ++ (i.shownImmediate ++ '\n' :: rest)) := by
  cases hopcode : i.opcode <;>
    simp only [numbers, shownImmediate, Opcode.marks, marked, hopcode] <;> exact rfl

/-- What follows the numbers is a blank or the end of the line. -/
theorem stops_shownImmediate (i : Instruction) (rest : List Char) :
    Stops Char.isDigit (i.shownImmediate ++ '\n' :: rest) := by
  cases hopcode : i.opcode <;> simp only [shownImmediate, hopcode] <;> exact rfl

/-- The immediate of a constant is known from its digits. -/
theorem immediate_eq_of_shown (hopcode : i.opcode = .const) (hopcode' : j.opcode = .const)
    (h : i.shownImmediate ++ '\n' :: rest = j.shownImmediate ++ '\n' :: rest') :
    i.immediate = j.immediate ∧ rest = rest' := by
  simp only [shownImmediate, hopcode, hopcode', List.append_assoc] at h
  have hlength : ∀ n : Nat,
      (Hex.encode (LittleEndian.split 4 n).reverse).toList.length = 8 := by
    intro n
    rw [Hex.encode, String.toList_ofList, Hex.length_byteDigits, List.length_reverse,
      LittleEndian.length_split]
  rcases List.append_inj (List.append_cancel_left h)
    ((hlength _).trans (hlength _).symm) with ⟨hdigits, hrest⟩
  have hbytes := List.reverse_inj.mp (Hex.encode_inj (String.toList_inj.mp hdigits))
  have hnumber := congrArg LittleEndian.combine hbytes
  rw [LittleEndian.combine_split (LittleEndian.word_lt _),
    LittleEndian.combine_split (LittleEndian.word_lt _)] at hnumber
  exact ⟨UInt32.toNat_inj.mp hnumber, (List.cons.inj hrest).2⟩

/-- The immediate holds both operands. -/
theorem operands_eq_of_immediate_eq (h : i.immediate = j.immediate) : i.b = j.b ∧ i.c = j.c := by
  have hnumber := congrArg UInt32.toNat h
  rw [toNat_immediate, toNat_immediate] at hnumber
  have hc := i.c.toNat_lt
  have hc' := j.c.toNat_lt
  have hsize : UInt16.size = 65536 := rfl
  rw [hsize] at hnumber
  exact ⟨UInt16.toNat_inj.mp (by omega), UInt16.toNat_inj.mp (by omega)⟩

/-- Other instructions show no immediate. -/
theorem shownImmediate_of_ne (hopcode : i.opcode ≠ .const) : i.shownImmediate = [] := by
  unfold shownImmediate
  split
  · contradiction
  · rfl

/-- The numbers of other instructions are all the fields that they use. -/
theorem alike_of_numbers (hconst : i.opcode ≠ .const) (hopcode : i.opcode = j.opcode)
    (h : i.numbers = j.numbers) : i.Alike j := by
  rcases i with ⟨opcode, width, a, b, c⟩
  rcases j with ⟨opcode', width', a', b', c'⟩
  dsimp only at hconst hopcode
  subst hopcode
  refine ⟨rfl, ?_, ?_, ?_, ?_⟩ <;>
    cases opcode <;>
    simp_all [numbers, Opcode.usesWidth, Opcode.usesA, Opcode.usesB, Opcode.usesC,
      ← UInt16.toNat_inj]

/-- Instructions that show the same fields are alike. -/
theorem alike_of_shown (hopcode : i.opcode = j.opcode) (hnumbers : i.numbers = j.numbers)
    (h : i.shownImmediate ++ '\n' :: rest = j.shownImmediate ++ '\n' :: rest') :
    i.Alike j ∧ rest = rest' := by
  by_cases hconst : i.opcode = .const
  · have hconst' : j.opcode = .const := hopcode.symm.trans hconst
    rcases immediate_eq_of_shown hconst hconst' h with ⟨himmediate, hrest⟩
    rcases operands_eq_of_immediate_eq himmediate with ⟨hb, hc⟩
    simp only [numbers, hconst, hconst', List.cons.injEq, and_true] at hnumbers
    rcases hnumbers with ⟨hwidth, ha⟩
    exact ⟨⟨hopcode, fun _ => UInt8.toNat_inj.mp hwidth, fun _ => UInt16.toNat_inj.mp ha,
      fun _ => hb, fun _ => hc⟩, hrest⟩
  · have hconst' : j.opcode ≠ .const := hopcode ▸ hconst
    rw [shownImmediate_of_ne hconst, shownImmediate_of_ne hconst'] at h
    exact ⟨alike_of_numbers hconst hopcode hnumbers, (List.cons.inj h).2⟩

/-- The text of an instruction tells its essence. -/
theorem eq_of_render_append
    (h : i.render.toList ++ '\n' :: rest = j.render.toList ++ '\n' :: rest') :
    i.essence = j.essence ∧ rest = rest' := by
  rw [toList_render, toList_render, List.append_assoc, List.append_assoc, List.append_assoc,
    List.append_assoc] at h
  rcases eq_of_append_of_stops Opcode.isUpper_of_mem_mnemonic Opcode.isUpper_of_mem_mnemonic
    (stops_fields i rest) (stops_fields j rest') h with ⟨hname, h⟩
  have hopcode : i.opcode = j.opcode := by
    have hread := congrArg Opcode.ofMnemonic? (String.toList_inj.mp hname)
    simpa using hread
  rw [← hopcode] at h
  rcases eq_of_marked_append Opcode.stops_mark i.length_numbers
    (j.length_numbers.trans (by rw [hopcode])) (stops_shownImmediate i rest)
    (stops_shownImmediate j rest') h with ⟨hnumbers, hafter⟩
  rw [essence_eq_iff]
  exact alike_of_shown hopcode hnumbers hafter

end Lines

end Instruction

/-! ## Frame layouts -/

/-- The characters of a slot. -/
def Slot.chars (s : Slot) : List Char :=
  digits s.offset.toNat ++ '+' :: digits s.size.toNat

/-- The characters behind the first slot, up to the end of the list. -/
def slotsTail (slots : List Slot) : List Char :=
  slots.flatMap (fun s => ", ".toList ++ s.chars) ++ [']']

section Layouts

variable {rest rest' : List Char}

/-- A slot is known from its text. -/
theorem Slot.eq_of_chars_append {s s' : Slot} (hrest : Stops Char.isDigit rest)
    (hrest' : Stops Char.isDigit rest') (h : s.chars ++ rest = s'.chars ++ rest') :
    s = s' ∧ rest = rest' := by
  simp only [chars, List.append_assoc, List.cons_append] at h
  have hplus : ∀ text, Stops Char.isDigit ('+' :: text) := fun _ => rfl
  rcases eq_of_digits_append (hplus _) (hplus _) h with ⟨hoffset, hbehind⟩
  rcases eq_of_digits_append hrest hrest' (List.cons.inj hbehind).2 with ⟨hsize, hsame⟩
  have hslot : s = s' := by
    rcases s with ⟨offset, size⟩
    rcases s' with ⟨offset', size'⟩
    exact Slot.mk.injEq .. ▸ ⟨UInt32.toNat_inj.mp hoffset, UInt32.toNat_inj.mp hsize⟩
  exact ⟨hslot, hsame⟩

theorem slotsTail_cons (s : Slot) (slots : List Slot) :
    slotsTail (s :: slots) = ',' :: ' ' :: (s.chars ++ slotsTail slots) := by
  simp [slotsTail]

theorem stops_slotsTail (slots : List Slot) (rest : List Char) :
    Stops Char.isDigit (slotsTail slots ++ rest) := by
  cases slots with
  | nil => exact rfl
  | cons s slots => rw [slotsTail_cons]; exact rfl

/-- The slots behind the first one are known from their text. -/
theorem eq_of_slotsTail_append {slots slots' : List Slot}
    (h : slotsTail slots ++ rest = slotsTail slots' ++ rest') :
    slots = slots' ∧ rest = rest' := by
  induction slots generalizing slots' with
  | nil =>
      cases slots' with
      | nil => exact ⟨rfl, (List.cons.inj h).2⟩
      | cons s' slots' =>
          rw [slotsTail_cons] at h
          exact absurd (List.cons.inj h).1 (by decide)
  | cons s slots ih =>
      cases slots' with
      | nil =>
          rw [slotsTail_cons] at h
          exact absurd (List.cons.inj h).1 (by decide)
      | cons s' slots' =>
          simp only [slotsTail_cons, List.cons_append, List.append_assoc, List.cons.injEq,
            true_and] at h
          rcases Slot.eq_of_chars_append (stops_slotsTail ..) (stops_slotsTail ..) h with
            ⟨rfl, hbehind⟩
          rcases ih hbehind with ⟨rfl, hsame⟩
          exact ⟨rfl, hsame⟩

end Layouts

namespace CommandLine

section Texts

variable {rest rest' : List Char}

@[simp]
theorem toList_showSlots_nil : (showSlots []).toList = ['[', ']'] := by decide

/-- What follows the first part of a separated text. -/
theorem intercalate_cons (separator part : List Char) (parts : List (List Char)) :
    separator.intercalate (part :: parts) = part ++ parts.flatMap (separator ++ ·) := by
  induction parts generalizing part with
  | nil => simp
  | cons next parts ih =>
      rw [List.intercalate_cons_cons, ih, List.flatMap_cons, List.append_assoc,
        List.append_assoc]

theorem toList_showSlots_cons (s : Slot) (slots : List Slot) :
    (showSlots (s :: slots)).toList = '[' :: (s.chars ++ slotsTail slots) := by
  have hword : ∀ x : UInt32, (toString x).toList = digits x.toNat := fun x => toList_toString _
  have hplus : (toString "+").toList = ['+'] := rfl
  have hslot : (String.toList ∘ fun s : Slot => s!"{s.offset}+{s.size}") = Slot.chars := by
    funext s
    simp [Slot.chars, hword, hplus]
  rw [showSlots, String.toList_append, String.toList_append, String.toList_intercalate,
    List.map_map, hslot, List.map_cons, intercalate_cons, List.flatMap_map, slotsTail]
  simp

/-- An empty list of slots is seen from its text. -/
theorem showSlots_cons_append_ne (s : Slot) (slots : List Slot) :
    (showSlots (s :: slots)).toList ++ rest ≠ (showSlots []).toList ++ rest' := by
  intro h
  simp only [toList_showSlots_cons, toList_showSlots_nil, Slot.chars, List.cons_append,
    List.append_assoc, List.cons.injEq, true_and] at h
  exact digits_append_ne (by exact rfl) h

/-- A list of slots is known from its text. -/
theorem eq_of_showSlots_append {slots slots' : List Slot}
    (h : (showSlots slots).toList ++ rest = (showSlots slots').toList ++ rest') :
    slots = slots' ∧ rest = rest' := by
  cases slots with
  | nil =>
      cases slots' with
      | nil => exact ⟨rfl, List.append_cancel_left h⟩
      | cons s' slots' => exact absurd h.symm (showSlots_cons_append_ne s' slots')
  | cons s slots =>
      cases slots' with
      | nil => exact absurd h (showSlots_cons_append_ne s slots)
      | cons s' slots' =>
          simp only [toList_showSlots_cons, List.cons_append, List.append_assoc, List.cons.injEq,
            true_and] at h
          rcases Slot.eq_of_chars_append (stops_slotsTail ..) (stops_slotsTail ..) h with
            ⟨rfl, hbehind⟩
          rcases eq_of_slotsTail_append hbehind with ⟨rfl, hsame⟩
          exact ⟨rfl, hsame⟩

/-- The text of a frame layout, part by part. -/
theorem toList_showDescriptor (index : Nat) (d : Descriptor) :
    (showDescriptor index d).toList =
      "fn ".toList ++ (digits index ++ (": size ".toList ++ (digits d.size.toNat ++
        (", inputs ".toList ++ ((showSlots d.inputs).toList ++ (" (".toList ++
          (digits d.inputSize ++ (" bytes), outputs ".toList ++
            ((showSlots d.outputs).toList ++ (" (".toList ++
              (digits d.outputSize ++ " bytes)".toList))))))))))) := by
  have hword : ∀ x : UInt32, (toString x).toList = digits x.toNat := fun x => toList_toString _
  have hstring : ∀ s : String, toString s = s := fun _ => rfl
  simp only [showDescriptor, hstring, hword, toList_toString, String.toList_append,
    List.append_assoc]

/-- A frame layout is known from its line. -/
theorem eq_of_showDescriptor_append {index : Nat} {d d' : Descriptor}
    (h : (showDescriptor index d).toList ++ rest = (showDescriptor index d').toList ++ rest') :
    d = d' ∧ rest = rest' := by
  simp only [toList_showDescriptor, List.append_assoc] at h
  -- the index is the same on both sides; the total sizes tell nothing new
  have hsize := List.append_cancel_left (List.append_cancel_left (List.append_cancel_left h))
  rcases eq_of_digits_append (by exact rfl) (by exact rfl) hsize with ⟨hsize, h⟩
  rcases eq_of_showSlots_append (List.append_cancel_left h) with ⟨hinputs, h⟩
  rcases eq_of_digits_append (by exact rfl) (by exact rfl) (List.append_cancel_left h) with
    ⟨-, h⟩
  rcases eq_of_showSlots_append (List.append_cancel_left h) with ⟨houtputs, h⟩
  rcases eq_of_digits_append (by exact rfl) (by exact rfl) (List.append_cancel_left h) with
    ⟨-, h⟩
  have hsame : d = d' := by
    rcases d with ⟨size, inputs, outputs⟩
    rcases d' with ⟨size', inputs', outputs'⟩
    exact Descriptor.mk.injEq .. ▸ ⟨UInt32.toNat_inj.mp hsize, hinputs, houtputs⟩
  exact ⟨hsame, List.append_cancel_left h⟩

/-! ## Programs -/

/-- The lines of code from a position on. -/
def codeLines (position : Nat) (code : List Instruction) : List String :=
  (code.zipIdx position).map fun (i, position) => showInstruction position i

/-- The lines of functions from an index on. -/
def routineLines (index : Nat) (routines : List Routine) : List String :=
  (routines.zipIdx index).flatMap fun (f, index) => showRoutine index f

theorem codeLines_cons (position : Nat) (i : Instruction) (code : List Instruction) :
    codeLines position (i :: code) =
      showInstruction position i :: codeLines (position + 1) code := rfl

theorem routineLines_cons (index : Nat) (f : Routine) (routines : List Routine) :
    routineLines index (f :: routines) =
      showDescriptor index f.descriptor ::
        (codeLines 0 f.code.toList ++ routineLines (index + 1) routines) := rfl

/-- The line of an instruction starts with its position. -/
theorem toList_showInstruction (position : Nat) (i : Instruction) :
    (showInstruction position i).toList =
      ' ' :: ' ' :: ((fourDigits position ++ "  ").toList ++ i.render.toList) := by
  simp [showInstruction]

/-- A line of code is told from a line that is not indented. -/
theorem codeLines_cons_append_ne {position : Nat} (i : Instruction) (code : List Instruction)
    (hrest' : Stops (· == ' ') rest') :
    (printed (codeLines position (i :: code))).toList ++ rest ≠
      (printed (codeLines position [])).toList ++ rest' := by
  rintro rfl
  rw [codeLines_cons, toList_printed_cons, toList_showInstruction] at hrest'
  exact absurd hrest' (by simp [Stops])

/-- The code of a function ends where a line is not indented. -/
theorem eq_of_codeLines_append {position : Nat} {code code' : List Instruction}
    (hrest : Stops (· == ' ') rest) (hrest' : Stops (· == ' ') rest')
    (h : (printed (codeLines position code)).toList ++ rest =
      (printed (codeLines position code')).toList ++ rest') :
    code.map Instruction.essence = code'.map Instruction.essence ∧ rest = rest' := by
  induction code generalizing position code' with
  | nil =>
      cases code' with
      | nil => exact ⟨rfl, List.append_cancel_left h⟩
      | cons i' code' => exact absurd h.symm (codeLines_cons_append_ne i' code' hrest)
  | cons i code ih =>
      cases code' with
      | nil => exact absurd h (codeLines_cons_append_ne i code hrest')
      | cons i' code' =>
          simp only [codeLines_cons, toList_printed_cons, toList_showInstruction,
            List.cons_append, List.append_assoc, List.cons.injEq, true_and] at h
          rcases Instruction.eq_of_render_append (List.append_cancel_left h) with
            ⟨hessence, hbehind⟩
          rcases ih hbehind with ⟨hcode, hsame⟩
          rw [List.map_cons, List.map_cons, hessence, hcode]
          exact ⟨rfl, hsame⟩

/-- The line of a frame layout is not indented. -/
theorem stops_routineLines (index : Nat) (routines : List Routine) :
    Stops (· == ' ') (printed (routineLines index routines)).toList := by
  cases routines with
  | nil => exact True.intro
  | cons f routines =>
      rw [routineLines_cons, toList_printed_cons, toList_showDescriptor]
      exact rfl

/-- The end of a listing is seen from its text. -/
theorem routineLines_cons_ne {index : Nat} (f : Routine) (routines : List Routine) :
    (printed (routineLines index (f :: routines))).toList ≠
      (printed (routineLines index [])).toList := by
  intro h
  rw [routineLines_cons, toList_printed_cons, toList_showDescriptor] at h
  cases h

/-- Functions are known from their lines, except for what their code does not use. -/
theorem eq_of_routineLines_eq {index : Nat} {routines routines' : List Routine}
    (h : (printed (routineLines index routines)).toList =
      (printed (routineLines index routines')).toList) :
    routines.map Routine.essence = routines'.map Routine.essence := by
  induction routines generalizing index routines' with
  | nil =>
      cases routines' with
      | nil => rfl
      | cons f' routines' => exact absurd h.symm (routineLines_cons_ne f' routines')
  | cons f routines ih =>
      cases routines' with
      | nil => exact absurd h (routineLines_cons_ne f routines)
      | cons f' routines' =>
          simp only [routineLines_cons, toList_printed_cons, toList_printed_append] at h
          rcases eq_of_showDescriptor_append h with ⟨hdescriptor, hbehind⟩
          rcases eq_of_codeLines_append (stops_routineLines ..) (stops_routineLines ..)
            (List.cons.inj hbehind).2 with ⟨hcode, hmore⟩
          have hfirst : f.essence = f'.essence := by
            rw [Routine.essence, Routine.essence, hdescriptor, Routine.mk.injEq,
              ← Array.toList_inj, Array.toList_map, Array.toList_map]
            exact ⟨rfl, hcode⟩
          rw [List.map_cons, List.map_cons, hfirst, ih hmore]

/-- The listing of a program is that of its essence. -/
theorem listing_essence (p : Program) : listing p.essence = listing p := by
  have hroutine (index : Nat) (f : Routine) :
      showRoutine index f.essence = showRoutine index f := by
    simp only [showRoutine, Routine.essence, Array.toList_map, List.zipIdx_map, List.map_map]
    simp [Function.comp_def, showInstruction]
  simp only [listing, Program.essence, Array.toList_map, List.zipIdx_map, List.flatMap_map]
  simp [hroutine]

/-- A program is known from the text of its listing, except for what its code does not
use. -/
theorem listing_eq_iff {p q : Program} :
    printed (listing p) = printed (listing q) ↔ p.essence = q.essence := by
  constructor
  · intro h
    have hroutines : p.routines.toList.map Routine.essence =
        q.routines.toList.map Routine.essence := eq_of_routineLines_eq (congrArg String.toList h)
    rw [Program.essence, Program.essence, Program.mk.injEq, ← Array.toList_inj,
      Array.toList_map, Array.toList_map]
    exact hroutines
  · intro h
    rw [← listing_essence p, h, listing_essence]

end Texts

/-- Programs with the same listing are alike in everything that their opcodes use, and
every invocation on any machine, with any budget, brings the same reply from both. -/
theorem listing_determines {p q : Program} (h : printed (listing p) = printed (listing q)) :
    p.Alike q ∧
      ∀ (m : Machine) (function : UInt16) (inputs : List Bytes) (interpreter : Interpreter),
        Option.Rel Reply.Agrees (m.invoke p (Interpreter.run p) function inputs interpreter)
          (m.invoke q (Interpreter.run q) function inputs interpreter) := by
  have hessence := listing_eq_iff.mp h
  exact ⟨Program.essence_eq_iff.mp hessence, Machine.invoke_agrees hessence⟩

/-- The sample program with values in some fields that are not used. -/
def relayWithRemains : Program :=
  ⟨#[⟨⟨4, [⟨0, 1⟩], [⟨1, 1⟩]⟩, #[⟨.callback, 7, 1, 0, 1⟩, ⟨.ret, 0, 3, 2, 1⟩]⟩,
    ⟨⟨3, [⟨0, 1⟩], [⟨2, 1⟩]⟩, #[⟨.call, 4, 2, 0, 2⟩, ⟨.ret, 0, 0, 0, 0⟩]⟩,
    ⟨⟨2, [⟨0, 1⟩], [⟨1, 1⟩]⟩, #[⟨.copy, 9, 1, 0, 1⟩, ⟨.ret, 1, 0, 0, 8⟩]⟩]⟩

/-- Remains in unused fields are not listed and have no effect. -/
theorem listing_determines_relay :
    let reply := (Machine.ofConfig ⟨24, 6, .release⟩).invoke relay (Interpreter.run relay) 0
      [[42]] {}
    let reply' := (Machine.ofConfig ⟨24, 6, .release⟩).invoke relayWithRemains
      (Interpreter.run relayWithRemains) 0 [[42]] {}
    relay ≠ relayWithRemains ∧
      printed (listing relay) = printed (listing relayWithRemains) ∧
      relay.Alike relayWithRemains ∧
      reply.map Reply.outcome = some (.ok [[42]]) ∧ Option.Rel Reply.Agrees reply reply' := by
  have hlisting : printed (listing relay) = printed (listing relayWithRemains) :=
    listing_eq_iff.mpr (by decide +kernel)
  have hboth := listing_determines hlisting
  exact ⟨by decide, hlisting, hboth.1, by decide +kernel, hboth.2 _ 0 [[42]] {}⟩

end CommandLine
end FrameMachine
