import FrameMachine.Proofs.Windows

/-!
# Planning inside a window

What an instruction is planned to do depends only on the instruction, its place,
and the size and the bytes of the window in which it runs.  For a CALL and a
CALLBACK that is an equation; all other instructions are compared in two windows
that hold the same bytes, and their plans are then alike: they are the same
except that each stores into its own window.

Main results:

- Theorem `Plan.alike`: a plain instruction is planned alike in two windows that
  hold the same bytes.
- Theorems `Plan.ofInstruction_call` and `Plan.ofInstruction_callback`: what a
  CALL and a CALLBACK pass to their callee.
-/

namespace FrameMachine

/-! ## Kinds of faults -/

/-- Whether a fault tells of an instruction and its frame, and of nothing else. -/
def Fault.isLocal : Fault → Bool
  | .unknownFunction .. | .endOfCode _ | .outOfFrame .. | .invalidWidth ..
  | .divisionByZero _ | .trap .. | .fuelExhausted _ => true
  | .slotOutOfFrame _ | .memory _ | .exhausted .. | .callbackRejected .. | .callbackFault ..
  | .badReturn _ | .noActiveFunction _ | .desync _ => false

/-- Whether an instruction hands the control to another frame. -/
def Opcode.transfers : Opcode → Bool
  | .call | .callback | .ret => true
  | _ => false

/-- Two sites, each in its own machine, are at one place of the program, and their
windows lie inside the arena and hold the same bytes. -/
structure Site.Agree (site site' : Site) (m m' : Machine) : Prop where
  location_eq : site.location = site'.location
  bytes : Window.SameBytes site.window site'.window m.arena m'.arena
  inside : site.window.Inside m.arena
  inside' : site'.window.Inside m'.arena

theorem Site.Agree.refl {site : Site} {m : Machine} (h : site.window.Inside m.arena) :
    site.Agree site m m :=
  ⟨rfl, .refl _ _, h, h⟩

namespace Plan

/-! ## Plain instructions -/

/-- Two plans are the same, or the same fault of one instruction, except that each
stores into its own window. -/
inductive Alike (w w' : Window) : Except Fault Plan → Except Fault Plan → Prop
  | fault {cause : Fault} (h : cause.isLocal = true) : Alike w w' (.error cause) (.error cause)
  | next : Alike w w' (.ok .next) (.ok .next)
  | goto (target : UInt16) : Alike w w' (.ok (.goto target)) (.ok (.goto target))
  | store {offset : Nat} {bytes : Bytes} (h : offset + bytes.length ≤ w.size) :
      Alike w w' (.ok (.store ⟨w.base + offset, bytes.length⟩ bytes))
        (.ok (.store ⟨w'.base + offset, bytes.length⟩ bytes))

section Plain

variable {m m' : Machine} {site site' : Site}

/-- Operands that fit are the same bytes in both windows, and the others are the
same fault. -/
theorem operand_congr (h : site.Agree site' m m') (offset length : Nat) :
    site.operand m offset length = site'.operand m' offset length := by
  rw [Site.operand_eq h.inside, Site.operand_eq h.inside', ← h.bytes.size_eq, ← h.location_eq]
  split
  · rename_i hfit
    rw [h.bytes.part_eq hfit]
  · rfl

theorem word_congr (h : site.Agree site' m m') (offset : UInt16) :
    site.word m offset = site'.word m' offset := by
  unfold Site.word
  rw [operand_congr h]

theorem flag_congr (h : site.Agree site' m m') (offset : UInt16) :
    site.flag m offset = site'.flag m' offset := by
  unfold Site.flag
  rw [operand_congr h]

/-- An operand is read, or the fault of reading it is local. -/
theorem operand_cases (h : site.window.Inside m.arena) (offset length : Nat) :
    (∃ bytes, site.operand m offset length = .ok bytes) ∨
      ∃ cause, site.operand m offset length = .error cause ∧ cause.isLocal = true := by
  rw [Site.operand_eq h]
  split
  · exact Or.inl ⟨_, rfl⟩
  · exact Or.inr ⟨_, rfl, rfl⟩

theorem word_cases (h : site.window.Inside m.arena) (offset : UInt16) :
    (∃ x, site.word m offset = .ok x) ∨
      ∃ cause, site.word m offset = .error cause ∧ cause.isLocal = true := by
  unfold Site.word
  rcases operand_cases h offset.toNat 4 with ⟨bytes, hbytes⟩ | ⟨cause, hcause, hlocal⟩
  · exact Or.inl ⟨_, by rw [hbytes]; rfl⟩
  · exact Or.inr ⟨cause, by rw [hcause]; rfl, hlocal⟩

theorem flag_cases (h : site.window.Inside m.arena) (offset : UInt16) :
    (∃ b, site.flag m offset = .ok b) ∨
      ∃ cause, site.flag m offset = .error cause ∧ cause.isLocal = true := by
  unfold Site.flag
  rcases operand_cases h offset.toNat 1 with ⟨bytes, hbytes⟩ | ⟨cause, hcause, hlocal⟩
  · exact Or.inl ⟨_, by rw [hbytes]; rfl⟩
  · exact Or.inr ⟨cause, by rw [hcause]; rfl, hlocal⟩

/-- A result is stored alike in two windows. -/
theorem alike_storing (h : site.Agree site' m m') (destination : UInt16) (bytes : Bytes) :
    Alike site.window site'.window (storing m site destination bytes)
      (storing m' site' destination bytes) := by
  unfold storing
  rw [Site.resolve_eq h.inside, Site.resolve_eq h.inside', ← h.bytes.size_eq, ← h.location_eq]
  by_cases hfit : destination.toNat + bytes.length ≤ site.window.size
  · rw [if_pos hfit, if_pos hfit]
    simp only [bind, Except.bind, Arena.check, if_pos (Window.contains_eq h.inside hfit),
      if_pos (Window.contains_eq h.inside' (h.bytes.size_eq ▸ hfit))]
    exact .store hfit
  · rw [if_neg hfit, if_neg hfit]
    exact .fault rfl

theorem alike_combining (h : site.Agree site' m m') (i : Instruction)
    (result : Int32 → Int32 → Bytes) :
    Alike site.window site'.window (combining m site i result)
      (combining m' site' i result) := by
  unfold combining
  rw [word_congr h, word_congr h]
  rcases word_cases h.inside' i.b with ⟨x, hx⟩ | ⟨cause, hcause, hlocal⟩
  · rw [hx]
    rcases word_cases h.inside' i.c with ⟨y, hy⟩ | ⟨cause, hcause, hlocal⟩
    · rw [hy]
      exact alike_storing h i.a (result x y)
    · rw [hcause]
      exact .fault hlocal
  · rw [hcause]
    exact .fault hlocal

theorem alike_jumpingIf (h : site.Agree site' m m') (wanted : Bool) (i : Instruction) :
    Alike site.window site'.window (jumpingIf wanted m site i)
      (jumpingIf wanted m' site' i) := by
  unfold jumpingIf
  rw [flag_congr h]
  rcases flag_cases h.inside' i.a with ⟨b, hb⟩ | ⟨cause, hcause, hlocal⟩
  · rw [hb]
    by_cases hwanted : b = wanted
    · simp only [bind, Except.bind, pure, Except.pure, if_pos hwanted]
      exact .goto i.b
    · simp only [bind, Except.bind, pure, Except.pure, if_neg hwanted]
      exact .next
  · rw [hcause]
    exact .fault hlocal

/-- A COPY resolves both of its ranges before it reads the source. -/
theorem alike_copy (program program' : Program) (h : site.Agree site' m m') {i : Instruction}
    (hopcode : i.opcode = .copy) :
    Alike site.window site'.window (ofInstruction program m site i)
      (ofInstruction program' m' site' i) := by
  simp only [ofInstruction, hopcode]
  rw [Site.resolve_eq h.inside, Site.resolve_eq h.inside, Site.resolve_eq h.inside',
    Site.resolve_eq h.inside', ← h.bytes.size_eq, ← h.location_eq]
  by_cases hsource : i.b.toNat + i.c.toNat ≤ site.window.size
  · by_cases htarget : i.a.toNat + i.c.toNat ≤ site.window.size
    · have hlength := Window.length_part h.inside hsource
      have hplan : Alike site.window site'.window
          (.ok (.store ⟨_, (site.window.part m.arena i.b.toNat i.c.toNat).length⟩ _))
          (.ok (.store ⟨_, (site.window.part m.arena i.b.toNat i.c.toNat).length⟩ _)) :=
        .store (by omega : i.a.toNat + _ ≤ _)
      have hsource' := hsource
      have htarget' := htarget
      rw [h.bytes.size_eq] at hsource' htarget'
      rw [hlength] at hplan
      simp only [if_pos hsource, if_pos htarget, bind, Except.bind,
        Machine.bytesAt_eq h.inside hsource, Machine.bytesAt_eq h.inside' hsource',
        Arena.check, if_pos (Window.contains_eq h.inside htarget),
        if_pos (Window.contains_eq h.inside' htarget'), ← h.bytes.part_eq hsource]
      exact hplan
    · rw [if_pos hsource, if_neg htarget, if_pos hsource, if_neg htarget]
      exact .fault rfl
  · rw [if_neg hsource, if_neg hsource]
    exact .fault rfl

/-- A plain instruction is planned alike in two windows that hold the same bytes,
whatever the programs. -/
theorem alike (program program' : Program) (h : site.Agree site' m m') {i : Instruction}
    (hplain : i.opcode.transfers = false) :
    Alike site.window site'.window (ofInstruction program m site i)
      (ofInstruction program' m' site' i) := by
  cases hopcode : i.opcode with
  | call | callback | ret => simp [hopcode, Opcode.transfers] at hplain
  | copy => exact alike_copy program program' h hopcode
  | const =>
      simp only [ofInstruction, hopcode]
      split
      · exact alike_storing h i.a _
      · rw [h.location_eq]
        exact .fault rfl
  | div =>
      simp only [ofInstruction, hopcode]
      rw [word_congr h]
      rcases word_cases h.inside' i.c with ⟨divisor, hdivisor⟩ | ⟨cause, hcause, hlocal⟩
      · rw [hdivisor]
        by_cases hzero : divisor = 0
        · simp only [bind, Except.bind, if_pos hzero, h.location_eq]
          exact .fault rfl
        · simp only [bind, Except.bind, if_neg hzero]
          exact alike_combining h i _
      · rw [hcause]
        exact .fault hlocal
  | add | sub | mul | eq | lt =>
      simp only [ofInstruction, hopcode]
      exact alike_combining h i _
  | jz | jnz =>
      simp only [ofInstruction, hopcode]
      exact alike_jumpingIf h _ i
  | jmp =>
      simp only [ofInstruction, hopcode]
      exact .goto i.a
  | nop =>
      simp only [ofInstruction, hopcode]
      exact .next
  | trap =>
      simp only [ofInstruction, hopcode, h.location_eq]
      exact .fault rfl

end Plain

/-! ## Calls -/

section Calls

variable {program : Program} {m : Machine} {site : Site} {i : Instruction} {callee : Routine}

/-- A CALL passes the ranges of its operands, unless one is outside the window. -/
theorem ofInstruction_call (h : site.window.Inside m.arena) (hopcode : i.opcode = .call)
    (hcallee : program.routine? i.a = some callee) :
    ofInstruction program m site i =
      match site.outside? (backToBack i.b.toNat callee.descriptor.inputs) with
      | some cause => .error cause
      | none => .ok (.call callee
          (site.ranges (backToBack i.b.toNat callee.descriptor.inputs))) := by
  simp only [ofInstruction, hopcode, Site.callee, hcallee]
  simp only [bind, Except.bind]
  rw [Site.mapM_ranges fun range => Site.resolve_eq h]
  cases site.outside? (backToBack i.b.toNat callee.descriptor.inputs) <;> rfl

/-- A CALLBACK passes the bytes of its operands, unless one is outside the window. -/
theorem ofInstruction_callback (h : site.window.Inside m.arena) (hopcode : i.opcode = .callback)
    (hcallee : program.routine? i.a = some callee) :
    ofInstruction program m site i =
      match site.outside? (backToBack i.b.toNat callee.descriptor.inputs) with
      | some cause => .error cause
      | none => .ok (.callback
          (site.parts m (backToBack i.b.toNat callee.descriptor.inputs))) := by
  simp only [ofInstruction, hopcode, Site.callee, hcallee]
  simp only [bind, Except.bind]
  rw [Site.mapM_ranges fun range => Site.operand_eq h]
  cases site.outside? (backToBack i.b.toNat callee.descriptor.inputs) <;> rfl

/-- A call of a function that is not in the program is a fault. -/
theorem ofInstruction_unknown (hopcode : i.opcode = .call ∨ i.opcode = .callback)
    (hcallee : program.routine? i.a = none) :
    ofInstruction program m site i = .error (.unknownFunction site.location i.a) := by
  rcases hopcode with hopcode | hopcode <;>
    simp only [ofInstruction, hopcode, Site.callee, hcallee] <;> rfl

end Calls
end Plan
end FrameMachine
