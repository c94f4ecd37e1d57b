import FrameMachine.Proofs.Runs

/-!
# What matters of a program

An opcode uses some of the fields of its instruction and takes no notice of the
others.  The *essence* of an instruction has zeros in the fields that its opcode does
not use.  A program and its essence run side by side: they do the same to the arena
and the call stack, and what they note differs in fields that no line of the journal
shows.

Main results:

- Theorem `Program.essence_eq_iff`: programs have the same essence exactly if they are
  alike in everything that their opcodes use.
- Theorem `Plan.ofInstruction_essence`: planning looks at no other field.
- Theorem `Interpreter.step_essence`: a program and its essence step alike.
- Theorem `Machine.invoke_agrees`: programs with the same essence bring the same
  replies.
-/

namespace FrameMachine

/-! ## Fields that are used -/

namespace Opcode

/-- Whether the width byte means anything. -/
def usesWidth : Opcode → Bool
  | .const => true
  | _ => false

/-- Whether operand `a` means anything. -/
def usesA : Opcode → Bool
  | .ret | .nop => false
  | _ => true

/-- Whether operand `b` means anything. -/
def usesB : Opcode → Bool
  | .jmp | .trap | .ret | .nop => false
  | _ => true

/-- Whether operand `c` means anything. -/
def usesC : Opcode → Bool
  | .jz | .jnz | .jmp | .trap | .ret | .nop => false
  | _ => true

theorem usesA_of_usesC {op : Opcode} (h : op.usesC = true) : op.usesA = true := by
  revert h
  cases op <;> decide

end Opcode

/-- Two instructions have the same opcode and agree in every field that it uses. -/
structure Instruction.Alike (i j : Instruction) : Prop where
  opcode : i.opcode = j.opcode
  width : i.opcode.usesWidth = true → i.width = j.width
  a : i.opcode.usesA = true → i.a = j.a
  b : i.opcode.usesB = true → i.b = j.b
  c : i.opcode.usesC = true → i.c = j.c

/-- Two functions have the same layout, and their code is alike instruction by
instruction. -/
structure Routine.Alike (f g : Routine) : Prop where
  descriptor : f.descriptor = g.descriptor
  size : f.code.size = g.code.size
  instruction : ∀ (position : Nat) (hf : position < f.code.size) (hg : position < g.code.size),
    f.code[position].Alike g.code[position]

/-- Two programs are alike function by function. -/
structure Program.Alike (p q : Program) : Prop where
  size : p.routines.size = q.routines.size
  routine : ∀ (index : Nat) (hp : index < p.routines.size) (hq : index < q.routines.size),
    p.routines[index].Alike q.routines[index]

/-- The instruction with zeros in the fields that its opcode does not use. -/
def Instruction.essence (i : Instruction) : Instruction where
  opcode := i.opcode
  width := if i.opcode.usesWidth then i.width else 0
  a := if i.opcode.usesA then i.a else 0
  b := if i.opcode.usesB then i.b else 0
  c := if i.opcode.usesC then i.c else 0

/-- The function with the essence of its instructions. -/
def Routine.essence (f : Routine) : Routine where
  descriptor := f.descriptor
  code := f.code.map Instruction.essence

/-- The program with the essence of its functions. -/
def Program.essence (p : Program) : Program where
  routines := p.routines.map Routine.essence

section Likeness

/-- Only fields that are used have to agree. -/
theorem used_eq_iff {α : Type} {uses : Bool} {x y unused : α} :
    (if uses then x else unused) = (if uses then y else unused) ↔ (uses = true → x = y) := by
  cases uses <;> simp

/-- Two arrays look the same if they do so place by place. -/
theorem array_map_eq_iff {α β : Type} {look : α → β} {xs ys : Array α} :
    xs.map look = ys.map look ↔
      xs.size = ys.size ∧ ∀ (k : Nat) (hx : k < xs.size) (hy : k < ys.size),
        look xs[k] = look ys[k] := by
  constructor
  · intro h
    have hsize := congrArg Array.size h
    simp only [Array.size_map] at hsize
    refine ⟨hsize, fun k hx hy => ?_⟩
    have hplace := congrArg (fun zs : Array β => zs[k]?) h
    simpa only [Array.getElem?_map, Array.getElem?_eq_getElem hx, Array.getElem?_eq_getElem hy,
      Option.map_some, Option.some.injEq] using hplace
  · rintro ⟨hsize, hplaces⟩
    apply Array.ext
    · simpa only [Array.size_map] using hsize
    · intro k hx hy
      rw [Array.getElem_map, Array.getElem_map]
      exact hplaces k _ _

/-- Instructions have the same essence exactly if they are alike. -/
theorem Instruction.essence_eq_iff {i j : Instruction} : i.essence = j.essence ↔ i.Alike j := by
  rcases i with ⟨opcode, width, a, b, c⟩
  rcases j with ⟨opcode', width', a', b', c'⟩
  simp only [essence, Instruction.mk.injEq]
  constructor
  · rintro ⟨rfl, hwidth, ha, hb, hc⟩
    exact ⟨rfl, used_eq_iff.mp hwidth, used_eq_iff.mp ha, used_eq_iff.mp hb, used_eq_iff.mp hc⟩
  · rintro ⟨hopcode, hwidth, ha, hb, hc⟩
    dsimp only at hopcode
    subst hopcode
    exact ⟨rfl, used_eq_iff.mpr hwidth, used_eq_iff.mpr ha, used_eq_iff.mpr hb,
      used_eq_iff.mpr hc⟩

theorem Routine.essence_eq_iff {f g : Routine} : f.essence = g.essence ↔ f.Alike g := by
  rw [essence, essence, Routine.mk.injEq, array_map_eq_iff]
  constructor
  · rintro ⟨hdescriptor, hsize, hcode⟩
    exact ⟨hdescriptor, hsize, fun k hf hg => Instruction.essence_eq_iff.mp (hcode k hf hg)⟩
  · rintro ⟨hdescriptor, hsize, hcode⟩
    exact ⟨hdescriptor, hsize, fun k hf hg => Instruction.essence_eq_iff.mpr (hcode k hf hg)⟩

/-- Programs have the same essence exactly if they are alike. -/
theorem Program.essence_eq_iff {p q : Program} : p.essence = q.essence ↔ p.Alike q := by
  rw [essence, essence, Program.mk.injEq, array_map_eq_iff]
  constructor
  · rintro ⟨hsize, hroutines⟩
    exact ⟨hsize, fun k hp hq => Routine.essence_eq_iff.mp (hroutines k hp hq)⟩
  · rintro ⟨hsize, hroutines⟩
    exact ⟨hsize, fun k hp hq => Routine.essence_eq_iff.mpr (hroutines k hp hq)⟩

end Likeness

/-! ## What is seen of an essence -/

namespace Instruction

@[simp]
theorem opcode_essence (i : Instruction) : i.essence.opcode = i.opcode := rfl

theorem a_essence {i : Instruction} (h : i.opcode.usesA = true) : i.essence.a = i.a :=
  if_pos h

theorem c_essence {i : Instruction} (h : i.opcode.usesC = true) : i.essence.c = i.c :=
  if_pos h

/-- No line of disassembly shows a field that is not used. -/
@[simp]
theorem render_essence (i : Instruction) : i.essence.render = i.render := by
  rcases i with ⟨opcode, width, a, b, c⟩
  cases opcode <;>
    simp only [render, immediate, essence, Opcode.usesWidth, Opcode.usesA, Opcode.usesB,
      Opcode.usesC, if_true]

end Instruction

@[simp]
theorem Routine.descriptor_essence (f : Routine) : f.essence.descriptor = f.descriptor := rfl

theorem Routine.code_essence (f : Routine) (position : Nat) :
    f.essence.code[position]? = f.code[position]?.map Instruction.essence :=
  Array.getElem?_map ..

@[simp]
theorem Program.routine?_essence (p : Program) (index : UInt16) :
    p.essence.routine? index = (p.routine? index).map Routine.essence :=
  Array.getElem?_map ..

/-- The event with the essence of the instruction that it shows. -/
def Event.essence : Event → Event
  | .executing frame site i => .executing frame site i.essence
  | e => e

@[simp]
theorem Event.level_essence (e : Event) : e.essence.level = e.level := by
  cases e <;> rfl

@[simp]
theorem Event.message_essence (e : Event) : e.essence.message = e.message := by
  cases e with
  | executing frame site i =>
      exact congrArg (s!"frame {frame} fn {site.function} @{site.position}: " ++ ·)
        i.render_essence
  | _ => rfl

@[simp]
theorem Event.line_essence (e : Event) : e.essence.line = e.line := by
  rw [line, line, level_essence, message_essence]

/-- The essence of a journal has the same lines. -/
@[simp]
theorem Journal.lines_essence (journal : Journal) (shown : Level) :
    Journal.lines (journal.map Event.essence) shown = journal.lines shown := by
  simp only [lines, Array.toList_map, List.filter_map, List.map_map, Function.comp_def,
    Event.level_essence, Event.line_essence]

/-! ## Machines -/

namespace Machine

/-- The machine with the essence of the instructions that its journal shows. -/
def essence (m : Machine) : Machine where
  arena := m.arena
  stack := m.stack
  reclaim := m.reclaim
  poisoned := m.poisoned
  journal := m.journal.map Event.essence

section Essence

variable (m : Machine)

@[simp]
theorem arena_essence : m.essence.arena = m.arena := rfl

@[simp]
theorem stack_essence : m.essence.stack = m.stack := rfl

@[simp]
theorem poisoned_essence : m.essence.poisoned = m.poisoned := rfl

@[simp]
theorem clearJournal_essence : m.essence.clearJournal = m.clearJournal := rfl

theorem essence_modifyStack (change : CallStack → CallStack) :
    (m.modifyStack change).essence = m.essence.modifyStack change := rfl

theorem essence_note (e : Event) : (m.note e).essence = m.essence.note e.essence := by
  simp only [essence, note, Array.map_push]

/-- Most events show no instruction. -/
theorem note_essence {e : Event} (h : e.essence = e) :
    m.essence.note e = (m.note e).essence := by
  rw [essence_note, h]

theorem essence_fail (cause : Fault) : (m.fail cause).essence = m.essence.fail cause := by
  simp only [essence, fail, Array.map_push, Event.essence]

theorem essence_releaseFrame (window : Window) :
    (m.releaseFrame window).essence = m.essence.releaseFrame window := by
  by_cases h : m.reclaim = .release ∧ window.stop = m.arena.stackPointer
  · have h' : m.essence.reclaim = .release ∧ window.stop = m.essence.arena.stackPointer := h
    rw [releaseFrame, releaseFrame, if_pos h, if_pos h']
    rfl
  · have h' : ¬(m.essence.reclaim = .release ∧ window.stop = m.essence.arena.stackPointer) := h
    rw [releaseFrame, releaseFrame, if_neg h, if_neg h']

theorem essence_framed (operator : UInt16) (size : UInt32) :
    (m.framed operator size).essence = m.essence.framed operator size := by
  simp only [essence, framed, Array.map_push]
  rfl

end Essence

/-! ## Actions -/

section Actions

variable {ε δ α β : Type}

/-- The result with the essence of the machine that is left behind. -/
def essenceAfter : EStateM.Result ε Machine α → EStateM.Result ε Machine α
  | .ok a m => .ok a m.essence
  | .error e m => .error e m.essence

/-- An action does to the essence of a machine what another one does to the machine. -/
def Mimics (act' act : Action ε α) : Prop :=
  ∀ m, act' m.essence = essenceAfter (act m)

theorem mimics_pure (a : α) : Mimics (pure a : Action ε α) (pure a) :=
  fun _ => rfl

theorem mimics_check (result : Except ε α) : Mimics (check result) (check result) := by
  intro m
  cases result <;> rfl

theorem mimics_adaptExcept {act' act : Action ε α} {rename : ε → δ} (h : Mimics act' act) :
    Mimics (act'.adaptExcept rename) (act.adaptExcept rename) := by
  intro m
  simp only [EStateM.adaptExcept]
  rw [h m]
  cases act m <;> rfl

theorem mimics_bind {act' act : Action ε α} {next' next : α → Action ε β}
    (hact : Mimics act' act) (hnext : ∀ a, Mimics (next' a) (next a)) :
    Mimics (act' >>= next') (act >>= next) := by
  intro m
  simp only [bind, EStateM.bind]
  rw [hact m]
  cases act m with
  | ok a m' => exact hnext a m'
  | error e m' => rfl

theorem mimics_writeBytes (offset : Nat) (bytes : Bytes) :
    Mimics (writeBytes offset bytes) (writeBytes offset bytes) := by
  intro m
  rw [writeBytes_eq, writeBytes_eq, arena_essence]
  by_cases h : m.arena.contains ⟨offset, bytes.length⟩ <;> simp only [h, if_true] <;> rfl

theorem mimics_copyBytes (source : Address) (target : Nat) :
    Mimics (copyBytes source target) (copyBytes source target) := by
  intro m
  rw [copyBytes_eq, copyBytes_eq, arena_essence]
  by_cases h : m.arena.contains source <;>
    by_cases h' : m.arena.contains ⟨target, source.length⟩ <;> simp only [h, h', if_true] <;> rfl

theorem mimics_writeInputs (window : Window) (inputs : List (Slot × Bytes)) :
    Mimics (writeInputs window inputs) (writeInputs window inputs) := by
  induction inputs with
  | nil => exact mimics_pure _
  | cons input rest ih =>
      refine mimics_bind (mimics_check _) fun range => ?_
      exact mimics_bind (mimics_writeBytes _ _) fun _ => ih

theorem mimics_pushFrame (operator : UInt16) (size : UInt32) :
    Mimics (pushFrame operator size) (pushFrame operator size) := by
  intro m
  have hshortage : m.essence.shortage size.toNat = m.shortage size.toNat := rfl
  rw [pushFrame_eq, pushFrame_eq, hshortage, ← essence_framed]
  cases m.shortage size.toNat <;> rfl

theorem mimics_guarded {act' act : Action Fault α} (h : Mimics act' act) :
    Mimics (guarded act') (guarded act) := by
  intro m
  unfold guarded
  rw [h m]
  cases act m with
  | ok a m' => rfl
  | error cause m' => simp only [essenceAfter, essence_fail]

end Actions

/-! ## The protocol -/

section Protocol

variable {p : Program}

theorem accept_essence (m : Machine) (function : UInt16) (inputs : List Bytes) :
    accept p.essence m.essence function inputs = accept p m function inputs := by
  unfold accept
  rw [Program.routine?_essence, poisoned_essence]
  cases p.routine? function <;> rfl

theorem mimics_begin (function : UInt16) (d : Descriptor) (inputs : List Bytes)
    (previous resumeAt : Nat) :
    Mimics (begin function d inputs previous resumeAt)
      (begin function d inputs previous resumeAt) := by
  intro m
  unfold begin
  rw [mimics_pushFrame]
  cases pushFrame function d.size m with
  | error need m' => rfl
  | ok window m' =>
      dsimp only [essenceAfter]
      rw [note_essence m' rfl, mimics_guarded (mimics_writeInputs _ _)]
      cases guarded (writeInputs window (d.inputs.zip inputs)) _ <;> rfl

theorem mimics_enter (function : UInt16) (inputs : List Bytes) :
    Mimics (enter p.essence function inputs) (enter p function inputs) := by
  intro m
  unfold enter
  rw [accept_essence]
  cases accept p m function inputs with
  | error reason => rfl
  | ok d => exact mimics_begin ..

/-- Outputs are read from the arena alone. -/
theorem readOutputs_essence (m : Machine) (window : Window) (slots : List Slot) :
    m.essence.readOutputs window slots = m.readOutputs window slots := rfl

theorem mimics_collect (call : Invocation) : Mimics (collect call) (collect call) := by
  intro m
  rw [collect_eq, collect_eq, stack_essence]
  by_cases hactive : m.stack.activeIndex = call.previous
  · rw [if_pos hactive, if_pos hactive]
    dsimp only
    rw [← essence_modifyStack, readOutputs_essence]
    cases readOutputs (m.modifyStack _) call.window call.descriptor.outputs with
    | error cause => rfl
    | ok outputs =>
        simp only [essenceAfter, essence_note, essence_releaseFrame]
        rfl
  · rw [if_neg hactive, if_neg hactive]
    rfl

theorem mimics_leave (call : Invocation) : Mimics (leave call) (leave call) :=
  mimics_guarded (mimics_collect call)

end Protocol
end Machine

/-! ## Plans -/

/-- The plan to call the essence of a function. -/
def Plan.essence : Plan → Plan
  | .call callee sources => .call callee.essence sources
  | plan => plan

/-- Whether a plan calls or invokes a function. -/
def Plan.calls : Plan → Bool
  | .call _ _ | .callback _ => true
  | _ => false

section Plans

variable {p : Program} {m : Machine} {site : Site} {i : Instruction} {plan : Plan}

theorem Site.callee_essence (index : UInt16) :
    site.callee p.essence index = (site.callee p index).map Routine.essence := by
  unfold callee
  rw [Program.routine?_essence]
  cases p.routine? index <;> rfl

/-- What follows a look at the machine may be compared value by value. -/
theorem bind_eq_map_bind {ε α β γ : Type} {x : Except ε α} {next : α → Except ε β}
    {next' : α → Except ε γ} {change : β → γ} (h : ∀ a, next' a = (next a).map change) :
    x >>= next' = (x >>= next).map change := by
  cases x with
  | error e => rfl
  | ok a => exact h a

namespace Plan

theorem storing_essence (destination : UInt16) (bytes : Bytes) :
    storing m.essence site destination bytes =
      (storing m site destination bytes).map Plan.essence :=
  bind_eq_map_bind fun _ => bind_eq_map_bind fun _ => rfl

theorem combining_essence (result : Int32 → Int32 → Bytes) :
    combining m.essence site i result = (combining m site i result).map Plan.essence :=
  bind_eq_map_bind fun _ => bind_eq_map_bind fun _ => storing_essence ..

theorem jumpingIf_essence (wanted : Bool) :
    jumpingIf wanted m.essence site i = (jumpingIf wanted m site i).map Plan.essence := by
  refine bind_eq_map_bind fun flag => ?_
  cases flag <;> cases wanted <;> rfl

/-- Planning takes no notice of the fields that are not used. -/
theorem ofInstruction_essence :
    ofInstruction p.essence m.essence site i.essence =
      (ofInstruction p m site i).map Plan.essence := by
  rcases i with ⟨opcode, width, a, b, c⟩
  cases opcode with
  | nop | ret | trap | jmp => rfl
  | const =>
      have hall : Instruction.essence ⟨.const, width, a, b, c⟩ = ⟨.const, width, a, b, c⟩ := rfl
      rw [hall]
      unfold ofInstruction
      dsimp only
      split
      · exact storing_essence ..
      · rfl
  | copy =>
      exact bind_eq_map_bind fun _ => bind_eq_map_bind fun _ => bind_eq_map_bind fun _ =>
        bind_eq_map_bind fun _ => rfl
  | add | sub | mul | eq | lt => exact combining_essence _
  | div =>
      refine bind_eq_map_bind fun divisor => ?_
      split
      · rfl
      · exact combining_essence _
  | jz | jnz => exact jumpingIf_essence _
  | call | callback =>
      unfold ofInstruction
      dsimp only [Instruction.opcode_essence]
      rw [Instruction.a_essence (by exact rfl), Site.callee_essence]
      cases site.callee p a with
      | error cause => rfl
      | ok callee =>
          -- the callee is known, but not the same on both sides
          change List.mapM _ _ >>= _ = Except.map _ (List.mapM _ _ >>= _)
          exact bind_eq_map_bind fun _ => rfl

/-- An instruction that is planned to call a function uses all its operands. -/
theorem usesC_of_ofInstruction (h : ofInstruction p m site i = .ok plan)
    (hcalls : plan.calls = true) : i.opcode.usesC = true := by
  rcases i with ⟨opcode, width, a, b, c⟩
  cases opcode with
  | nop | ret | jmp => cases h; cases hcalls
  | trap => cases h
  | jz | jnz =>
      obtain ⟨flag, -, h⟩ := Interpreter.exists_of_bind_eq_ok h
      cases flag <;> cases h <;> cases hcalls
  | _ => rfl

end Plan

end Plans

/-! ## Runs -/

namespace Interpreter

open Machine

section Runs

variable {p : Program} {m : Machine} {site : Site} {i : Instruction}

theorem essence_advance : (advance m).essence = advance m.essence := rfl

theorem running?_essence (index : Nat) :
    running? p.essence m.essence index =
      (running? p m index).map fun found => (found.1, found.2.1, found.2.2.essence) := by
  unfold running?
  rw [stack_essence]
  cases m.stack.frame? index with
  | none => rfl
  | some frame =>
      dsimp only [bind, Option.bind]
      cases frame.operator with
      | none => rfl
      | some operator =>
          dsimp only
          rw [Program.routine?_essence]
          cases p.routine? operator <;> rfl

theorem fetch_essence :
    fetch p.essence m.essence = (fetch p m).map fun found => (found.1, found.2.essence) := by
  unfold fetch
  rw [running?_essence, stack_essence]
  cases running? p m m.stack.activeIndex with
  | none => rfl
  | some found =>
      obtain ⟨frame, operator, routine⟩ := found
      dsimp only [Option.map_some]
      rw [Routine.code_essence]
      cases routine.code[frame.instructionPointer]? <;> rfl

theorem suspendedCall_essence (index : Nat) :
    suspendedCall p.essence m.essence index =
      (suspendedCall p m index).map fun found => (found.1, found.2.essence) := by
  unfold suspendedCall
  rw [running?_essence]
  cases running? p m index with
  | none => rfl
  | some found =>
      obtain ⟨frame, operator, routine⟩ := found
      dsimp only [Option.map_some]
      rw [Routine.code_essence]
      cases routine.code[frame.instructionPointer]? with
      | none => rfl
      | some i =>
          dsimp only [Option.map_some]
          by_cases hopcode : i.opcode = .call
          · rw [if_pos (i.opcode_essence.trans hopcode), if_pos hopcode]
            rfl
          · rw [if_neg (i.opcode_essence ▸ hopcode), if_neg hopcode]
            rfl

theorem opcode_of_suspendedCall {index : Nat} (h : suspendedCall p m index = .ok (site, i)) :
    i.opcode = .call := by
  unfold suspendedCall at h
  split at h
  · contradiction
  · dsimp only at h
    split at h
    · contradiction
    · split at h
      · cases h
        assumption
      · contradiction

/-! ### Calls and returns -/

theorem mimics_passInputs (window : Window) (inputs : List (Address × Slot)) :
    Mimics (passInputs window inputs) (passInputs window inputs) := by
  induction inputs with
  | nil => exact mimics_pure _
  | cons input rest ih =>
      refine mimics_bind (mimics_check _) fun range => ?_
      exact mimics_bind (mimics_copyBytes _ _) fun _ => ih

theorem mimics_passOutputs (window : Window) (caller : Site)
    (outputs : List (Slot × Nat × Nat)) :
    Mimics (passOutputs window caller outputs) (passOutputs window caller outputs) := by
  induction outputs with
  | nil => exact mimics_pure _
  | cons output rest ih =>
      refine mimics_bind (mimics_check _) fun source => ?_
      refine mimics_bind (mimics_check _) fun range => ?_
      exact mimics_bind (mimics_copyBytes _ _) fun _ => ih

theorem mimics_deliver (offset : Nat) (outputs : List Bytes) :
    Mimics (deliver site offset outputs) (deliver site offset outputs) := by
  induction outputs generalizing offset with
  | nil => exact mimics_pure _
  | cons bytes rest ih =>
      refine mimics_bind (mimics_check _) fun range => ?_
      exact mimics_bind (mimics_writeBytes _ _) fun _ => ih _

theorem mimics_call (function : UInt16) (callee : Routine) (sources : List Address) :
    Mimics (call site function callee.essence sources) (call site function callee sources) :=
  mimics_bind (mimics_adaptExcept (mimics_pushFrame _ _)) fun _ => mimics_passInputs _ _

theorem mimics_completeCall (caller : Nat) :
    Mimics (completeCall p.essence site caller) (completeCall p site caller) := by
  intro m
  unfold completeCall
  rw [suspendedCall_essence]
  cases hcall : suspendedCall p m caller with
  | error cause => rfl
  | ok found =>
      obtain ⟨callerSite, i⟩ := found
      -- the outputs go where operand `c` says, which a CALL uses
      have hopcode := opcode_of_suspendedCall hcall
      dsimp only [Except.map]
      rw [Site.callee_essence, Instruction.c_essence (by rw [hopcode]; rfl)]
      cases site.callee p site.location.function with
      | error cause => rfl
      | ok callee =>
          dsimp only [Except.map, Routine.descriptor_essence]
          rw [mimics_passOutputs]
          cases passOutputs site.window callerSite _ m with
          | error cause m' => rfl
          | ok _ m' =>
              simp only [essenceAfter, essence_note, essence_advance, essence_releaseFrame,
                essence_modifyStack, Event.essence]

theorem mimics_ret (returnTo : Nat) :
    Mimics (ret p.essence returnTo site) (ret p returnTo site) := by
  intro m
  unfold ret
  rw [stack_essence]
  cases m.stack.activeIndex with
  | zero => rfl
  | succ caller =>
      dsimp only
      by_cases hcaller : caller = returnTo
      · rw [if_pos hcaller, if_pos hcaller]
        rfl
      · rw [if_neg hcaller, if_neg hcaller, mimics_completeCall]
        cases completeCall p site caller m <;> rfl

theorem mimics_resume (s : Suspension) : Mimics (resume s) (resume s) := by
  intro m
  rw [resume_eq, resume_eq, mimics_collect]
  cases collect s.invocation m with
  | error cause m' => simp only [essenceAfter, essence_fail]
  | ok outputs m' =>
      dsimp only [essenceAfter]
      rw [mimics_deliver]
      cases deliver s.site s.destination.toNat outputs m' <;> rfl

/-! ### Steps -/

/-- Only calls look at operands when they are carried out; the others are in the plan. -/
theorem mimics_carryOut (returnTo : Nat) (plan : Plan)
    (hcalls : plan.calls = true → i.opcode.usesC = true) :
    Mimics (carryOut p.essence returnTo site i.essence plan.essence)
      (carryOut p returnTo site i plan) := by
  cases plan with
  | next | goto | store => exact fun _ => rfl
  | call callee sources =>
      have hc := hcalls rfl
      dsimp only [Plan.essence, carryOut]
      rw [Instruction.a_essence (Opcode.usesA_of_usesC hc)]
      exact mimics_bind (mimics_call _ _ _) fun _ => mimics_pure _
  | callback inputs =>
      have hc := hcalls rfl
      dsimp only [Plan.essence, carryOut]
      rw [Instruction.a_essence (Opcode.usesA_of_usesC hc), Instruction.c_essence hc]
      exact mimics_bind (mimics_adaptExcept (mimics_enter _ _)) fun _ => mimics_pure _
  | ret => exact mimics_bind (mimics_ret _) fun _ => mimics_pure _

/-- An instruction and its essence are executed alike. -/
theorem mimics_execute (returnTo : Nat) :
    Mimics (execute p.essence returnTo site i.essence) (execute p returnTo site i) := by
  intro m
  unfold execute
  rw [Plan.ofInstruction_essence]
  cases hplan : Plan.ofInstruction p m site i with
  | error cause => rfl
  | ok plan => exact mimics_carryOut returnTo plan (Plan.usesC_of_ofInstruction hplan) m

end Runs

end Interpreter

/-- What an engine leaves behind, with the essence of the machine. -/
def Comeback.essence {σ : Type} (back : Comeback σ) : Comeback σ :=
  ⟨back.verdict, back.engine, back.machine.essence⟩

/-- What an invocation leaves behind, with the essence of the machine. -/
def Reply.essence {σ : Type} (reply : Reply σ) : Reply σ :=
  ⟨reply.outcome, reply.engine, reply.machine.essence⟩

namespace Interpreter

/-- The execution with the essence of its machine. -/
def Execution.essence (x : Execution) : Execution :=
  ⟨x.interpreter, x.machine.essence, x.returnTo, x.suspended⟩

/-- What a step leads to, with the essence of its machine. -/
def Turn.essence : Turn → Turn
  | .more x => .more x.essence
  | .ended back => .ended back.essence

section Steps

variable {p : Program}

theorem abandon_essence (suspended : List Suspension) (cause : Fault) (m : Machine) :
    abandon suspended cause m.essence =
      ((abandon suspended cause m).1, (abandon suspended cause m).2.essence) := by
  induction suspended generalizing cause m with
  | nil => rfl
  | cons s outer ih =>
      simp only [abandon]
      rw [← Machine.essence_fail, ih]

theorem stop_essence (interpreter : Interpreter) (suspended : List Suspension) (cause : Fault)
    (m : Machine) :
    stop interpreter suspended cause m.essence =
      (stop interpreter suspended cause m).essence := by
  rw [stop_eq, stop_eq, abandon_essence]
  rfl

theorem settle_essence (interpreter : Interpreter) (returnTo : Nat)
    (suspended : List Suspension) (result : EStateM.Result Fault Machine Progress) :
    settle interpreter returnTo suspended (Machine.essenceAfter result) =
      (settle interpreter returnTo suspended result).essence := by
  cases result with
  | error cause m => exact stop_essence ..
  | ok progress m =>
      cases progress with
      | running => rfl
      | nested s => rfl
      | returned =>
          cases suspended with
          | nil => rfl
          | cons s outer =>
              simp only [settle, Machine.essenceAfter]
              rw [mimics_resume]
              cases resume s m with
              | error cause m' => exact stop_essence ..
              | ok _ m' => rfl

/-- A program and its essence step alike. -/
theorem step_essence (x : Execution) : step p.essence x.essence = (step p x).essence := by
  rcases x with ⟨interpreter, m, returnTo, suspended⟩
  unfold step
  dsimp only [Execution.essence]
  rw [fetch_essence]
  cases fetch p m with
  | error cause => exact stop_essence ..
  | ok found =>
      dsimp only [Except.map]
      by_cases hexhausted : interpreter.exhausted = true
      · rw [if_pos hexhausted, if_pos hexhausted]
        exact stop_essence ..
      · rw [if_neg hexhausted, if_neg hexhausted, ← settle_essence, ← mimics_execute,
          Machine.essence_note]
        rfl

theorem runFor_essence (clock : Nat) (x : Execution) :
    runFor p.essence clock x.essence = (runFor p clock x).map Comeback.essence := by
  induction clock generalizing x with
  | zero => rfl
  | succ clock ih =>
      simp only [runFor]
      rw [step_essence]
      cases step p x with
      | more y => exact ih y
      | ended back => rfl

theorem complete_essence (x : Execution) :
    complete p.essence x.essence = (complete p x).map Comeback.essence := by
  have hrun := runFor_essence (p := p) x.interpreter.horizon x
  unfold complete
  exact (congrArg (Option.filter _) hrun).trans Option.filter_map

/-- A program and its essence run alike. -/
theorem run_essence (interpreter : Interpreter) (m : Machine) (start returnTo : Nat) :
    run p.essence interpreter m.essence start returnTo =
      (run p interpreter m start returnTo).map Comeback.essence := by
  unfold run
  rw [Machine.stack_essence]
  split
  · exact complete_essence ⟨interpreter, m, returnTo, []⟩
  · rfl

end Steps
end Interpreter

/-! ## Invocations -/

/-- Two replies are the same but for the instructions that the journals show, and the
lines of the journals are the same as well. -/
structure Reply.Agrees {σ : Type} (reply reply' : Reply σ) : Prop where
  outcome : reply.outcome = reply'.outcome
  engine : reply.engine = reply'.engine
  machine : reply.machine.clearJournal = reply'.machine.clearJournal
  lines : ∀ shown, reply.machine.journal.lines shown = reply'.machine.journal.lines shown

/-- Replies agree if they have the same essence. -/
theorem Reply.agrees_of_essence_eq {σ : Type} {reply reply' : Reply σ}
    (h : reply.essence = reply'.essence) : reply.Agrees reply' := by
  simp only [essence, Reply.mk.injEq] at h
  rcases h with ⟨houtcome, hengine, hmachine⟩
  have hcleared := congrArg Machine.clearJournal hmachine
  rw [Machine.clearJournal_essence, Machine.clearJournal_essence] at hcleared
  refine ⟨houtcome, hengine, hcleared, fun shown => ?_⟩
  have hlines := congrArg (fun m : Machine => m.journal.lines shown) hmachine
  simpa only [Machine.essence, Journal.lines_essence] using hlines

namespace Machine

section Invocations

variable {p q : Program}

theorem conclude_essence {σ : Type} (call : Invocation) (back : Comeback σ) :
    conclude call back.essence = (conclude call back).essence := by
  rcases back with ⟨verdict, engine, m⟩
  cases verdict with
  | error cause => simp only [conclude, Comeback.essence, Reply.essence, essence_fail]
  | ok _ =>
      simp only [conclude, Comeback.essence]
      rw [mimics_leave]
      cases leave call m <;> rfl

/-- A program and its essence bring replies with the same essence. -/
theorem invoke_essence (m : Machine) (function : UInt16) (inputs : List Bytes)
    (interpreter : Interpreter) :
    m.essence.invoke p.essence (Interpreter.run p.essence) function inputs interpreter =
      (m.invoke p (Interpreter.run p) function inputs interpreter).map Reply.essence := by
  unfold invoke
  rw [mimics_enter]
  cases enter p function inputs m with
  | error e m' => rfl
  | ok call m' =>
      dsimp only [essenceAfter]
      rw [Interpreter.run_essence]
      cases Interpreter.run p interpreter m' call.start call.previous with
      | none => rfl
      | some back => exact congrArg some (conclude_essence call back)

/-- Programs with the same essence bring the same replies. -/
theorem invoke_agrees (h : p.essence = q.essence) (m : Machine) (function : UInt16)
    (inputs : List Bytes) (interpreter : Interpreter) :
    Option.Rel Reply.Agrees (m.invoke p (Interpreter.run p) function inputs interpreter)
      (m.invoke q (Interpreter.run q) function inputs interpreter) := by
  -- both are the reply of their common essence
  have hboth : (m.invoke p (Interpreter.run p) function inputs interpreter).map Reply.essence =
      (m.invoke q (Interpreter.run q) function inputs interpreter).map Reply.essence := by
    rw [← invoke_essence, ← invoke_essence, h]
  generalize m.invoke p _ _ _ _ = back at hboth
  generalize m.invoke q _ _ _ _ = back' at hboth
  cases back with
  | none =>
      cases back' with
      | none => exact .none
      | some reply' => cases hboth
  | some reply =>
      cases back' with
      | none => cases hboth
      | some reply' => exact .some (Reply.agrees_of_essence_eq (Option.some.inj hboth))

end Invocations
end Machine
end FrameMachine
