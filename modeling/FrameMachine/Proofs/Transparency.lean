import FrameMachine.Proofs.Deeds
import FrameMachine.Proofs.Mirrors

/-!
# Calls are transparent to their callers

Whatever goes on between a call and its return, at any depth of calls and reentrant
calls, the caller finds nothing changed but its instruction pointer, which is one
further, and the bytes to which the outputs of its callee have gone.  Meanwhile the
callee has started on zeros overlaid by its inputs.

Main results:

- Theorem `Machine.GrownFrom.apply`: a deed above a frame leaves alone what is below.
- Theorem `UnderWay.of_more`: as long as the caller is not active again, the call stays
  under way.
- Theorem `Machine.call_transparent`: what a completed call leaves of its caller.
-/

namespace FrameMachine

/-! ## The bytes of a new frame -/

/-- Bytes that were stored inside the arena are found there. -/
theorem Arena.slice_store {a : Arena} {offset : Nat} {bytes : Bytes}
    (h : 0 < bytes.length → offset + bytes.length ≤ a.capacity) :
    (a.store offset bytes).slice ⟨offset, bytes.length⟩ = bytes := by
  apply List.ext_getElem?
  intro k
  rw [Arena.getElem?_slice, Arena.cells_store, getElem?_overwrite]
  by_cases hk : k < bytes.length
  · have hcapacity := h (Nat.zero_lt_of_lt hk)
    simp only [Arena.capacity] at hcapacity ⊢
    rw [if_pos hk, if_pos (by omega), Nat.add_sub_cancel_left]
  · rw [if_neg hk, List.getElem?_eq_none (Nat.le_of_not_lt hk)]

/-- The bytes of a new frame: zeros, overlaid by one input after another. -/
def Descriptor.fresh (d : Descriptor) (inputs : List Bytes) : Array UInt8 :=
  (d.inputs.zip inputs).foldl (fun cells (s, bytes) => overwrite cells s.offset.toNat bytes)
    (Array.replicate d.size.toNat 0)

namespace Window

/-- Overlaying a window at the bottom of an arena is overlaying the arena. -/
theorem cells_storeSlots_bottom (size : Nat) (inputs : List (Slot × Bytes)) (a : Arena) :
    ((Window.mk 0 size).storeSlots inputs a).cells =
      inputs.foldl (fun cells (s, bytes) => overwrite cells s.offset.toNat bytes) a.cells := by
  induction inputs generalizing a with
  | nil => rfl
  | cons input rest ih =>
      rw [storeSlots, ih, List.foldl_cons, Arena.cells_store, Nat.zero_add]

end Window

/-- A frame of its own is inside an arena of its own. -/
theorem Descriptor.inside_empty (d : Descriptor) :
    (Window.mk 0 d.size.toNat).Inside (Arena.empty d.size.toNat) where
  stop_le := by simp [Arena.empty, Arena.capacity]
  capacity_le := by
    have hsize := d.size.toNat_lt
    have hlimit : 2 ^ 32 ≤ Config.memoryLimit := by decide
    simp only [Arena.empty, Arena.capacity, Array.size_replicate]
    omega

namespace Machine

section Entering

variable {program : Program} {m : Machine} {function : UInt16} {d : Descriptor}
  {inputs : List Bytes}

/-- The window of a function that has been entered holds zeros overlaid by the inputs,
whatever it held before. -/
theorem slice_entering (h : m.Sound) (hroom : m.shortage d.size.toNat = none) :
    (m.entering function d inputs).arena.slice ⟨m.arena.stackPointer, d.size.toNat⟩ =
      (d.fresh inputs).toList := by
  have hin := h.inside_nextWindow function hroom
  have hin' : (Window.mk 0 d.size.toNat).Inside (Arena.empty d.size.toNat) :=
    Descriptor.inside_empty d
  have hzero : Window.SameBytes (m.nextWindow d.size) ⟨0, d.size.toNat⟩
      (m.framed function d.size).arena (Arena.empty d.size.toNat) := by
    refine ⟨rfl, ?_⟩
    intro k hk
    have hstop := hin.stop_le
    simp only [nextWindow, framed, Arena.capacity, size_overwrite, Arena.empty] at hk hstop ⊢
    rw [getElem?_overwrite, List.length_replicate, if_pos (by omega), Nat.add_sub_cancel_left,
      Nat.zero_add, List.getElem?_replicate, Array.getElem?_replicate]
  have hbytes := hzero.storeSlots hin hin' (d.inputs.zip inputs)
  have hfit : 0 + d.size.toNat ≤ (m.nextWindow d.size).size :=
    Nat.le_of_eq (Nat.zero_add _)
  have hcapacity := Window.capacity_storeSlots ⟨0, d.size.toNat⟩ (d.inputs.zip inputs)
    (Arena.empty d.size.toNat)
  calc (m.entering function d inputs).arena.slice ⟨m.arena.stackPointer, d.size.toNat⟩
      = (Window.mk 0 d.size.toNat).part ((Window.mk 0 d.size.toNat).storeSlots
          (d.inputs.zip inputs) (Arena.empty d.size.toNat)) 0 d.size.toNat := hbytes.part_eq hfit
    _ = (d.fresh inputs).toList := by
        rw [Descriptor.fresh, show Array.replicate d.size.toNat 0 =
          (Arena.empty d.size.toNat).cells from rfl, ← Window.cells_storeSlots_bottom]
        simp only [Arena.capacity, Arena.empty, Array.size_replicate] at hcapacity
        simp only [Window.part, Arena.slice, Arena.empty, Nat.zero_add]
        rw [Array.extract_eq_self_of_le (Nat.le_of_eq hcapacity)]

end Entering

/-! ## Deeds above a frame -/

section Growth

variable {program : Program} {origin m : Machine} {depth floor level bottom : Nat}
  {live : List (Activation program)} {deed : Deed program}

theorem GrownFrom.storeSlots (h : GrownFrom origin level bottom m) {w : Window}
    (hbase : bottom ≤ w.base) (inputs : List (Slot × Bytes)) :
    GrownFrom origin level bottom (m.modifyArena (w.storeSlots inputs)) := by
  induction inputs generalizing m with
  | nil => exact h
  | cons input rest ih =>
      have hstart : bottom ≤ w.base + input.1.offset.toNat :=
        Nat.le_trans hbase (Nat.le_add_right ..)
      exact ih (h.store input.2 hstart)

/-- A deed of a frame above `level` that does not end below leaves alone what is there. -/
theorem GrownFrom.apply (h : GrownFrom origin level bottom m)
    (hlayout : m.Layout depth floor live) (hdoes : Does m live deed)
    (habove : level < m.stack.activeIndex)
    (hafter : level < depth + (deed.live m.arena.stackPointer live).length) :
    GrownFrom origin level bottom (deed.apply depth live m) := by
  cases hdoes with
  | @work a below _ _ position offset bytes _ _ _ _ =>
      have hbase : bottom ≤ a.base := h.base_le _ a.frame habove (Nat.le_refl _) hlayout.frame_eq
      exact (h.store bytes (Nat.le_trans hbase (Nat.le_add_right _ offset))).modifyActive habove
        fun _ => rfl
  | enter _ _ _ _ _ _ => exact (h.framed _ _).storeSlots h.floor_le _
  | @leave b a below j i _ _ _ _ =>
      simp only [Deed.live, List.length_cons] at hafter
      have hactive := hlayout.active_eq
      simp only [List.length_cons] at hactive
      have hbase : bottom ≤ a.base :=
        h.base_le _ a.frame (by omega) (by omega) hlayout.caller_eq
      have hbase' : bottom ≤ b.window.base :=
        h.base_le _ b.frame habove (Nat.le_refl _) hlayout.frame_eq
      have hreleased := (h.unwindTo (depth + below.length + 1) (by omega)).releaseFrame hbase'
      have hstored := hreleased.store (b.outputs m.arena).flatten
        (Nat.le_trans hbase (Nat.le_add_right _ i.c.toNat))
      apply hstored.advance
      simp only [stack_modifyArena, stack_releaseFrame, stack_modifyStack,
        CallStack.activeIndex_unwindTo]
      omega

end Growth
end Machine

/-! ## A call under way -/

/-- A deed of a list of live frames leaves the frames from one of them down as they are,
but for the position of that one, or it is the return of that one. -/
theorem Deed.live_append {program : Program} (deed : Deed program) (pointer position : Nat)
    (upper : List (Activation program)) (a : Activation program)
    (below : List (Activation program)) :
    (∃ upper' position', deed.live pointer (upper ++ a.goto position :: below) =
        upper' ++ a.goto position' :: below) ∨
      upper = [] ∧ ∃ c rest, below = c :: rest ∧
        deed.live pointer (upper ++ a.goto position :: below) = c.next :: rest := by
  cases deed with
  | work target offset bytes =>
      cases upper with
      | nil => exact Or.inl ⟨[], target, rfl⟩
      | cons u upper => exact Or.inl ⟨u.goto target :: upper, position, rfl⟩
  | enter function callee hcallee inputs => exact Or.inl ⟨_ :: upper, position, rfl⟩
  | leave offset outputs =>
      match upper, below with
      | [], [] => exact Or.inl ⟨[], position, rfl⟩
      | [], c :: rest => exact Or.inr ⟨rfl, c, rest, rfl, rfl⟩
      | [u], _ => exact Or.inl ⟨[], position + 1, rfl⟩
      | _ :: u :: upper, _ => exact Or.inl ⟨u.next :: upper, position, rfl⟩

namespace Interpreter

open Machine

/-- A call that was made in the machine `origin` is under way: its callee is live above
the frames `below`, and what was there at the time is as it was. -/
structure UnderWay {program : Program} (function : UInt16) (depth floor : Nat)
    (origin : Machine) (callee : Activation program) (below : List (Activation program))
    (x : Execution) : Prop where
  grown : GrownFrom origin origin.stack.activeIndex origin.arena.stackPointer x.machine
  along : ∃ upper position,
    CoherentAlong function depth floor (upper ++ callee.goto position :: below) x

section UnderWay

variable {program : Program} {function : UInt16} {depth floor count : Nat} {origin : Machine}
  {callee : Activation program} {below : List (Activation program)} {x y : Execution}

/-- A call that has entered its function is under way. -/
theorem Done.underWay {j : Instruction} {callee : Routine}
    {hcallee : program.routine? j.a = some callee} {inputs : List Bytes}
    (h : Done function depth floor (.enter j.a callee hcallee inputs) below x y) :
    UnderWay function depth floor x.machine
      (Activation.entered hcallee x.machine.arena.stackPointer) below y := by
  rcases parts_eq_of_clearJournal_eq h.machine_eq with ⟨harena, hstack, -⟩
  constructor
  · apply GrownFrom.congr _ harena hstack
    exact ((GrownFrom.refl x.machine).framed _ _).storeSlots (Nat.le_refl _) _
  · exact ⟨[], 0, h.along⟩

/-- As long as the caller is not active again, the call stays under way. -/
theorem UnderWay.of_more (h : UnderWay function depth floor origin callee below x)
    (horigin : origin.stack.activeIndex = depth + below.length)
    (hstep : step program x = .more y)
    (habove : origin.stack.activeIndex < y.machine.stack.activeIndex) :
    UnderWay function depth floor origin callee below y := by
  rcases h with ⟨hgrown, upper, position, halong⟩
  rcases exists_deed_of_more halong hstep with ⟨deed, hdoes, -, hdone⟩
  rcases parts_eq_of_clearJournal_eq hdone.machine_eq with ⟨harena, hstack, -⟩
  have hactive := halong.coherent.layout.active_eq
  have hactive' := hdone.along.coherent.layout.active_eq
  -- The return of the callee is the only deed that would end the call; it makes the
  -- caller active.
  constructor
  · apply GrownFrom.congr _ harena hstack
    apply hgrown.apply halong.coherent.layout hdoes
    · simp only [List.length_append, List.length_cons] at hactive
      omega
    · omega
  · rcases deed.live_append x.machine.arena.stackPointer position upper callee below with
      ⟨upper', position', hlive⟩ | ⟨-, c, rest, rfl, hlive⟩
    · exact ⟨upper', position', hlive ▸ hdone.along⟩
    · rw [hlive] at hactive'
      simp only [List.length_cons] at hactive' horigin
      omega

/-- A call stays under way until its caller is active again. -/
theorem UnderWay.of_reach (h : UnderWay function depth floor origin callee below x)
    (horigin : origin.stack.activeIndex = depth + below.length)
    (hreach : reach program count x = some y)
    (habove : ∀ k ≤ count, ∀ v, reach program k x = some v →
      origin.stack.activeIndex < v.machine.stack.activeIndex) :
    UnderWay function depth floor origin callee below y := by
  induction count generalizing y with
  | zero =>
      cases hreach
      exact h
  | succ count ih =>
      rcases reach_succ_eq_some_iff.mp hreach with ⟨v, hv, hstep⟩
      have hunder := ih hv fun k hk => habove k (Nat.le_succ_of_le hk)
      exact hunder.of_more horigin hstep (habove _ (Nat.le_refl _) y hreach)

/-- A call that goes on enters its function. -/
theorem exists_entered {a : Activation program} {j : Instruction}
    (h : CoherentAlong function depth floor (a :: below) x)
    (hinstruction : a.instruction? = some j) (hopcode : j.opcode = .call ∨ j.opcode = .callback)
    (hstep : step program x = .more y) :
    ∃ (callee : Routine) (hcallee : program.routine? j.a = some callee),
      a.site.outside? (backToBack j.b.toNat callee.descriptor.inputs) = none ∧
        x.machine.shortage callee.descriptor.size.toNat = none ∧
        Done function depth floor (.enter j.a callee hcallee
          (a.site.parts x.machine (backToBack j.b.toNat callee.descriptor.inputs)))
          (a :: below) x y := by
  rcases exists_deed_of_more h hstep with ⟨deed, hdoes, hroom, hdone⟩
  cases hdoes with
  | work hinstruction' hplain _ _ =>
      cases hinstruction.symm.trans hinstruction'
      rcases hopcode with hopcode | hopcode <;> simp [hopcode, Opcode.transfers] at hplain
  | enter hinstruction' _ hcallee hfit _ _ =>
      cases hinstruction.symm.trans hinstruction'
      exact ⟨_, hcallee, hfit, hroom, hdone⟩
  | leave hreturn hret _ _ =>
      cases hinstruction.symm.trans hreturn
      rcases hopcode with hopcode | hopcode <;> simp [hopcode] at hret

/-- The step of a call under way with which its caller is active again is the return of
its callee. -/
theorem UnderWay.exists_left {a : Activation program} {j : Instruction}
    (h : UnderWay function depth floor origin callee (a :: below) x)
    (horigin : origin.stack.activeIndex = depth + (a :: below).length)
    (hinstruction : a.instruction? = some j) (hstep : step program x = .more y)
    (hback : y.machine.stack.activeIndex = origin.stack.activeIndex) :
    ∃ position i,
      CoherentAlong function depth floor (callee.goto position :: a :: below) x ∧
      (callee.goto position).instruction? = some i ∧ i.opcode = .ret ∧
      passing? callee.window a.site j.c.toNat callee.routine.descriptor.outputs = none ∧
      Done function depth floor (.leave j.c.toNat (callee.outputs x.machine.arena).flatten)
        (callee.goto position :: a :: below) x y := by
  rcases h with ⟨-, upper, position, halong⟩
  rcases exists_deed_of_more halong hstep with ⟨deed, hdoes, -, hdone⟩
  have hactive := hdone.along.coherent.layout.active_eq
  rcases deed.live_append x.machine.arena.stackPointer position upper callee (a :: below) with
    ⟨upper', position', hlive⟩ | ⟨rfl, c, rest, hbelow, hlive⟩
  · rw [hlive, hback, horigin] at hactive
    simp only [List.length_append, List.length_cons] at hactive
    omega
  · rw [List.nil_append] at halong hdoes hdone hactive
    cases hdoes with
    | work _ _ _ _ =>
        simp only [Deed.live, List.length_cons] at hactive horigin
        omega
    | enter _ _ _ _ _ _ =>
        simp only [Deed.live, List.length_cons] at hactive horigin
        omega
    | leave hreturn hret hcaller hpass =>
        cases hinstruction.symm.trans hcaller
        exact ⟨position, _, halong, hreturn, hret, hpass, hdone⟩

end UnderWay
end Interpreter

/-! ## A completed call -/

/-- The bytes of the output slots fill as many bytes as the slots have. -/
theorem Activation.length_flatten_outputs {program : Program} {b : Activation program}
    {arena : Arena}
    (hin : b.window.Inside arena)
    (hfit : b.window.misfit? b.routine.descriptor.outputs = none) :
    (b.outputs arena).flatten.length = b.routine.descriptor.outputSize := by
  unfold Activation.outputs Descriptor.outputSize
  rw [Window.misfit?_eq_none_iff] at hfit
  generalize b.routine.descriptor.outputs = slots at hfit ⊢
  induction slots with
  | nil => rfl
  | cons s slots ih =>
      have hs := Window.length_part hin (hfit s (List.mem_cons_self ..))
      have hrest := ih fun t ht => hfit t (List.mem_cons_of_mem _ ht)
      simp only [List.map_cons, List.flatten_cons, List.length_append, hs, hrest]
      rfl

/-- Outputs that pass fill a part of their caller's window. -/
theorem Interpreter.slotBytes_le_of_passing? {w : Window} {caller : Site} {offset : Nat}
    {slots : List Slot} (h : Interpreter.passing? w caller offset slots = none)
    (hslots : slots ≠ []) : offset + slotBytes slots ≤ caller.window.size := by
  induction slots generalizing offset with
  | nil => contradiction
  | cons s slots ih =>
      simp only [Interpreter.passing?] at h
      split at h
      · contradiction
      · split at h
        · contradiction
        · rename_i hplace
          have hcons : slotBytes (s :: slots) = s.size.toNat + slotBytes slots := rfl
          cases slots with
          | nil =>
              have hnil : slotBytes [] = 0 := rfl
              omega
          | cons t slots =>
              have hrest := ih h (List.cons_ne_nil t slots)
              omega

namespace Machine

section Completed

/-- A return changes no frame below the caller. -/
theorem frames_returning {m : Machine} {caller : Nat} (window : Window) (target : Nat)
    (outputs : Bytes) (hcaller : caller ≤ m.stack.activeIndex) {k : Nat} (hk : k < caller) :
    (m.returning caller window target outputs).stack.frames[k]? = m.stack.frames[k]? := by
  have hstack := stack_releaseFrame window (m.modifyStack (CallStack.unwindTo caller))
  have hframes : (m.returning caller window target outputs).stack.frames =
      (((m.modifyStack (CallStack.unwindTo caller)).releaseFrame window).stack.advance).frames :=
    rfl
  rw [hframes, hstack, CallStack.advance, CallStack.frames_modifyActive,
    Array.getElem?_modify, if_neg]
  · rfl
  · simp only [stack_modifyStack, CallStack.activeIndex_unwindTo]
    omega

end Completed

/-- The call of `j` that was made at `site` in the step from `x` to `y` has been completed
in the step from `w` to `z`. -/
structure CallCompleted (program : Program) (site : Site) (j : Instruction) (callee : Routine)
    (x y w z : Interpreter.Execution) : Prop where
  /-- The caller is behind its call and otherwise as it was. -/
  caller_eq : ∃ frame, x.machine.stack.frame? x.machine.stack.activeIndex = some frame ∧
    z.machine.stack.frame? x.machine.stack.activeIndex =
      some { frame with instructionPointer := frame.instructionPointer + 1 }
  below_eq : ∀ k < x.machine.stack.activeIndex,
    z.machine.stack.frame? k = x.machine.stack.frame? k
  /-- The callee got a frame of its own above the stack pointer. -/
  entered : y.machine.stack.frame? (x.machine.stack.activeIndex + 1) =
    some ⟨some j.a, 0, x.machine.arena.stackPointer⟩
  /-- Its window held zeros overlaid by consecutive pieces of the caller's window. -/
  inputs_eq : ∃ inputs, (backToBack j.b.toNat callee.descriptor.inputs).mapM
      (fun (offset, length) => site.operand x.machine offset length) = .ok inputs ∧
    y.machine.arena.slice ⟨x.machine.arena.stackPointer, callee.descriptor.size.toNat⟩ =
      (callee.descriptor.fresh inputs).toList
  /-- It has come to a return. -/
  returned : ∃ position i, Interpreter.fetch program w.machine = .ok (⟨⟨j.a, position⟩,
      ⟨x.machine.arena.stackPointer, callee.descriptor.size.toNat⟩⟩, i) ∧ i.opcode = .ret
  /-- Its outputs are where the caller wanted them. -/
  outputs_eq : ∃ outputs, w.machine.readOutputs
      ⟨x.machine.arena.stackPointer, callee.descriptor.size.toNat⟩
        callee.descriptor.outputs = .ok outputs ∧
    outputs.flatten.length = callee.descriptor.outputSize ∧
    z.machine.arena.slice ⟨site.window.base + j.c.toNat, callee.descriptor.outputSize⟩ =
      outputs.flatten
  outputs_fit : 0 < callee.descriptor.outputSize →
    j.c.toNat + callee.descriptor.outputSize ≤ site.window.size
  /-- All other bytes are as they were. -/
  bytes_eq : ∀ k < x.machine.arena.stackPointer,
    ¬ (site.window.base + j.c.toNat ≤ k ∧
      k < site.window.base + j.c.toNat + callee.descriptor.outputSize) →
    z.machine.arena.cells[k]? = x.machine.arena.cells[k]?

end Machine

namespace Interpreter

open Machine

section Assembly

variable {program : Program} {function : UInt16} {depth floor position : Nat}
  {a b : Activation program} {below : List (Activation program)} {i j : Instruction}
  {x y w z : Execution}

/-- A return has stored its outputs and has changed no other byte. -/
theorem Done.cells_leave {offset : Nat} {outputs : Bytes}
    (h : Done function depth floor (.leave offset outputs) (b :: a :: below) x y) :
    y.machine.arena.cells = overwrite x.machine.arena.cells (a.base + offset) outputs := by
  rcases parts_eq_of_clearJournal_eq h.machine_eq with ⟨harena, -, -⟩
  rw [harena]
  exact cells_returning ..

/-- A return has changed no frame below the caller. -/
theorem Done.frames_leave {offset : Nat} {outputs : Bytes}
    (h : Done function depth floor (.leave offset outputs) (b :: a :: below) x y)
    (halong : CoherentAlong function depth floor (b :: a :: below) x) {k : Nat}
    (hk : k < depth + below.length + 1) :
    y.machine.stack.frames[k]? = x.machine.stack.frames[k]? := by
  have hactive := halong.coherent.layout.active_eq
  rcases parts_eq_of_clearJournal_eq h.machine_eq with ⟨-, hstack, -⟩
  rw [hstack]
  apply frames_returning _ _ _ _ hk
  simp only [List.length_cons] at hactive
  omega

/-- The outputs of the callee are where its caller wanted them. -/
theorem Done.slice_leave
    (h : Done function depth floor (.leave i.c.toNat (b.outputs x.machine.arena).flatten)
      (b.goto position :: a :: below) x y)
    (halong : CoherentAlong function depth floor (b.goto position :: a :: below) x)
    (hpass : passing? b.window a.site i.c.toNat b.routine.descriptor.outputs = none) :
    (b.outputs x.machine.arena).flatten.length = b.routine.descriptor.outputSize ∧
      (0 < b.routine.descriptor.outputSize →
        i.c.toNat + b.routine.descriptor.outputSize ≤ a.site.window.size) ∧
      y.machine.arena.slice ⟨a.site.window.base + i.c.toNat, b.routine.descriptor.outputSize⟩ =
        (b.outputs x.machine.arena).flatten := by
  have hin : b.window.Inside x.machine.arena :=
    halong.coherent.layout.inside (a := b.goto position) (by simp)
  have hcaller : a.window.Inside x.machine.arena :=
    halong.coherent.layout.inside (a := a) (by simp)
  have hlength := Activation.length_flatten_outputs hin (misfit?_of_passing? hpass)
  have hfit : 0 < b.routine.descriptor.outputSize →
      i.c.toNat + b.routine.descriptor.outputSize ≤ a.site.window.size := by
    intro hpos
    apply slotBytes_le_of_passing? hpass
    intro hnil
    rw [Descriptor.outputSize, hnil] at hpos
    exact absurd hpos (Nat.lt_irrefl 0)
  refine ⟨hlength, hfit, ?_⟩
  have hstored : y.machine.arena.slice
        ⟨a.site.window.base + i.c.toNat, b.routine.descriptor.outputSize⟩ =
      (x.machine.arena.store (a.base + i.c.toNat) (b.outputs x.machine.arena).flatten).slice
        ⟨a.base + i.c.toNat, (b.outputs x.machine.arena).flatten.length⟩ := by
    simp only [Arena.slice, h.cells_leave, Arena.cells_store, hlength]
    rfl
  rw [hstored]
  apply Arena.slice_store
  intro hpos
  rw [hlength] at hpos ⊢
  have hplace := hfit hpos
  have hstop := hcaller.stop_le
  have hbase : a.window.base = a.base := rfl
  have hsize : a.site.window.size = a.window.size := rfl
  omega

/-- A call that has entered its function, has then been under way and has been left is
completed. -/
theorem callCompleted {callee : Routine} {hcallee : program.routine? j.a = some callee}
    {c : Activation program}
    (hc : c = Activation.entered hcallee x.machine.arena.stackPointer)
    (halong : CoherentAlong function depth floor (a :: below) x)
    (hfit : a.site.outside? (backToBack j.b.toNat callee.descriptor.inputs) = none)
    (hroom : x.machine.shortage callee.descriptor.size.toNat = none)
    (hentered : Done function depth floor (.enter j.a callee hcallee
      (a.site.parts x.machine (backToBack j.b.toNat callee.descriptor.inputs)))
      (a :: below) x y)
    (hgrown : GrownFrom x.machine x.machine.stack.activeIndex x.machine.arena.stackPointer
      w.machine)
    (hlast : CoherentAlong function depth floor (c.goto position :: a :: below) w)
    (hinstruction : (c.goto position).instruction? = some i) (hret : i.opcode = .ret)
    (hpass : passing? c.window a.site j.c.toNat c.routine.descriptor.outputs = none)
    (hleft : Done function depth floor
      (.leave j.c.toNat (c.outputs w.machine.arena).flatten) (c.goto position :: a :: below)
      w z) :
    CallCompleted program a.site j callee x y w z := by
  have hin : a.site.window.Inside x.machine.arena :=
    halong.coherent.layout.inside (a := a) (by simp)
  have hin' : c.window.Inside w.machine.arena :=
    hlast.coherent.layout.inside (a := c.goto position) (by simp)
  have hactive : x.machine.stack.activeIndex = depth + below.length + 1 :=
    halong.coherent.layout.active_eq
  have hback : z.machine.stack.activeIndex = depth + below.length + 1 :=
    hleft.along.coherent.layout.active_eq
  have hentry : y.machine.stack.activeIndex = depth + below.length + 1 + 1 :=
    hentered.along.coherent.layout.active_eq
  have hframe := hleft.along.coherent.layout.frame_eq
  have hframe' := hentered.along.coherent.layout.frame_eq
  have hinputs : (backToBack j.b.toNat callee.descriptor.inputs).mapM
      (fun (offset, length) => a.site.operand x.machine offset length) =
        .ok (a.site.parts x.machine (backToBack j.b.toNat callee.descriptor.inputs)) := by
    rw [Site.mapM_ranges fun range => Site.operand_eq hin, hfit]
    rfl
  have hfetch := fetch_eq hlast.coherent.layout
  rw [hinstruction] at hfetch
  have houtputs := readOutputs_eq hin' (misfit?_of_passing? hpass)
  rcases parts_eq_of_clearJournal_eq hentered.machine_eq with ⟨harena, -, -⟩
  rcases hleft.slice_leave hlast hpass with ⟨hlength, hplace, hslice⟩
  subst hc
  rw [hback] at hframe
  rw [hentry] at hframe'
  exact
    { caller_eq := ⟨a.frame, halong.coherent.layout.frame_eq, by rw [hactive]; exact hframe⟩
      below_eq := by
        intro k hk
        rw [hactive] at hk
        exact (hleft.frames_leave hlast hk).trans
          (hgrown.frames_eq k (by omega))
      entered := by
        rw [hactive]
        exact hframe'
      inputs_eq := ⟨_, hinputs, by
        rw [harena]
        exact slice_entering halong.coherent.layout.sound hroom⟩
      returned := ⟨position, i, hfetch, hret⟩
      outputs_eq := ⟨_, houtputs, hlength, hslice⟩
      outputs_fit := hplace
      bytes_eq := by
        intro k hk houtside
        rw [hleft.cells_leave, getElem?_overwrite, if_neg]
        · exact hgrown.bytes_eq k hk
        · rintro ⟨hle, hlt, -⟩
          rw [hlength] at hlt
          exact houtside ⟨hle, hlt⟩ }

end Assembly
end Interpreter

namespace Machine

section Transparent

variable {program : Program} {m : Machine} {function : UInt16} {inputs : List Bytes}
  {interpreter : Interpreter} {site : Site} {j : Instruction} {count : Nat}
  {x y w z : Interpreter.Execution}

/-- A call is transparent to its caller, in whatever invocation and at whatever depth it is
made: once the caller is active again, it is behind the call and otherwise as it was, and so
are all frames below it and all bytes below the stack pointer at the time of the call, but
for those to which the outputs have gone, just as they stood when the callee returned. -/
theorem call_transparent (h : Reachable program m)
    (hvisit : m.Visits program function inputs interpreter x)
    (hfetch : Interpreter.fetch program x.machine = .ok (site, j))
    (hopcode : j.opcode = .call ∨ j.opcode = .callback)
    (hcall : Interpreter.step program x = .more y)
    (hreach : Interpreter.reach program count y = some w)
    (habove : ∀ k ≤ count, ∀ v, Interpreter.reach program k y = some v →
      x.machine.stack.activeIndex < v.machine.stack.activeIndex)
    (hreturn : Interpreter.step program w = .more z)
    (hback : z.machine.stack.activeIndex = x.machine.stack.activeIndex) :
    ∃ callee, program.routine? j.a = some callee ∧
      CallCompleted program site j callee x y w z := by
  rcases hvisit.coherent h.sound with ⟨hreturnTo, a, below, hcoherent⟩
  have halong : Interpreter.CoherentAlong _ _ _ (a :: below) x := ⟨hreturnTo, hcoherent⟩
  have hactive := hcoherent.layout.active_eq
  rw [Interpreter.fetch_eq hcoherent.layout] at hfetch
  cases hinstruction : a.instruction? with
  | none => simp [hinstruction] at hfetch
  | some i =>
      simp only [hinstruction, Except.ok.injEq, Prod.mk.injEq] at hfetch
      rcases hfetch with ⟨rfl, rfl⟩
      rcases Interpreter.exists_entered halong hinstruction hopcode hcall with
        ⟨callee, hcallee, hfit, hroom, hentered⟩
      have hunder := hentered.underWay.of_reach hactive hreach habove
      rcases hunder.exists_left hactive hinstruction hreturn hback with
        ⟨position, i', hlast, hlastInstruction, hret, hpass, hleft⟩
      exact ⟨callee, hcallee, Interpreter.callCompleted rfl halong hfit hroom hentered
        hunder.grown hlast hlastInstruction hret hpass hleft⟩

/-- The CALLBACK of the first function: its callee makes a CALL and then returns. -/
theorem call_transparent_relay :
    ∃ x y w z callee, (ofConfig ⟨24, 5, .release⟩).Visits relay 0 [[42]] {} x ∧
      Interpreter.step relay x = .more y ∧ Interpreter.reach relay 3 y = some w ∧
      Interpreter.step relay w = .more z ∧
      CallCompleted relay ⟨⟨0, 0⟩, ⟨0, 4⟩⟩ ⟨.callback, 0, 1, 0, 1⟩ callee x y w z := by
  have hfetch : ((launch relay 0 [[42]] {} (ofConfig ⟨24, 5, .release⟩)).map fun x =>
      (x.machine.stack.activeIndex, Interpreter.fetch relay x.machine)) =
        some (1, .ok (⟨⟨0, 0⟩, ⟨0, 4⟩⟩, ⟨.callback, 0, 1, 0, 1⟩)) := by
    decide +kernel
  have hback : ((launch relay 0 [[42]] {} (ofConfig ⟨24, 5, .release⟩)).bind fun x =>
      (Interpreter.reach relay 5 x).map fun z => z.machine.stack.activeIndex) = some 1 := by
    decide +kernel
  have habove : ∀ k ≤ 3, ((launch relay 0 [[42]] {} (ofConfig ⟨24, 5, .release⟩)).all fun x =>
      (Interpreter.reach relay (k + 1) x).all fun v =>
        decide (1 < v.machine.stack.activeIndex)) = true := by
    decide +kernel
  rcases Option.map_eq_some_iff.mp hfetch with ⟨x, hlaunch, heq⟩
  simp only [Prod.mk.injEq] at heq
  rcases heq with ⟨hactive, hfetch⟩
  rw [hlaunch, Option.bind_some] at hback
  rcases Option.map_eq_some_iff.mp hback with ⟨z, hz, hback⟩
  rcases Interpreter.reach_succ_eq_some_iff.mp hz with ⟨w, hw, hreturn⟩
  cases hcall : Interpreter.step relay x with
  | ended back =>
      rw [Interpreter.reach_succ_of_ended hcall] at hw
      cases hw
  | more y =>
      have hreach (k : Nat) := Interpreter.reach_succ_of_more hcall k
      have hvisit : (ofConfig ⟨24, 5, .release⟩).Visits relay 0 [[42]] {} x :=
        ⟨x, 0, hlaunch, rfl⟩
      have hw' : Interpreter.reach relay 3 y = some w := (hreach 3).symm.trans hw
      rcases call_transparent (.create (by decide)) hvisit hfetch (Or.inr rfl) hcall hw'
        (by
          intro k hk v hv
          have hdeep := habove k hk
          rw [hlaunch, Option.all_some, hreach k, hv, Option.all_some] at hdeep
          exact hactive ▸ of_decide_eq_true hdeep)
        hreturn (hback.trans hactive.symm) with ⟨callee, -, hcompleted⟩
      exact ⟨x, y, w, z, callee, hvisit, hcall, hw', hreturn, hcompleted⟩

end Transparent
end Machine
end FrameMachine
