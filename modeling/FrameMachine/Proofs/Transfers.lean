import FrameMachine.Proofs.LiveFrames
import FrameMachine.Proofs.Plans

/-!
# Calls and returns along live frames

A CALL and a CALLBACK lead to the same machine, and so do the returns from them.
This file states the machine once for each direction, `Machine.entering` and
`Machine.returning`, and shows for each of the four ways that it leads there
unless a fault stands in the way.

Main results:

- Theorems `call_brings` and `enter_eq_ok`: both calls enter their callee alike.
- Theorems `completeCall_brings` and `resume_brings`: both returns go on in the
  caller alike.
- Theorems `Layout.entering` and `Layout.returning`: what they do to the list of
  live frames.
-/

namespace FrameMachine

/-! ## Acceptance -/

/-- The inputs have the lengths of the slots, one by one. -/
def LengthsMatch (slots : List Slot) (inputs : List Bytes) : Prop :=
  inputs.map List.length = slots.map fun s => s.size.toNat

section Acceptance

variable {slots : List Slot} {inputs : List Bytes}

theorem LengthsMatch.length_eq (h : LengthsMatch slots inputs) :
    inputs.length = slots.length := by
  simpa using congrArg List.length h

theorem LengthsMatch.map_fst_zip (h : LengthsMatch slots inputs) :
    (slots.zip inputs).map Prod.fst = slots :=
  List.map_fst_zip (Nat.le_of_eq h.length_eq.symm)

theorem LengthsMatch.length_of_mem_zip (h : LengthsMatch slots inputs) :
    ∀ p ∈ slots.zip inputs, p.2.length = p.1.size.toNat := by
  induction slots generalizing inputs with
  | nil => simp
  | cons s slots ih =>
      cases inputs with
      | nil => simp
      | cons input inputs =>
          simp only [LengthsMatch, List.map_cons, List.cons.injEq] at h
          intro p hp
          rw [List.zip_cons_cons] at hp
          rcases List.mem_cons.mp hp with rfl | hp
          · exact h.1
          · exact ih h.2 p hp

theorem firstLengthMismatch?_eq_none_iff (function : UInt16) (index : Nat)
    (hlength : inputs.length = slots.length) :
    firstLengthMismatch? function index slots inputs = none ↔ LengthsMatch slots inputs := by
  induction slots generalizing inputs index with
  | nil =>
      have hnil : inputs = [] := List.eq_nil_of_length_eq_zero hlength
      subst hnil
      simp [firstLengthMismatch?, LengthsMatch]
  | cons s slots ih =>
      cases inputs with
      | nil => simp at hlength
      | cons input inputs =>
          have hrest := ih (index + 1) (by simpa using hlength)
          simp only [LengthsMatch] at hrest
          by_cases hhead : input.length = s.size.toNat <;>
            simp [firstLengthMismatch?, LengthsMatch, hhead, hrest]

theorem checkInputs_eq_ok_iff {function : UInt16} {d : Descriptor} :
    checkInputs function d inputs = .ok () ↔
      d.misfit? = none ∧ LengthsMatch d.inputs inputs := by
  unfold checkInputs
  cases d.misfit? with
  | some misfit => simp
  | none =>
      by_cases hlength : inputs.length = d.inputs.length
      · have hlengths := firstLengthMismatch?_eq_none_iff function 0 hlength
        simp only [if_pos hlength]
        cases hmismatch : firstLengthMismatch? function 0 d.inputs inputs with
        | some mismatch =>
            rw [hmismatch] at hlengths
            simpa using hlengths
        | none =>
            rw [hmismatch] at hlengths
            simpa using hlengths
      · have hnot : ¬ LengthsMatch d.inputs inputs := fun h => hlength h.length_eq
        simp [hlength, hnot]

end Acceptance

namespace Machine

variable {program : Program} {m : Machine} {function : UInt16} {inputs : List Bytes}

/-- What is known of an accepted request. -/
theorem accept_eq_ok_iff {d : Descriptor} :
    accept program m function inputs = .ok d ↔
      m.poisoned = false ∧ ∃ routine, program.routine? function = some routine ∧
        routine.descriptor = d ∧ d.misfit? = none ∧ LengthsMatch d.inputs inputs := by
  unfold accept
  cases m.poisoned with
  | true => simp
  | false =>
      cases program.routine? function with
      | none => simp
      | some routine =>
          have hcheck : checkInputs function routine.descriptor inputs = .ok () ↔ _ :=
            checkInputs_eq_ok_iff
          simp only [Bool.false_eq_true, if_false, true_and]
          cases hresult : checkInputs function routine.descriptor inputs with
          | error e =>
              rw [hresult] at hcheck
              constructor
              · intro h
                contradiction
              · rintro ⟨r, hr, rfl, hok⟩
                cases hr
                exact absurd (hcheck.mpr hok) (by simp)
          | ok _ =>
              rw [hresult] at hcheck
              constructor
              · intro h
                cases h
                exact ⟨routine, rfl, rfl, hcheck.mp rfl⟩
              · rintro ⟨r, hr, rfl, -⟩
                cases hr
                rfl

/-- A request whose inputs have the right lengths is refused only for the layout. -/
theorem accept_of_lengthsMatch {routine : Routine} (hpoisoned : m.poisoned = false)
    (hroutine : program.routine? function = some routine)
    (hlengths : LengthsMatch routine.descriptor.inputs inputs) :
    accept program m function inputs =
      match routine.descriptor.misfit? with
      | some misfit => .error (.descriptor function misfit)
      | none => .ok routine.descriptor := by
  cases hmisfit : routine.descriptor.misfit? with
  | some misfit => simp [accept, hpoisoned, hroutine, checkInputs, hmisfit]
  | none =>
      exact accept_eq_ok_iff.mpr ⟨hpoisoned, routine, hroutine, rfl, hmisfit, hlengths⟩

/-! ## Entering a function -/

/-- The machine in which a function has been called: its frame is active, and its
window holds the inputs and zeros. -/
def entering (m : Machine) (function : UInt16) (d : Descriptor) (inputs : List Bytes) :
    Machine :=
  (m.framed function d.size).modifyArena ((m.nextWindow d.size).storeSlots (d.inputs.zip inputs))

theorem Sound.inside_nextWindow (h : m.Sound) {size : UInt32} (operator : UInt16)
    (hroom : m.shortage size.toNat = none) :
    (m.nextWindow size).Inside (m.framed operator size).arena :=
  ⟨(h.framed operator hroom).stackPointer_le, (h.framed operator hroom).capacity_le⟩

theorem Sound.entering (h : m.Sound) (d : Descriptor)
    (hroom : m.shortage d.size.toNat = none) : (m.entering function d inputs).Sound where
  stackPointer_le := by
    have hframed := (h.framed function hroom).stackPointer_le
    simpa [Machine.entering] using hframed
  capacity_le := by
    have hframed := (h.framed function hroom).capacity_le
    simpa [Machine.entering] using hframed
  active_lt := (h.framed function hroom).active_lt

/-- An accepted invocation enters its function if nothing is short. -/
theorem enter_eq_ok {d : Descriptor} (h : m.Sound)
    (haccept : accept program m function inputs = .ok d)
    (hroom : m.shortage d.size.toNat = none) :
    enter program function inputs m =
      .ok ⟨function, d, m.nextWindow d.size, m.stack.activeIndex,
          m.stack.active.instructionPointer⟩
        ((m.entering function d inputs).note
          (.invoked function (m.stack.activeIndex + 1) m.stack.activeIndex)) := by
  rcases accept_eq_ok_iff.mp haccept with ⟨-, routine, hroutine, -, hmisfit, hlengths⟩
  have hfit : (m.nextWindow d.size).misfit? d.inputs = none := Descriptor.inputs_fit hmisfit _
  have hwrite := writeInputs_eq
    (m := (m.framed function d.size).note
      (.invoked function (m.stack.activeIndex + 1) m.stack.activeIndex))
    (h.inside_nextWindow function hroom) hlengths.length_of_mem_zip
  rw [hlengths.map_fst_zip, hfit] at hwrite
  have hwrite : writeInputs _ _ _ = .ok () _ := hwrite
  simp only [enter_eq, haccept, hroom, Invocation.start, hwrite]
  rfl

/-- A list of live frames gets a new innermost one. -/
theorem Layout.entering {depth floor : Nat} {live : List (Activation program)}
    (h : m.Layout depth floor live) {routine : Routine}
    (hroutine : program.routine? function = some routine)
    (hroom : m.shortage routine.descriptor.size.toNat = none) (inputs : List Bytes) :
    (m.entering function routine.descriptor inputs).Layout depth floor
      (Activation.entered hroutine m.arena.stackPointer :: live) :=
  (h.framed hroutine hroom).congr (h.sound.entering _ hroom)
    (Window.stackPointer_storeSlots ..) rfl

end Machine

namespace Site

variable {site : Site} {m : Machine} {slots : List Slot} {offset : Nat}

/-- Operands that fit have the lengths of the slots that they are for. -/
theorem lengthsMatch_parts (h : site.window.Inside m.arena)
    (hfit : site.outside? (backToBack offset slots) = none) :
    LengthsMatch slots (site.parts m (backToBack offset slots)) := by
  induction slots generalizing offset with
  | nil => rfl
  | cons s slots ih =>
      simp only [outside?, backToBack, List.find?_cons] at hfit
      by_cases hout : site.window.size < offset + s.size.toNat
      · simp [hout] at hfit
      · simp only [hout, decide_false] at hfit
        have hrest := ih hfit
        have hlength := Window.length_part h (Nat.le_of_not_lt hout)
        simp only [LengthsMatch, parts, backToBack, List.map_cons] at hrest ⊢
        rw [hrest, hlength]

/-- A new frame leaves the operands of its caller alone. -/
theorem parts_framed (function : UInt16) (size : UInt32)
    (hbelow : site.window.base + site.window.size ≤ m.arena.stackPointer)
    (hfit : site.outside? (backToBack offset slots) = none) :
    site.parts (m.framed function size) (backToBack offset slots) =
      site.parts m (backToBack offset slots) := by
  apply List.map_congr_left
  intro range hrange
  have hrange : range.1 + range.2 ≤ site.window.size := by
    simp only [outside?, Option.map_eq_none_iff, List.find?_eq_none] at hfit
    simpa using hfit range hrange
  exact Window.part_store_of_disjoint (a := m.arena) (Or.inr hbelow) hrange

end Site

namespace Interpreter

open Machine

variable {program : Program} {m : Machine}

/-- A CALL enters its function if nothing is short and all input slots fit. -/
theorem call_brings (h : m.Sound) (site : Site) {callee : Routine} {offset : Nat}
    (function : UInt16)
    (hbelow : site.window.base + site.window.size ≤ m.arena.stackPointer)
    (hfit : site.outside? (backToBack offset callee.descriptor.inputs) = none)
    (hroom : m.shortage callee.descriptor.size.toNat = none) :
    Brings (((m.nextWindow callee.descriptor.size).misfit? callee.descriptor.inputs).map
        .slotOutOfFrame)
      (m.arena.stackPointer + callee.descriptor.size.toNat) ()
      (m.entering function callee.descriptor
        (site.parts m (backToBack offset callee.descriptor.inputs)))
      (call site function callee
        (site.ranges (backToBack offset callee.descriptor.inputs)) m) := by
  have hin := h.inside_nextWindow function hroom
  have hcaller : site.window.Inside m.arena :=
    ⟨Nat.le_trans hbelow h.stackPointer_le, h.capacity_le⟩
  have hlengths := Site.lengthsMatch_parts hcaller hfit
  have hsources : ∀ source ∈ site.ranges (backToBack offset callee.descriptor.inputs),
      source.offset + source.length ≤ (m.nextWindow callee.descriptor.size).base := by
    intro source hsource
    rcases List.mem_map.mp hsource with ⟨range, hrange, rfl⟩
    simp only [Site.outside?, Option.map_eq_none_iff, List.find?_eq_none] at hfit
    have hrange := hfit range hrange
    simp only [decide_eq_true_eq, Nat.not_lt] at hrange
    simp only [nextWindow]
    omega
  have hslices : (site.ranges (backToBack offset callee.descriptor.inputs)).map
      (m.framed function callee.descriptor.size).arena.slice =
        site.parts m (backToBack offset callee.descriptor.inputs) := by
    rw [← Site.parts_framed function callee.descriptor.size hbelow hfit, Site.ranges, List.map_map]
    rfl
  have hwrite := writeInputs_eq hin hlengths.length_of_mem_zip
  rw [hlengths.map_fst_zip] at hwrite
  rw [call_eq, hroom]
  dsimp only
  rw [passInputs_eq_writeInputs _ hin hsources, hslices]
  exact hwrite

end Interpreter

/-! ## Returning to a caller -/

/-- The bytes of the output slots of an activation. -/
def Activation.outputs {program : Program} (a : Activation program) (arena : Arena) :
    List Bytes :=
  a.routine.descriptor.outputs.map fun s =>
    a.window.part arena s.offset.toNat s.size.toNat

namespace Machine

/-- The machine in which the active frame has returned to `caller`: its window is
released, its outputs are stored, and the caller is behind its call. -/
def returning (m : Machine) (caller : Nat) (window : Window) (target : Nat)
    (outputs : Bytes) : Machine :=
  Interpreter.advance (((m.modifyStack (CallStack.unwindTo caller)).releaseFrame window)
    |>.modifyArena (Arena.store target outputs))

theorem releaseFrame_store (m : Machine) (window : Window) (target : Nat) (bytes : Bytes) :
    (m.modifyArena (Arena.store target bytes)).releaseFrame window =
      (m.releaseFrame window).modifyArena (Arena.store target bytes) := by
  by_cases h : m.reclaim = .release ∧ window.stop = m.arena.stackPointer
  · have h' : (m.modifyArena (Arena.store target bytes)).reclaim = .release ∧
        window.stop = (m.modifyArena (Arena.store target bytes)).arena.stackPointer := h
    rw [releaseFrame, releaseFrame, if_pos h, if_pos h']
    rfl
  · have h' : ¬ ((m.modifyArena (Arena.store target bytes)).reclaim = .release ∧
        window.stop = (m.modifyArena (Arena.store target bytes)).arena.stackPointer) := h
    rw [releaseFrame, releaseFrame, if_neg h, if_neg h']

section Returning

variable {program : Program} {m : Machine} {depth floor : Nat} {a b : Activation program}
  {below : List (Activation program)}

theorem Layout.inside (h : m.Layout depth floor below) (ha : a ∈ below) :
    a.window.Inside m.arena :=
  ⟨h.window_le ha, h.sound.capacity_le⟩

/-- The innermost frame gives way to its caller. -/
theorem Layout.returning (h : m.Layout depth floor (b :: a :: below)) (target : Nat)
    (outputs : Bytes) :
    (m.returning (depth + below.length + 1) b.window target outputs).Layout depth floor
      (a.next :: below) :=
  ((h.pop.releaseFrame b.window h.packed.2).store target outputs).advance

/-- A caller that gets back the instruction pointer that it has is not changed. -/
theorem Layout.jump_position (h : m.Layout depth floor (a :: below)) :
    m.modifyStack (CallStack.jump a.position) = m := by
  have hframe := h.frame_eq
  rcases m with ⟨arena, ⟨frames, activeIndex⟩, reclaim, poisoned, journal⟩
  have hframes : frames.modify activeIndex
      (fun f => { f with instructionPointer := a.position }) = frames := by
    apply Array.ext_getElem?
    intro j
    rw [Array.getElem?_modify]
    split
    · rename_i hj
      subst hj
      dsimp only at hframe
      rw [hframe]
      rfl
    · rfl
  simp only [modifyStack, CallStack.jump, CallStack.modifyActive, hframes]

end Returning
end Machine

namespace Interpreter

open Machine

variable {program : Program} {m : Machine} {depth floor : Nat} {a b : Activation program}
  {below : List (Activation program)} {i : Instruction}

/-- The caller of the innermost frame rests on its CALL. -/
theorem suspendedCall_eq (h : m.Layout depth floor (b :: a :: below))
    (hinstruction : a.instruction? = some i) (hopcode : i.opcode = .call) :
    suspendedCall program m (depth + below.length + 1) = .ok (a.site, i) := by
  have hrunning := running?_eq_some_iff.mpr ⟨h.caller_eq, rfl, a.routine_eq⟩
  have hcode : a.routine.code[a.frame.instructionPointer]? = some i := hinstruction
  simp only [suspendedCall, hrunning, hcode, hopcode, if_true]
  rfl

/-- The return from a CALL goes on in the caller, unless an output or its place in
the caller is outside its frame. -/
theorem completeCall_brings (h : m.Layout depth floor (b :: a :: below))
    (hinstruction : a.instruction? = some i) (hopcode : i.opcode = .call) :
    Brings (passing? b.window a.site i.c.toNat b.routine.descriptor.outputs)
      m.arena.stackPointer ()
      ((m.returning (depth + below.length + 1) b.window (a.base + i.c.toNat)
        (b.outputs m.arena).flatten).note (.resumed b.function (depth + below.length + 1)))
      (completeCall program b.site (depth + below.length + 1) m) := by
  have hpass := passOutputs_eq b.window a.site i.c.toNat b.routine.descriptor.outputs
    (h.inside (by simp)) (h.inside (by simp)) h.packed.2.1
  have hcallee : b.site.callee program b.site.location.function = .ok b.routine := by
    simp only [Site.callee]
    rw [show b.site.location.function = b.function from rfl, b.routine_eq]
  unfold completeCall
  rw [suspendedCall_eq h hinstruction hopcode]
  simp only [hcallee]
  cases hobstacle : passing? b.window a.site i.c.toNat b.routine.descriptor.outputs with
  | some cause =>
      rw [hobstacle] at hpass
      rcases hpass with ⟨m', hm', hpointer⟩
      exact ⟨m', by rw [show passOutputs b.site.window _ _ _ = _ from hm'], hpointer⟩
  | none =>
      rw [hobstacle] at hpass
      have hpass : passOutputs b.site.window _ _ _ = .ok () _ := hpass
      simp only [hpass]
      have hrelease := releaseFrame_store
        (m.modifyStack (CallStack.unwindTo (depth + below.length + 1))) b.window
        (a.base + i.c.toNat) (b.outputs m.arena).flatten
      exact congrArg (fun m' => EStateM.Result.ok ()
        ((advance m').note (.resumed b.function (depth + below.length + 1)))) hrelease

/-- The return from a CALLBACK goes on in the caller, unless the place of an output
in the caller is outside its frame. -/
theorem resume_brings (h : m.Layout depth floor (b :: a :: below))
    (hvalid : b.routine.descriptor.misfit? = none) (destination : UInt16) :
    Brings (a.site.outside? (backToBack destination.toNat b.routine.descriptor.outputs))
      (m.returning (depth + below.length + 1) b.window (a.base + destination.toNat)
        (b.outputs m.arena).flatten).arena.stackPointer ()
      ((m.returning (depth + below.length + 1) b.window (a.base + destination.toNat)
        (b.outputs m.arena).flatten).note
          (.returned b.function b.routine.descriptor.outputs.length))
      (resume ⟨a.site, destination, b.invocation (depth + below.length + 1) a.position⟩
        (m.modifyStack (CallStack.unwindTo (depth + below.length + 1)))) := by
  have hpop : (m.modifyStack (CallStack.unwindTo (depth + below.length + 1))).Layout depth floor
      (a :: below) := h.pop
  have hactive : (m.modifyStack (CallStack.unwindTo (depth + below.length + 1))).stack.activeIndex
      = depth + below.length + 1 := hpop.active_eq
  have hin : b.window.Inside m.arena := h.inside (by simp)
  have hfit : b.window.misfit? b.routine.descriptor.outputs = none :=
    Descriptor.outputs_fit hvalid b.base
  have hread : (m.modifyStack (CallStack.unwindTo (depth + below.length + 1))).readOutputs
      b.window b.routine.descriptor.outputs = .ok (b.outputs m.arena) :=
    readOutputs_eq hin hfit
  have hreleased := (hpop.releaseFrame b.window h.packed.2).note
    (.returned b.function b.routine.descriptor.outputs.length)
  have hlengths : ∀ s ∈ b.routine.descriptor.outputs,
      (b.window.part m.arena s.offset.toNat s.size.toNat).length = s.size.toNat := by
    intro s hs
    exact Window.length_part hin (Window.misfit?_eq_none_iff.mp hfit s hs)
  have hdeliver := deliver_eq a.site destination.toNat b.routine.descriptor.outputs
    (hreleased.inside (a := a) (by simp)) hlengths
  have houtputs : (b.outputs m.arena).length = b.routine.descriptor.outputs.length :=
    List.length_map ..
  rw [resume_eq, collect_eq]
  simp only [Activation.invocation, if_pos hactive, hpop.jump_position, hread, houtputs]
  cases hobstacle : a.site.outside?
      (backToBack destination.toNat b.routine.descriptor.outputs) with
  | some cause =>
      rw [hobstacle] at hdeliver
      rcases hdeliver with ⟨m', hm', hpointer⟩
      have hm' : deliver a.site destination.toNat (b.outputs m.arena) _ = _ := hm'
      refine ⟨m', ?_, hpointer⟩
      rw [hm']
  | none =>
      rw [hobstacle] at hdeliver
      have hdeliver : deliver a.site destination.toNat (b.outputs m.arena) _ = .ok () _ :=
        hdeliver
      simp only [Brings]
      rw [hdeliver]
      rfl

end Interpreter
end FrameMachine
