import FrameMachine.Proofs.Coherence
import Mathlib.Data.List.Forall2

/-!
# Frames that mirror each other

Two machines over one program may differ in the bytes of their arenas, in their
stack pointers and in the frames below their active ones.  Their live frames
*mirror* each other if they are at the same places of the program, lie at the
same distance from the floors of their runs, and hold the same bytes.  Whatever
happens to the innermost frames of both keeps this so, since a new frame starts
with zeros wherever it lies.

Main results:

- Theorem `Mirrors.shortage_cases`: room is short in both machines or in neither.
- Theorems `Mirrors.store`, `Mirrors.entering` and `Mirrors.returning`: live frames
  that mirror each other still do after equal stores, calls and returns.
- Theorem `masked_abandon`: faults that wait for runs at the same places stay
  equal but for the number of call stack slots.
-/

namespace FrameMachine

/-! ## Errors without the size of the call stack -/

/-- What is missing, but for the number of call stack slots. -/
def Exhaustion.masked : Exhaustion → Exhaustion
  | .callStack _ => .callStack 0
  | .memory requested available => .memory requested available

/-- A rejection but for the number of call stack slots. -/
def Rejection.masked : Rejection → Rejection
  | .exhausted need => .exhausted need.masked
  | reason => reason

/-- A fault but for the number of call stack slots. -/
def Fault.masked : Fault → Fault
  | .exhausted site need => .exhausted site need.masked
  | .callbackRejected site reason => .callbackRejected site reason.masked
  | .callbackFault site cause => .callbackFault site cause.masked
  | cause => cause

/-- The error of an invocation but for the number of call stack slots. -/
def InvokeError.masked : InvokeError → InvokeError
  | .rejected reason => .rejected reason.masked
  | .fault cause => .fault cause.masked

/-! ## Frames that mirror each other -/

namespace Activation

variable {program : Program}

/-- Two activations are at one place of the program, at one distance from the floors of
their runs, and hold the same bytes. -/
structure Mirrors (floor floor' : Nat) (arena arena' : Arena) (a a' : Activation program) :
    Prop where
  function_eq : a.function = a'.function
  position_eq : a.position = a'.position
  offset_eq : a.base + floor' = a'.base + floor
  bytes : Window.SameBytes a.window a'.window arena arena'

section Mirrors

variable {floor floor' : Nat} {arena arena' : Arena} {a a' : Activation program}

theorem Mirrors.routine_eq (h : Mirrors floor floor' arena arena' a a') :
    a.routine = a'.routine :=
  Option.some.inj (a.routine_eq.symm.trans (h.function_eq ▸ a'.routine_eq))

theorem Mirrors.location_eq (h : Mirrors floor floor' arena arena' a a') :
    a.location = a'.location := by
  simp only [location, h.function_eq, h.position_eq]

theorem Mirrors.instruction?_eq (h : Mirrors floor floor' arena arena' a a') :
    a.instruction? = a'.instruction? := by
  simp only [instruction?, h.routine_eq, h.position_eq]

theorem Mirrors.outside?_eq (h : Mirrors floor floor' arena arena' a a')
    (ranges : List (Nat × Nat)) : a.site.outside? ranges = a'.site.outside? ranges := by
  have hsize : a.site.window.size = a'.site.window.size := h.bytes.size_eq
  have hlocation : a.site.location = a'.site.location := h.location_eq
  simp only [Site.outside?, hsize, hlocation]

/-- Operands that fit are the same bytes in both. -/
theorem Mirrors.parts_eq {m m' : Machine} (h : Mirrors floor floor' m.arena m'.arena a a')
    {ranges : List (Nat × Nat)} (hfit : a.site.outside? ranges = none) :
    a.site.parts m ranges = a'.site.parts m' ranges := by
  apply List.map_congr_left
  intro range hrange
  simp only [Site.outside?, Option.map_eq_none_iff, List.find?_eq_none] at hfit
  have hrange : range.1 + range.2 ≤ a.site.window.size := by simpa using hfit range hrange
  exact h.bytes.part_eq hrange

/-- The outputs of the two are the same bytes if their slots fit. -/
theorem Mirrors.outputs_eq (h : Mirrors floor floor' arena arena' a a')
    (hfit : a.window.misfit? a.routine.descriptor.outputs = none) :
    a.outputs arena = a'.outputs arena' := by
  unfold outputs
  rw [← h.routine_eq]
  apply List.map_congr_left
  intro s hs
  exact h.bytes.part_eq (Window.misfit?_eq_none_iff.mp hfit s hs)

theorem Mirrors.goto (h : Mirrors floor floor' arena arena' a a') (position : Nat) :
    Mirrors floor floor' arena arena' (a.goto position) (a'.goto position) :=
  ⟨h.function_eq, rfl, h.offset_eq, h.bytes⟩

theorem Mirrors.next (h : Mirrors floor floor' arena arena' a a') :
    Mirrors floor floor' arena arena' a.next a'.next :=
  ⟨h.function_eq, congrArg (· + 1) h.position_eq, h.offset_eq, h.bytes⟩

end Mirrors
end Activation

/-- The suspensions of two runs whose frames mirror each other wait at the same
places. -/
theorem location_suspensions {program : Program} {depth depth' floor floor' : Nat}
    {arena arena' : Arena} {live live' : List (Activation program)}
    (h : List.Forall₂ (Activation.Mirrors floor floor' arena arena') live live') :
    (suspensions depth live).map (fun s => s.site.location) =
      (suspensions depth' live').map fun s => s.site.location := by
  induction h with
  | nil => rfl
  | @cons b b' rest rest' hb hrest ih =>
      cases hrest with
      | nil => rfl
      | @cons a a' below below' ha hbelow =>
          have hinstruction := ha.instruction?_eq
          cases hi : a.instruction? with
          | none =>
              rw [hi] at hinstruction
              simpa only [suspensions, hi, ← hinstruction] using ih
          | some i =>
              rw [hi] at hinstruction
              by_cases hopcode : i.opcode = .callback
              · rw [suspensions_callback hi hopcode,
                  suspensions_callback hinstruction.symm hopcode, List.map_cons, List.map_cons, ih]
                exact congrArg (· :: _) ha.location_eq
              · simpa only [suspensions, hi, ← hinstruction, if_neg hopcode] using ih

/-- Stopping two runs that wait at the same places masks alike what is masked alike. -/
theorem Interpreter.masked_abandon {suspended suspended' : List Interpreter.Suspension}
    {cause cause' : Fault} {m m' : Machine}
    (hlocations : suspended.map (fun s => s.site.location) =
      suspended'.map fun s => s.site.location)
    (hcause : cause.masked = cause'.masked) :
    (Interpreter.abandon suspended cause m).1.masked =
      (Interpreter.abandon suspended' cause' m').1.masked := by
  induction suspended generalizing suspended' cause cause' m m' with
  | nil =>
      cases suspended' with
      | nil => exact hcause
      | cons s' outer' => simp at hlocations
  | cons s outer ih =>
      cases suspended' with
      | nil => simp at hlocations
      | cons s' outer' =>
          simp only [List.map_cons, List.cons.injEq] at hlocations
          have hwrapped : (Fault.callbackFault s.site.location cause).masked =
              (Fault.callbackFault s'.site.location cause').masked := by
            simp only [Fault.masked, hlocations.1, hcause]
          have hrest : (Interpreter.abandon outer _ (m.fail cause)).1.masked =
              (Interpreter.abandon outer' _ (m'.fail cause')).1.masked :=
            ih hlocations.2 hwrapped
          exact hrest

/-! ## Machines with the same room -/

section Room

variable {program : Program} {depth depth' floor floor' : Nat}
  {live live' below below' : List (Activation program)} {a a' b b' : Activation program}

/-- What is true of the bytes of live frames stays true of them if only bytes above their
windows change. -/
theorem forall₂_of_agree_below {R S : Activation program → Activation program → Prop}
    {arena arena' next next' : Arena} {limit limit' : Nat}
    (hcongr : ∀ a a', R a a' →
      (∀ k < a.window.base + a.window.size, next.cells[k]? = arena.cells[k]?) →
      (∀ k < a'.window.base + a'.window.size, next'.cells[k]? = arena'.cells[k]?) → S a a')
    (h : List.Forall₂ R live live') (hpacked : Packed floor live limit)
    (hpacked' : Packed floor' live' limit')
    (hbytes : ∀ k < limit, next.cells[k]? = arena.cells[k]?)
    (hbytes' : ∀ k < limit', next'.cells[k]? = arena'.cells[k]?) :
    List.Forall₂ S live live' := by
  induction h generalizing limit limit' with
  | nil => exact .nil
  | @cons a a' below below' ha _ ih =>
      have hstop := hpacked.1
      have hstop' := hpacked'.1
      have hbase : a.window.base = a.base := rfl
      have hbase' : a'.window.base = a'.base := rfl
      constructor
      · apply hcongr a a' ha
        · intro k hk
          exact hbytes k (by omega)
        · intro k hk
          exact hbytes' k (by omega)
      · apply ih hpacked.2 hpacked'.2
        · intro k hk
          exact hbytes k (by omega)
        · intro k hk
          exact hbytes' k (by omega)

/-- What happens above the windows of live frames does not keep them from mirroring
each other. -/
theorem mirrors_of_agree_below {arena arena' next next' : Arena} {limit limit' : Nat}
    (h : List.Forall₂ (Activation.Mirrors floor floor' arena arena') live live')
    (hpacked : Packed floor live limit) (hpacked' : Packed floor' live' limit')
    (hbytes : ∀ k < limit, next.cells[k]? = arena.cells[k]?)
    (hbytes' : ∀ k < limit', next'.cells[k]? = arena'.cells[k]?) :
    List.Forall₂ (Activation.Mirrors floor floor' next next') live live' := by
  apply forall₂_of_agree_below _ h hpacked hpacked' hbytes hbytes'
  intro a a' ha hagree hagree'
  exact ⟨ha.function_eq, ha.position_eq, ha.offset_eq, ha.bytes.congr hagree hagree'⟩

namespace Machine

/-- Two machines have the same policy and the same room above the floors of their
runs, and their live frames mirror each other. -/
structure Mirrors (depth floor depth' floor' : Nat) (live live' : List (Activation program))
    (m m' : Machine) : Prop where
  reclaim_eq : m.reclaim = m'.reclaim
  pointer_eq : m.arena.stackPointer + floor' = m'.arena.stackPointer + floor
  arenaRoom_eq : m.arena.capacity + floor' = m'.arena.capacity + floor
  stackRoom_eq : m.stack.capacity + depth' = m'.stack.capacity + depth
  frames : List.Forall₂ (Activation.Mirrors floor floor' m.arena m'.arena) live live'

variable {m m' : Machine}

theorem Mirrors.note (h : Mirrors depth floor depth' floor' live live' m m') (e e' : Event) :
    Mirrors depth floor depth' floor' live live' (m.note e) (m'.note e') :=
  ⟨h.reclaim_eq, h.pointer_eq, h.arenaRoom_eq, h.stackRoom_eq, h.frames⟩

/-- The same is short in both machines, but for the number of call stack slots. -/
theorem Mirrors.shortage_eq (h : Mirrors depth floor depth' floor' live live' m m')
    (hlayout : m.Layout depth floor live) (hlayout' : m'.Layout depth' floor' live')
    (size : Nat) :
    (m.shortage size).map Exhaustion.masked = (m'.shortage size).map Exhaustion.masked := by
  have hlength := h.frames.length_eq
  have hactive := hlayout.active_eq
  have hactive' := hlayout'.active_eq
  have hpointer := h.pointer_eq
  have harena := h.arenaRoom_eq
  have hstack := h.stackRoom_eq
  have hroom : m.stack.hasRoom = m'.stack.hasRoom := by
    simp only [CallStack.hasRoom, hactive, hactive', hlength, decide_eq_decide]
    omega
  have havailable : m.arena.available = m'.arena.available := by
    simp only [Arena.available]
    omega
  unfold shortage
  rw [hroom, havailable]
  split
  · split <;> rfl
  · rfl

/-- Something is short in both machines or in neither. -/
theorem Mirrors.shortage_cases (h : Mirrors depth floor depth' floor' live live' m m')
    (hlayout : m.Layout depth floor live) (hlayout' : m'.Layout depth' floor' live')
    (size : Nat) :
    (∃ need need', m.shortage size = some need ∧ m'.shortage size = some need' ∧
        need.masked = need'.masked) ∨
      (m.shortage size = none ∧ m'.shortage size = none) := by
  have hmasked := h.shortage_eq hlayout hlayout' size
  cases hshort : m.shortage size with
  | none =>
      rw [hshort, Option.map_none, eq_comm, Option.map_eq_none_iff] at hmasked
      exact Or.inr ⟨rfl, hmasked⟩
  | some need =>
      rw [hshort, Option.map_some, eq_comm, Option.map_eq_some_iff] at hmasked
      rcases hmasked with ⟨need', hshort', hneed⟩
      exact Or.inl ⟨need, need', rfl, hshort', hneed.symm⟩

/-- Going on at another place in both innermost frames. -/
theorem Mirrors.modifyActive
    (h : Mirrors depth floor depth' floor' (a :: below) (a' :: below') m m')
    (change change' : Frame → Frame)
    (hframe : Activation.Mirrors floor floor' m.arena m'.arena b b') :
    Mirrors depth floor depth' floor' (b :: below) (b' :: below')
      (m.modifyStack (CallStack.modifyActive change))
      (m'.modifyStack (CallStack.modifyActive change')) where
  reclaim_eq := h.reclaim_eq
  pointer_eq := h.pointer_eq
  arenaRoom_eq := h.arenaRoom_eq
  stackRoom_eq := by simpa using h.stackRoom_eq
  frames := by
    cases h.frames with
    | cons _ hbelow => exact .cons hframe hbelow

theorem Mirrors.head (h : Mirrors depth floor depth' floor' (a :: live) (a' :: live') m m') :
    Activation.Mirrors floor floor' m.arena m'.arena a a' := by
  cases h.frames with
  | cons ha _ => exact ha

theorem Mirrors.advance
    (h : Mirrors depth floor depth' floor' (a :: below) (a' :: below') m m') :
    Mirrors depth floor depth' floor' (a.next :: below) (a'.next :: below')
      (Interpreter.advance m) (Interpreter.advance m') :=
  h.modifyActive _ _ h.head.next

theorem Mirrors.jump
    (h : Mirrors depth floor depth' floor' (a :: below) (a' :: below') m m') (position : Nat) :
    Mirrors depth floor depth' floor' (a.goto position :: below) (a'.goto position :: below')
      (m.modifyStack (CallStack.jump position)) (m'.modifyStack (CallStack.jump position)) :=
  h.modifyActive _ _ (h.head.goto position)

/-- Equal stores at one offset of both innermost frames. -/
theorem Mirrors.store (h : Mirrors depth floor depth' floor' (a :: below) (a' :: below') m m')
    (hlayout : m.Layout depth floor (a :: below))
    (hlayout' : m'.Layout depth' floor' (a' :: below')) (offset : Nat) (bytes : Bytes) :
    Mirrors depth floor depth' floor' (a :: below) (a' :: below')
      (m.modifyArena (Arena.store (a.base + offset) bytes))
      (m'.modifyArena (Arena.store (a'.base + offset) bytes)) where
  reclaim_eq := h.reclaim_eq
  pointer_eq := h.pointer_eq
  arenaRoom_eq := by simpa using h.arenaRoom_eq
  stackRoom_eq := h.stackRoom_eq
  frames := by
    cases h.frames with
    | cons ha hbelow =>
        refine .cons ⟨ha.function_eq, ha.position_eq, ha.offset_eq, ?_⟩ ?_
        · exact ha.bytes.store (hlayout.inside (by simp)) (hlayout'.inside (by simp)) offset bytes
        · apply mirrors_of_agree_below hbelow hlayout.packed.2 hlayout'.packed.2 <;> intro k hk
          · rw [arena_modifyArena, Arena.cells_store, getElem?_overwrite, if_neg (by omega)]
          · rw [arena_modifyArena, Arena.cells_store, getElem?_overwrite, if_neg (by omega)]

/-- A new frame holds zeros, whatever its bytes were before. -/
theorem sameBytes_framed {function : UInt16} {size : UInt32} (hsound : m.Sound)
    (hsound' : m'.Sound) (hroom : m.shortage size.toNat = none)
    (hroom' : m'.shortage size.toNat = none) :
    Window.SameBytes (m.nextWindow size) (m'.nextWindow size) (m.framed function size).arena
      (m'.framed function size).arena where
  size_eq := rfl
  bytes_eq k hk := by
    have hstop := (hsound.inside_nextWindow function hroom).stop_le
    have hstop' := (hsound'.inside_nextWindow function hroom').stop_le
    simp only [nextWindow, framed, Arena.capacity, size_overwrite] at hk hstop hstop' ⊢
    rw [getElem?_overwrite, getElem?_overwrite, List.length_replicate, if_pos (by omega),
      if_pos (by omega), Nat.add_sub_cancel_left, Nat.add_sub_cancel_left]

theorem getElem?_entering {function : UInt16} {d : Descriptor} {inputs : List Bytes} {k : Nat}
    (hk : k < m.arena.stackPointer) :
    (m.entering function d inputs).arena.cells[k]? = m.arena.cells[k]? := by
  have hframed : (m.framed function d.size).arena.cells[k]? = m.arena.cells[k]? := by
    simp only [framed]
    rw [getElem?_overwrite, if_neg (by omega)]
  rw [← hframed]
  exact Window.getElem?_storeSlots_of_lt (w := m.nextWindow d.size) hk _ _

theorem capacity_entering (m : Machine) (function : UInt16) (d : Descriptor)
    (inputs : List Bytes) : (m.entering function d inputs).arena.capacity = m.arena.capacity :=
  (Window.capacity_storeSlots ..).trans (size_overwrite ..)

/-- Equal calls in both innermost frames. -/
theorem Mirrors.entering (h : Mirrors depth floor depth' floor' live live' m m')
    (hlayout : m.Layout depth floor live) (hlayout' : m'.Layout depth' floor' live')
    {function : UInt16} {routine : Routine}
    (hroutine : program.routine? function = some routine)
    (hroom : m.shortage routine.descriptor.size.toNat = none)
    (hroom' : m'.shortage routine.descriptor.size.toNat = none) (inputs : List Bytes) :
    Mirrors depth floor depth' floor'
      (Activation.entered hroutine m.arena.stackPointer :: live)
      (Activation.entered hroutine m'.arena.stackPointer :: live')
      (m.entering function routine.descriptor inputs)
      (m'.entering function routine.descriptor inputs) where
  reclaim_eq := h.reclaim_eq
  pointer_eq := by
    have hpointer := h.pointer_eq
    simp only [Machine.entering, arena_modifyArena, Window.stackPointer_storeSlots, framed]
    omega
  arenaRoom_eq := by
    rw [capacity_entering, capacity_entering]
    exact h.arenaRoom_eq
  stackRoom_eq := by
    have hstack := h.stackRoom_eq
    simpa [Machine.entering, framed, CallStack.capacity] using hstack
  frames := by
    refine .cons ⟨rfl, rfl, h.pointer_eq, ?_⟩ ?_
    · exact (sameBytes_framed hlayout.sound hlayout'.sound hroom hroom').storeSlots
        (hlayout.sound.inside_nextWindow function hroom)
        (hlayout'.sound.inside_nextWindow function hroom') _
    · apply mirrors_of_agree_below h.frames hlayout.packed hlayout'.packed
      · intro k hk
        exact getElem?_entering hk
      · intro k hk
        exact getElem?_entering hk

/-- What the release of a window makes of the arena. -/
theorem arena_releaseFrame (w : Window) (m : Machine) :
    (m.releaseFrame w).arena =
      if m.reclaim = .release ∧ w.stop = m.arena.stackPointer then m.arena.releaseTo w.base
      else m.arena := by
  unfold releaseFrame
  split <;> rfl

/-- What the release of a window makes of the stack pointer. -/
theorem stackPointer_releaseFrame {w : Window} (h : w.base + w.size < Word.count) :
    (m.releaseFrame w).arena.stackPointer =
      if m.reclaim = .release ∧ w.base + w.size = m.arena.stackPointer then w.base
      else m.arena.stackPointer := by
  rw [arena_releaseFrame, Window.stop_of_lt h]
  split
  · rw [Arena.stackPointer_releaseTo]
    omega
  · rfl

theorem releaseFrame_rest (w : Window) (m : Machine) :
    (m.releaseFrame w).arena.cells = m.arena.cells ∧
      (m.releaseFrame w).reclaim = m.reclaim := by
  unfold releaseFrame
  split <;> exact ⟨rfl, rfl⟩

/-- Giving the caller its instruction pointer back does not touch the arena. -/
theorem arena_leaving (m : Machine) (call : Invocation) :
    (m.leaving call).arena =
      ((m.modifyStack (CallStack.unwindTo call.previous)).releaseFrame call.window).arena := by
  rw [leaving, arena_releaseFrame, arena_releaseFrame]
  rfl

/-- A return stores the outputs and changes no other byte. -/
theorem cells_returning (m : Machine) (caller : Nat) (window : Window) (target : Nat)
    (outputs : Bytes) :
    (m.returning caller window target outputs).arena.cells =
      overwrite m.arena.cells target outputs := by
  have hrest := releaseFrame_rest window (m.modifyStack (CallStack.unwindTo caller))
  have hcells : (m.returning caller window target outputs).arena.cells = overwrite
      ((m.modifyStack (CallStack.unwindTo caller)).releaseFrame window).arena.cells target
      outputs := rfl
  rw [hcells, hrest.1]
  rfl

theorem reclaim_returning (m : Machine) (caller : Nat) (window : Window) (target : Nat)
    (outputs : Bytes) : (m.returning caller window target outputs).reclaim = m.reclaim :=
  (releaseFrame_rest window (m.modifyStack (CallStack.unwindTo caller))).2

/-- The innermost frames of both give way, and their windows are released. -/
theorem Mirrors.pop (h : Mirrors depth floor depth' floor' (b :: live) (b' :: live') m m')
    (hlayout : m.Layout depth floor (b :: live))
    (hlayout' : m'.Layout depth' floor' (b' :: live')) (index index' : Nat) :
    Mirrors depth floor depth' floor' live live'
      ((m.modifyStack (CallStack.unwindTo index)).releaseFrame b.window)
      ((m'.modifyStack (CallStack.unwindTo index')).releaseFrame b'.window) := by
  have hrest := releaseFrame_rest b.window (m.modifyStack (CallStack.unwindTo index))
  have hrest' := releaseFrame_rest b'.window (m'.modifyStack (CallStack.unwindTo index'))
  have hcapacity : ((m.modifyStack (CallStack.unwindTo index)).releaseFrame
      b.window).arena.capacity = m.arena.capacity := congrArg Array.size hrest.1
  have hcapacity' : ((m'.modifyStack (CallStack.unwindTo index')).releaseFrame
      b'.window).arena.capacity = m'.arena.capacity := congrArg Array.size hrest'.1
  cases h.frames with
  | cons hb hlive =>
      refine ⟨?_, ?_, ?_, ?_, ?_⟩
      · rw [hrest.2, hrest'.2]
        exact h.reclaim_eq
      · have hpointer := h.pointer_eq
        have hreclaim := h.reclaim_eq
        have hoffset := hb.offset_eq
        have hsize := hb.bytes.size_eq
        have hbase : b.window.base = b.base := rfl
        have hbase' : b'.window.base = b'.base := rfl
        have hleft : ((m.modifyStack (CallStack.unwindTo index)).releaseFrame
            b.window).arena.stackPointer =
              if m.reclaim = .release ∧ b.window.base + b.window.size = m.arena.stackPointer then
                b.window.base
              else m.arena.stackPointer :=
          stackPointer_releaseFrame (hlayout.inside (by simp)).stop_lt
        have hright : ((m'.modifyStack (CallStack.unwindTo index')).releaseFrame
            b'.window).arena.stackPointer =
              if m'.reclaim = .release ∧
                b'.window.base + b'.window.size = m'.arena.stackPointer then b'.window.base
              else m'.arena.stackPointer :=
          stackPointer_releaseFrame (hlayout'.inside (by simp)).stop_lt
        rw [hleft, hright, hreclaim]
        by_cases htop : m'.reclaim = .release ∧
            b.window.base + b.window.size = m.arena.stackPointer
        · rw [if_pos htop, if_pos ⟨htop.1, by omega⟩]
          omega
        · rw [if_neg htop, if_neg (fun htop' => htop ⟨htop'.1, by omega⟩)]
          exact hpointer
      · rw [hcapacity, hcapacity']
        exact h.arenaRoom_eq
      · simpa using h.stackRoom_eq
      · apply mirrors_of_agree_below hlive hlayout.packed.2 hlayout'.packed.2
        · intro k _
          rw [hrest.1]
          rfl
        · intro k _
          rw [hrest'.1]
          rfl

/-- Equal returns from both innermost frames. -/
theorem Mirrors.returning
    (h : Mirrors depth floor depth' floor' (b :: a :: below) (b' :: a' :: below') m m')
    (hlayout : m.Layout depth floor (b :: a :: below))
    (hlayout' : m'.Layout depth' floor' (b' :: a' :: below')) (offset : Nat) (outputs : Bytes) :
    Mirrors depth floor depth' floor' (a.next :: below) (a'.next :: below')
      (m.returning (depth + below.length + 1) b.window (a.base + offset) outputs)
      (m'.returning (depth' + below'.length + 1) b'.window (a'.base + offset) outputs) :=
  ((h.pop hlayout hlayout' _ _).store (hlayout.pop.releaseFrame b.window hlayout.packed.2)
    (hlayout'.pop.releaseFrame b'.window hlayout'.packed.2) offset outputs).advance

end Machine
end Room

end FrameMachine
