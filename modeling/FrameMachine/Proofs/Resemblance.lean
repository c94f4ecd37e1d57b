import FrameMachine.Proofs.Deeds
import FrameMachine.Proofs.Mirrors

/-!
# Frames at unrelated places

Machines of other sizes, or with another reclaim policy, put their frames at places
that have nothing to do with each other.  Two live frames *resemble* each other if they
are at one place of the program and hold the same bytes, wherever they lie.  Live frames
that resemble each other do the same deeds, and afterwards they still resemble each
other.  So two runs do the same as long as neither of them finds something short.

Main results:

- Theorem `Does.transfer`: live frames that resemble each other do the same deeds.
- Theorem `Resembling.apply`: after a deed of both they still resemble each other.
- Theorem `Machine.Snug.apply`: under the release policy, deeds leave no gap between
  the windows of live frames.
-/

namespace FrameMachine

open Machine

/-! ## Resemblance -/

/-- Two activations are at one place of the program and hold the same bytes: each
mirrors the other from its own base. -/
def Activation.Resembles {program : Program} (arena arena' : Arena)
    (a a' : Activation program) : Prop :=
  Mirrors a.base a'.base arena arena' a a'

/-- The live frames of two machines resemble each other, one by one. -/
def Resembling {program : Program} (arena arena' : Arena)
    (live live' : List (Activation program)) : Prop :=
  List.Forall₂ (Activation.Resembles arena arena') live live'

section Resembling

variable {program : Program} {arena arena' : Arena} {depth depth' floor floor' : Nat}
  {live live' below below' : List (Activation program)} {a a' b b' : Activation program}
  {m m' : Machine} {deed : Deed program}

theorem Resembling.head (h : Resembling arena arena' (a :: below) (a' :: below')) :
    Activation.Resembles arena arena' a a' :=
  (List.forall₂_cons.mp h).1

theorem Resembling.tail (h : Resembling arena arena' (a :: below) (a' :: below')) :
    Resembling arena arena' below below' :=
  (List.forall₂_cons.mp h).2

/-- What resembles one live frame is one live frame. -/
theorem Resembling.exists_of_singleton (h : Resembling arena arena' [a] live') :
    ∃ a', live' = [a'] ∧ Activation.Resembles arena arena' a a' := by
  rcases List.forall₂_cons_left_iff.mp h with ⟨a', rest, ha, hrest, rfl⟩
  cases hrest with
  | nil => exact ⟨a', rfl, ha⟩

/-- Only the bytes below the limits of two packed lists matter. -/
theorem Resembling.of_agree_below {after after' : Arena} {limit limit' : Nat}
    (h : Resembling arena arena' live live')
    (hpacked : Packed floor live limit) (hpacked' : Packed floor' live' limit')
    (hbytes : ∀ k < limit, after.cells[k]? = arena.cells[k]?)
    (hbytes' : ∀ k < limit', after'.cells[k]? = arena'.cells[k]?) :
    Resembling after after' live live' := by
  apply forall₂_of_agree_below _ h hpacked hpacked' hbytes hbytes'
  intro a a' ha hagree hagree'
  exact ⟨ha.function_eq, ha.position_eq, ha.offset_eq, ha.bytes.congr hagree hagree'⟩

theorem Resembling.goto (h : Resembling arena arena' (a :: below) (a' :: below'))
    (position : Nat) :
    Resembling arena arena' (a.goto position :: below) (a'.goto position :: below') :=
  .cons (h.head.goto position) h.tail

theorem Resembling.next (h : Resembling arena arena' (a :: below) (a' :: below')) :
    Resembling arena arena' (a.next :: below) (a'.next :: below') :=
  .cons h.head.next h.tail

/-! ## The same deeds -/

/-- Plans that differ only in the places of their windows do the same work. -/
theorem Works.transfer {plan : Plan} {result : Except Fault Plan} {position offset : Nat}
    {bytes : Bytes} (h : Works a plan position offset bytes)
    (halike : Plan.Alike a.window a'.window (.ok plan) result)
    (hsize : a.window.size = a'.window.size) (hposition : a.position = a'.position) :
    ∃ plan', result = .ok plan' ∧ Works a' plan' position offset bytes := by
  cases h with
  | next =>
      cases halike
      rw [hposition]
      exact ⟨_, rfl, .next⟩
  | goto target =>
      cases halike
      exact ⟨_, rfl, .goto target⟩
  | store hfit =>
      -- The two descriptions of the target have to be equated by hand.
      generalize htarget : (⟨a.base + offset, bytes.length⟩ : Address) = target at halike
      cases halike with
      | @store offset' _ hfit' =>
          have hbase : a.base + offset = a.base + offset' := congrArg Address.offset htarget
          have hoffset : offset' = offset := Nat.add_left_cancel hbase.symm
          subst hoffset
          have hfit : offset' + bytes.length ≤ a'.window.size := hsize ▸ hfit
          rw [hposition]
          exact ⟨_, rfl, .store hfit⟩

/-- Live frames that resemble each other do the same deeds. -/
theorem Does.transfer (hdoes : Does m live deed) (h : Resembling m.arena m'.arena live live')
    (hlayout : m.Layout depth floor live) (hlayout' : m'.Layout depth' floor' live') :
    Does m' live' deed := by
  cases hdoes with
  | @work a below i plan position offset bytes hinstruction hplain hplan hworks =>
      cases h with
      | @cons _ a' _ below' ha hbelow =>
          have hagree : a.site.Agree a'.site m m' :=
            ⟨ha.location_eq, ha.bytes, hlayout.inside (a := a) (by simp),
              hlayout'.inside (a := a') (by simp)⟩
          have halike := Plan.alike program program hagree hplain
          rw [hplan] at halike
          rcases hworks.transfer halike ha.bytes.size_eq ha.position_eq with
            ⟨plan', hplan', hworks'⟩
          exact .work (ha.instruction?_eq ▸ hinstruction) hplain hplan' hworks'
  | @enter a below i callee hinstruction hopcode hcallee hfit hslots hvalid =>
      cases h with
      | @cons _ a' _ below' ha hbelow =>
          rw [ha.parts_eq hfit]
          exact .enter (ha.instruction?_eq ▸ hinstruction) hopcode hcallee
            ((ha.outside?_eq _).symm.trans hfit) hslots hvalid
  | @leave b a below j i hreturn hret hinstruction hpass =>
      cases h with
      | @cons _ b' _ rest' hb hrest =>
          cases hrest with
          | @cons _ a' _ below' ha hbelow =>
              rw [hb.outputs_eq (Interpreter.misfit?_of_passing? hpass)]
              refine .leave (hb.instruction?_eq ▸ hreturn) hret
                (ha.instruction?_eq ▸ hinstruction) ?_
              rw [← hb.routine_eq, ← hpass]
              exact (Interpreter.passing?_congr hb.bytes.size_eq ha.bytes.size_eq ha.location_eq
                _ _).symm

/-! ## After a deed of both -/

/-- Equal stores at one offset of both innermost frames. -/
theorem Resembling.store (h : Resembling arena arena' (a :: below) (a' :: below'))
    (hin : a.window.Inside arena) (hin' : a'.window.Inside arena')
    (hpacked : Packed floor below a.base) (hpacked' : Packed floor' below' a'.base)
    (offset : Nat) (bytes : Bytes) :
    Resembling (arena.store (a.base + offset) bytes) (arena'.store (a'.base + offset) bytes)
      (a :: below) (a' :: below') := by
  constructor
  · refine ⟨h.head.function_eq, h.head.position_eq, h.head.offset_eq, ?_⟩
    exact h.head.bytes.store hin hin' offset bytes
  · apply h.tail.of_agree_below hpacked hpacked'
    · intro k hk
      rw [Arena.cells_store, getElem?_overwrite, if_neg (by omega)]
    · intro k hk
      rw [Arena.cells_store, getElem?_overwrite, if_neg (by omega)]

/-- Equal calls in both innermost frames. -/
theorem Resembling.entering (h : Resembling m.arena m'.arena live live')
    (hlayout : m.Layout depth floor live) (hlayout' : m'.Layout depth' floor' live')
    {function : UInt16} {routine : Routine}
    (hroutine : program.routine? function = some routine)
    (hroom : m.shortage routine.descriptor.size.toNat = none)
    (hroom' : m'.shortage routine.descriptor.size.toNat = none) (inputs : List Bytes) :
    Resembling (m.entering function routine.descriptor inputs).arena
      (m'.entering function routine.descriptor inputs).arena
      (Activation.entered hroutine m.arena.stackPointer :: live)
      (Activation.entered hroutine m'.arena.stackPointer :: live') := by
  constructor
  · refine ⟨rfl, rfl, Nat.add_comm .., ?_⟩
    exact (sameBytes_framed hlayout.sound hlayout'.sound hroom hroom').storeSlots
      (hlayout.sound.inside_nextWindow function hroom)
      (hlayout'.sound.inside_nextWindow function hroom') _
  · apply h.of_agree_below hlayout.packed hlayout'.packed
    · intro k hk
      exact getElem?_entering hk
    · intro k hk
      exact getElem?_entering hk

/-- Equal returns from both innermost frames. -/
theorem Resembling.returning
    (h : Resembling m.arena m'.arena (b :: a :: below) (b' :: a' :: below'))
    (hlayout : m.Layout depth floor (b :: a :: below))
    (hlayout' : m'.Layout depth' floor' (b' :: a' :: below')) (offset : Nat) (outputs : Bytes)
    (caller caller' : Nat) :
    Resembling (m.returning caller b.window (a.base + offset) outputs).arena
      (m'.returning caller' b'.window (a'.base + offset) outputs).arena
      (a.next :: below) (a'.next :: below') := by
  have hstored := h.tail.store (hlayout.inside (a := a) (by simp))
    (hlayout'.inside (a := a') (by simp)) hlayout.packed.2.2 hlayout'.packed.2.2 offset outputs
  apply hstored.next.of_agree_below hlayout.pop.packed hlayout'.pop.packed
  · intro k _
    rw [cells_returning, Arena.cells_store]
  · intro k _
    rw [cells_returning, Arena.cells_store]

/-- After a deed of both, live frames still resemble each other. -/
theorem Resembling.apply (h : Resembling m.arena m'.arena live live') (hdoes : Does m live deed)
    (hlayout : m.Layout depth floor live) (hlayout' : m'.Layout depth' floor' live')
    (hroom : deed.shortage? m = none) (hroom' : deed.shortage? m' = none) :
    Resembling (deed.apply depth live m).arena (deed.apply depth' live' m').arena
      (deed.live m.arena.stackPointer live) (deed.live m'.arena.stackPointer live') := by
  cases hdoes with
  | @work a below _ _ position offset bytes _ _ _ _ =>
      cases live' with
      | nil => cases h
      | cons a' below' =>
          exact (h.store (hlayout.inside (a := a) (by simp)) (hlayout'.inside (a := a') (by simp))
            hlayout.packed.2 hlayout'.packed.2 offset bytes).goto position
  | @enter a below _ _ _ _ hcallee _ _ _ =>
      exact h.entering hlayout hlayout' hcallee hroom hroom' _
  | @leave b a below _ _ _ _ _ _ =>
      match live', h with
      | b' :: a' :: below', h => exact h.returning hlayout hlayout' _ _ _ _

/-! ## No gaps -/

/-- The windows of the list adjoin each other, and the topmost one ends at the limit. -/
def Contiguous : List (Activation program) → (limit : Nat) → Prop
  | [], _ => True
  | a :: below, limit => a.window.base + a.window.size = limit ∧ Contiguous below a.base

/-- Under the release policy there is no gap between the windows of live frames, nor
between the topmost one and the stack pointer. -/
def Machine.Snug (m : Machine) (live : List (Activation program)) : Prop :=
  m.reclaim = .release → Contiguous live m.arena.stackPointer

theorem Machine.Snug.congr (h : m.Snug live) (harena : m'.arena = m.arena)
    (hreclaim : m'.reclaim = m.reclaim) : m'.Snug live := by
  intro hrelease
  rw [harena]
  exact h (hreclaim ▸ hrelease)

theorem Machine.Snug.entering (h : m.Snug live) {function : UInt16} {routine : Routine}
    (hroutine : program.routine? function = some routine) (inputs : List Bytes) :
    (m.entering function routine.descriptor inputs).Snug
      (Activation.entered hroutine m.arena.stackPointer :: live) := by
  intro hrelease
  have hpointer : (m.entering function routine.descriptor inputs).arena.stackPointer =
      m.arena.stackPointer + routine.descriptor.size.toNat :=
    Window.stackPointer_storeSlots ..
  rw [hpointer]
  exact ⟨rfl, h hrelease⟩

/-- The stack pointer after the topmost window has been released: under the release policy
it goes back to where that window began. -/
theorem Machine.Snug.stackPointer_release (h : m.Snug (b :: live))
    (hlayout : m.Layout depth floor (b :: live)) (caller : Nat) :
    ((m.modifyStack (CallStack.unwindTo caller)).releaseFrame b.window).arena.stackPointer =
      match m.reclaim with
      | .release => b.base
      | .retain => m.arena.stackPointer := by
  have hreleased :
      ((m.modifyStack (CallStack.unwindTo caller)).releaseFrame b.window).arena.stackPointer =
        if m.reclaim = .release ∧ b.window.base + b.window.size = m.arena.stackPointer then
          b.window.base
        else m.arena.stackPointer :=
    @stackPointer_releaseFrame (m.modifyStack (CallStack.unwindTo caller)) b.window
      (hlayout.inside (a := b) (by simp)).stop_lt
  rw [hreleased]
  cases hreclaim : m.reclaim with
  | release => exact if_pos ⟨rfl, (h hreclaim).1⟩
  | retain => exact if_neg fun hboth => nomatch hboth.1

theorem Machine.Snug.stackPointer_returning (h : m.Snug (b :: live))
    (hlayout : m.Layout depth floor (b :: live)) (caller target : Nat) (outputs : Bytes) :
    (m.returning caller b.window target outputs).arena.stackPointer =
      match m.reclaim with
      | .release => b.base
      | .retain => m.arena.stackPointer :=
  h.stackPointer_release hlayout caller

theorem Machine.Snug.returning (h : m.Snug (b :: a :: below))
    (hlayout : m.Layout depth floor (b :: a :: below)) (caller target : Nat) (outputs : Bytes) :
    (m.returning caller b.window target outputs).Snug (a.next :: below) := by
  intro hrelease
  rw [reclaim_returning] at hrelease
  rw [h.stackPointer_returning hlayout, hrelease]
  exact (h hrelease).2

/-- No deed changes the reclaim policy. -/
theorem Deed.reclaim_apply (deed : Deed program) (depth : Nat)
    (live : List (Activation program)) (m : Machine) :
    (deed.apply depth live m).reclaim = m.reclaim := by
  cases deed with
  | work position offset bytes => cases live <;> rfl
  | enter function callee hcallee inputs => rfl
  | leave offset outputs =>
      match live with
      | [] => rfl
      | [_] => rfl
      | _ :: _ :: _ => exact reclaim_returning ..

/-- Deeds leave no gap. -/
theorem Machine.Snug.apply (h : m.Snug live) (hdoes : Does m live deed)
    (hlayout : m.Layout depth floor live) :
    (deed.apply depth live m).Snug (deed.live m.arena.stackPointer live) := by
  cases hdoes with
  | work _ _ _ _ => exact h
  | enter _ _ hcallee _ _ _ => exact h.entering hcallee _
  | leave _ _ _ _ => exact h.returning hlayout _ _ _

end Resembling
end FrameMachine
