import FrameMachine.Proofs.Accounts
import FrameMachine.Proofs.Addresses

/-!
# Windows handed out

Whoever allocates frames by hand may release their windows in any order.  A release takes
effect only if the window happens to end at the stack pointer, and is ignored otherwise; so
the outstanding windows are no stack, and empty ones may come to lie anywhere.  A *holding*
is a machine with the windows that it has handed out and that are not released yet.  It is
*safe* if these windows share no byte and if those with bytes lie below the stack pointer.
That is enough to allocate the next window at the stack pointer, and it survives every
request.

Main results:

- Theorem `leads_of_ask`: what a request may change.
- Theorems `Safe.pushed` and `Safe.released`: allocating a frame and releasing any held
  window keep a holding safe.
- Theorem `askAll_safe`: so does every sequence of requests.
- Theorem `windows_stay_apart`: what all holdings of a fresh machine have in common.
-/

namespace FrameMachine

/-! ## Windows apart -/

/-- Two windows share no byte. -/
def Window.Apart (w v : Window) : Prop := ¬ ∃ k, w.Covers k ∧ v.Covers k

namespace Window

variable {w v : Window}

theorem Apart.symm (h : w.Apart v) : v.Apart w :=
  fun ⟨k, hv, hw⟩ => h ⟨k, hw, hv⟩

/-- A window that starts behind the end of another one is apart from it. -/
theorem apart_of_le (h : 0 < v.size → v.base + v.size ≤ w.base) : w.Apart v := by
  rintro ⟨k, hw, hv⟩
  simp only [Covers] at hw hv
  have hle := h (by omega)
  omega

/-- Of two windows that are apart and hold bytes, the one that does not end behind the other
one ends where that starts, or before. -/
theorem Apart.le_base (h : w.Apart v) (hw : 0 < w.size) (hv : 0 < v.size)
    (hle : v.base + v.size ≤ w.base + w.size) : v.base + v.size ≤ w.base := by
  have hnot := mt (exists_covers_iff hw hv).mpr h
  omega

end Window

namespace Machine

/-! ## Requests of a holder -/

/-- A machine with the windows that it has handed out and that are not released yet. -/
structure Holding where
  machine : Machine
  windows : List Window
  deriving Repr, DecidableEq

namespace Holding

/-- What a holder of windows may ask of the machine. -/
inductive Request where
  | push (operator : UInt16) (size : UInt32)
  | release (window : Window)
  | unwind (index : Nat)
  | access (op : Arena.Operation)
  deriving Repr, DecidableEq

/-- The holding after a request, whether it is fulfilled or not.  Only windows that are held
may be released, and the bytes of the arena are accessed without allocating or releasing
any. -/
def ask (held : Holding) : Request → Option Holding
  | .push operator size =>
      match pushFrame operator size held.machine with
      | .ok window m => some ⟨m, window :: held.windows⟩
      | .error _ m => some ⟨m, held.windows⟩
  | .release window =>
      if window ∈ held.windows then
        some ⟨held.machine.releaseFrame window, held.windows.erase window⟩
      else none
  | .unwind index => some ⟨held.machine.modifyStack (CallStack.unwindTo index), held.windows⟩
  | .access op =>
      if op.allocates then none
      else some ⟨after (onArena (Arena.perform op) held.machine), held.windows⟩

/-- The holding after a sequence of requests. -/
def askAll (held : Holding) : List Request → Option Holding
  | [] => some held
  | r :: rest => (held.ask r).bind fun next => next.askAll rest

/-- The holding of a fresh machine. -/
def fresh (c : Config) : Holding := ⟨ofConfig c, []⟩

/-- What a request leads to: another window is handed out at the stack pointer, a held one
is released, or nothing changes that concerns the windows. -/
inductive Leads (held : Holding) : Holding → Prop
  | pushed (operator : UInt16) {size : UInt32}
      (hroom : held.machine.shortage size.toNat = none) :
      Leads held ⟨held.machine.framed operator size,
        held.machine.nextWindow size :: held.windows⟩
  | released {window : Window} (hwindow : window ∈ held.windows) :
      Leads held ⟨held.machine.releaseFrame window, held.windows.erase window⟩
  | kept {m : Machine} (hpointer : m.arena.stackPointer = held.machine.arena.stackPointer)
      (hcapacity : m.arena.capacity = held.machine.arena.capacity)
      (hreclaim : m.reclaim = held.machine.reclaim) : Leads held ⟨m, held.windows⟩

section Requests

variable {held later : Holding} {r : Request} {requests : List Request}

theorem leads_of_ask (h : held.ask r = some later) : Leads held later := by
  cases r with
  | push operator size =>
      simp only [ask, pushFrame_eq] at h
      cases hroom : held.machine.shortage size.toNat with
      | some need =>
          simp only [hroom, Option.some.injEq] at h
          subst h
          exact .kept rfl rfl rfl
      | none =>
          simp only [hroom, Option.some.injEq] at h
          subst h
          exact .pushed operator hroom
  | release window =>
      simp only [ask] at h
      split at h
      · rename_i hwindow
        cases h
        exact .released hwindow
      · contradiction
  | unwind index =>
      cases h
      exact .kept rfl rfl rfl
  | access op =>
      simp only [ask] at h
      split at h
      · contradiction
      · rename_i haccess
        cases h
        have harena := arena_onArena (Arena.perform op) held.machine
        refine .kept ?_ ?_ (reclaim_onArena ..)
        · rw [harena]
          exact Arena.perform_stackPointer (Bool.eq_false_iff.mpr haccess) _
        · rw [harena]
          exact Arena.perform_capacity op _

/-- What every request keeps, a sequence of requests keeps. -/
theorem askAll_keeps {P : Holding → Prop}
    (hstep : ∀ held later, P held → Leads held later → P later) (h : P held)
    (hlater : held.askAll requests = some later) : P later := by
  induction requests generalizing held with
  | nil =>
      cases hlater
      exact h
  | cons r rest ih =>
      rcases Option.bind_eq_some_iff.mp hlater with ⟨next, hnext, hrest⟩
      exact ih (hstep held next h (leads_of_ask hnext)) hrest

end Requests

/-! ## What every request keeps -/

section Keeping

variable {held later : Holding} {requests : List Request}

/-- Neither the size of the arena nor the policy ever changes. -/
theorem Leads.parts_eq (h : Leads held later) :
    later.machine.arena.capacity = held.machine.arena.capacity ∧
      later.machine.reclaim = held.machine.reclaim := by
  cases h with
  | pushed _ _ => exact ⟨size_overwrite .., rfl⟩
  | @released window _ =>
      have hrest := releaseFrame_rest window held.machine
      exact ⟨congrArg Array.size hrest.1, hrest.2⟩
  | kept _ hcapacity hreclaim => exact ⟨hcapacity, hreclaim⟩

/-- Under the retain policy the stack pointer is never lowered. -/
theorem Leads.stackPointer_le (h : Leads held later) (hretain : held.machine.reclaim = .retain) :
    held.machine.arena.stackPointer ≤ later.machine.arena.stackPointer := by
  cases h with
  | pushed _ _ => exact Nat.le_add_right _ _
  | released _ =>
      dsimp only
      rw [releaseFrame_of_retain hretain]
  | kept hpointer _ _ => exact Nat.le_of_eq hpointer.symm

theorem askAll_parts_eq (h : held.askAll requests = some later) :
    later.machine.arena.capacity = held.machine.arena.capacity ∧
      later.machine.reclaim = held.machine.reclaim := by
  refine askAll_keeps (P := fun x => x.machine.arena.capacity = held.machine.arena.capacity ∧
    x.machine.reclaim = held.machine.reclaim) ?_ ⟨rfl, rfl⟩ h
  intro x y hx hy
  exact ⟨hy.parts_eq.1.trans hx.1, hy.parts_eq.2.trans hx.2⟩

theorem stackPointer_le_of_retain (h : held.askAll requests = some later)
    (hretain : held.machine.reclaim = .retain) :
    held.machine.arena.stackPointer ≤ later.machine.arena.stackPointer := by
  have hboth : later.machine.reclaim = .retain ∧
      held.machine.arena.stackPointer ≤ later.machine.arena.stackPointer := by
    refine askAll_keeps (P := fun x => x.machine.reclaim = .retain ∧
      held.machine.arena.stackPointer ≤ x.machine.arena.stackPointer) ?_
      ⟨hretain, Nat.le_refl _⟩ h
    intro x y hx hy
    exact ⟨hy.parts_eq.2.trans hx.1, Nat.le_trans hx.2 (hy.stackPointer_le hx.1)⟩
  exact hboth.2

end Keeping

/-! ## Safe holdings -/

/-- The held windows lie in the arena and share no byte, and those that hold bytes lie below
the stack pointer. -/
structure Safe (held : Holding) : Prop where
  capacity_le : held.machine.arena.capacity ≤ Config.memoryLimit
  stackPointer_le : held.machine.arena.stackPointer ≤ held.machine.arena.capacity
  stop_le : ∀ w ∈ held.windows, w.base + w.size ≤ held.machine.arena.capacity
  below : ∀ w ∈ held.windows, 0 < w.size →
    w.base + w.size ≤ held.machine.arena.stackPointer
  apart : held.windows.Pairwise Window.Apart

section Safe

variable {held later : Holding} {requests : List Request} {window : Window} {size : UInt32}

theorem safe_fresh {c : Config} (h : c.validate = .ok ()) : (fresh c).Safe where
  capacity_le := (sound_ofConfig h).capacity_le
  stackPointer_le := Nat.zero_le _
  stop_le := nofun
  below := nofun
  apart := List.Pairwise.nil

/-- A new window starts behind all bytes that are held. -/
theorem Safe.pushed (h : held.Safe) (operator : UInt16)
    (hroom : held.machine.shortage size.toNat = none) :
    Safe ⟨held.machine.framed operator size,
      held.machine.nextWindow size :: held.windows⟩ := by
  have hcapacity : (held.machine.framed operator size).arena.capacity =
      held.machine.arena.capacity := size_overwrite ..
  have hfit : held.machine.arena.stackPointer + size.toNat ≤ held.machine.arena.capacity := by
    have hpointer := h.stackPointer_le
    have hsize := available_of_shortage_eq_none hroom
    rw [Arena.available] at hsize
    omega
  refine ⟨?_, ?_, ?_, ?_, ?_⟩
  · exact hcapacity ▸ h.capacity_le
  · exact hcapacity ▸ hfit
  · rw [List.forall_mem_cons]
    exact hcapacity ▸ ⟨hfit, h.stop_le⟩
  · rw [List.forall_mem_cons]
    refine ⟨fun _ => Nat.le_refl _, fun w hw hpos => ?_⟩
    exact Nat.le_trans (h.below w hw hpos) (Nat.le_add_right _ _)
  · rw [List.pairwise_cons]
    exact ⟨fun w hw => Window.apart_of_le (h.below w hw), h.apart⟩

/-- The other windows are apart from the one that is released. -/
theorem Safe.apart_of_mem_erase (h : held.Safe) (hwindow : window ∈ held.windows) :
    ∀ w ∈ held.windows.erase window, window.Apart w := by
  have hperm := List.perm_cons_erase hwindow
  exact (List.pairwise_cons.mp ((hperm.pairwise_iff Window.Apart.symm).mp h.apart)).1

/-- If a release lowers the stack pointer, the window that is released held the last bytes
below it, or none. -/
theorem Safe.released (h : held.Safe) (hwindow : window ∈ held.windows) :
    Safe ⟨held.machine.releaseFrame window, held.windows.erase window⟩ := by
  have hcapacity : (held.machine.releaseFrame window).arena.capacity =
      held.machine.arena.capacity := congrArg Array.size (releaseFrame_rest window _).1
  have hinside : window.Inside held.machine.arena := ⟨h.stop_le window hwindow, h.capacity_le⟩
  have hpointer : (held.machine.releaseFrame window).arena.stackPointer =
      if held.machine.reclaim = .release ∧
        window.base + window.size = held.machine.arena.stackPointer then window.base
      else held.machine.arena.stackPointer :=
    stackPointer_releaseFrame hinside.stop_lt
  have hmem {w : Window} (hw : w ∈ held.windows.erase window) : w ∈ held.windows :=
    List.mem_of_mem_erase hw
  refine ⟨hcapacity ▸ h.capacity_le, ?_, ?_, ?_, h.apart.sublist List.erase_sublist⟩
  · have hle := h.stackPointer_le
    rw [hcapacity, hpointer]
    split <;> omega
  · exact fun w hw => hcapacity ▸ h.stop_le w (hmem hw)
  · intro w hw hpos
    have hbelow := h.below w (hmem hw) hpos
    rw [hpointer]
    split
    · rename_i htop
      -- the release of an empty window leaves the stack pointer where it is
      rcases Nat.eq_zero_or_pos window.size with hempty | hfull
      · omega
      · exact (h.apart_of_mem_erase hwindow w hw).le_base hfull hpos (by omega)
    · exact hbelow

theorem Safe.leads (h : held.Safe) (hlater : Leads held later) : later.Safe := by
  cases hlater with
  | pushed operator hroom => exact h.pushed operator hroom
  | released hwindow => exact h.released hwindow
  | kept hpointer hcapacity _ =>
      exact ⟨hcapacity ▸ h.capacity_le, hpointer ▸ hcapacity ▸ h.stackPointer_le,
        hcapacity ▸ h.stop_le, hpointer ▸ h.below, h.apart⟩

/-- Holdings stay safe, whatever is asked. -/
theorem askAll_safe (h : held.Safe) (hlater : held.askAll requests = some later) : later.Safe :=
  askAll_keeps (fun _ _ hheld hleads => hheld.leads hleads) h hlater

/-- A frame that is allocated gets zeroed bytes at the stack pointer.  If it is not allocated,
something is short and nothing has changed. -/
theorem pushFrame_zeroed (h : held.Safe) (operator : UInt16) (size : UInt32) :
    match pushFrame operator size held.machine with
    | .ok window m =>
        window = ⟨held.machine.arena.stackPointer, size.toNat⟩ ∧
          ∀ k, window.Covers k → m.arena.cells[k]? = some 0
    | .error need m => m = held.machine ∧ held.machine.shortage size.toNat = some need := by
  rw [pushFrame_eq]
  cases hroom : held.machine.shortage size.toNat with
  | some need => exact ⟨rfl, rfl⟩
  | none =>
      refine ⟨rfl, fun k hk => ?_⟩
      have hpointer := h.stackPointer_le
      have hsize := available_of_shortage_eq_none hroom
      simp only [Arena.available, Arena.capacity] at hpointer hsize
      simp only [Window.Covers, nextWindow] at hk
      simp only [framed, getElem?_overwrite, List.length_replicate]
      rw [if_pos (by omega), List.getElem?_replicate, if_pos (by omega)]

end Safe

/-! ## Holdings of a fresh machine -/

section Fresh

variable {c : Config} {requests : List Request} {held : Holding}

/-- After any requests to a fresh machine, whatever its policy and in whatever order windows
are released: the held windows share no byte, those that hold bytes lie below the stack
pointer, and this lies in the arena, whose size never changes.  Under the retain policy
the stack pointer is never lowered later on.  A frame that is allocated now gets zeroed
bytes at the stack pointer; if it is not allocated, something is short and nothing has
changed. -/
theorem windows_stay_apart (hvalid : c.validate = .ok ())
    (hheld : (fresh c).askAll requests = some held) :
    held.windows.Pairwise Window.Apart ∧
    (∀ w ∈ held.windows, 0 < w.size → w.base + w.size ≤ held.machine.arena.stackPointer) ∧
    held.machine.arena.stackPointer ≤ held.machine.arena.capacity ∧
    held.machine.arena.capacity = c.memorySize ∧
    (c.reclaim = .retain → ∀ more later, held.askAll more = some later →
      held.machine.arena.stackPointer ≤ later.machine.arena.stackPointer) ∧
    ∀ operator size,
      match pushFrame operator size held.machine with
      | .ok window m =>
          window = ⟨held.machine.arena.stackPointer, size.toNat⟩ ∧
            ∀ k, window.Covers k → m.arena.cells[k]? = some 0
      | .error need m => m = held.machine ∧ held.machine.shortage size.toNat = some need := by
  have hsafe := askAll_safe (safe_fresh hvalid) hheld
  rcases askAll_parts_eq hheld with ⟨hcapacity, hreclaim⟩
  refine ⟨hsafe.apart, hsafe.below, hsafe.stackPointer_le, ?_, ?_, pushFrame_zeroed hsafe⟩
  · exact hcapacity.trans Array.size_replicate
  · intro hretain more later hlater
    exact stackPointer_le_of_retain hlater (hreclaim.trans hretain)

/-- Windows of four, no and four bytes: releasing the first of them has no effect, but
releasing the last one makes room for two more bytes, in front of which the empty window
stays.  If all windows are retained, the stack pointer stays behind them. -/
theorem windows_stay_apart_scattered :
    (∃ held, (fresh ⟨16, 6, .release⟩).askAll
        [.push 0 4, .push 1 0, .push 2 4, .release ⟨0, 4⟩, .access (.write 4 [1, 2]),
          .release ⟨4, 4⟩, .unwind 1, .push 3 2] = some held ∧
      held.windows = [⟨4, 2⟩, ⟨4, 0⟩] ∧ held.windows.Pairwise Window.Apart) ∧
    ∃ held later, (fresh ⟨16, 6, .retain⟩).askAll [.push 0 4, .push 1 0] = some held ∧
      held.askAll [.release ⟨0, 4⟩, .release ⟨4, 0⟩] = some later ∧ later.windows = [] ∧
      held.machine.arena.stackPointer ≤ later.machine.arena.stackPointer := by
  constructor
  · have hrun : ((fresh ⟨16, 6, .release⟩).askAll
        [.push 0 4, .push 1 0, .push 2 4, .release ⟨0, 4⟩, .access (.write 4 [1, 2]),
          .release ⟨4, 4⟩, .unwind 1, .push 3 2]).map Holding.windows =
            some [⟨4, 2⟩, ⟨4, 0⟩] := by
      decide +kernel
    rcases Option.map_eq_some_iff.mp hrun with ⟨held, hheld, hwindows⟩
    exact ⟨held, hheld, hwindows, (windows_stay_apart rfl hheld).1⟩
  · have hrun : ((fresh ⟨16, 6, .retain⟩).askAll [.push 0 4, .push 1 0]).isSome = true := by
      decide +kernel
    rcases Option.isSome_iff_exists.mp hrun with ⟨held, hheld⟩
    have hmore : ((fresh ⟨16, 6, .retain⟩).askAll [.push 0 4, .push 1 0]).bind
        (fun held => (held.askAll [.release ⟨0, 4⟩, .release ⟨4, 0⟩]).map Holding.windows) =
          some [] := by
      decide +kernel
    rw [hheld] at hmore
    rcases Option.map_eq_some_iff.mp hmore with ⟨later, hlater, hnone⟩
    have hretain := (windows_stay_apart rfl hheld).2.2.2.2.1 rfl
    exact ⟨held, later, hheld, hlater, hnone, hretain _ later hlater⟩

end Fresh

end Holding
end Machine
end FrameMachine
