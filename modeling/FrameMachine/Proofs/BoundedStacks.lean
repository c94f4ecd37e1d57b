import FrameMachine.Proofs.Soundness

/-!
# The call stack as a list of frames

A call stack never gives up a slot: what lies above the active one stays there until it is
overwritten.  To its users it is a list of frames of bounded length, from the root frame up
to the active one.  This file gives the requests to a call stack their meaning on such
lists and shows that a call stack carries them out on its live frames, whatever the slots
above them hold.

Main results:

- Theorem `CallStack.perform_follows`: a call stack does to its live frames what the request
  does to a list of frames.
- Theorem `CallStack.performAll_follows`: so do all requests to a fresh stack, one after
  another, and the active slot always exists.
-/

namespace FrameMachine

/-! ## Lists of frames -/

/-- The frames in use, from the root frame to the active one, and how many there may be. -/
structure BoundedStack where
  capacity : Nat
  frames : List Frame
  deriving Repr, DecidableEq

namespace BoundedStack

/-- Only the root frame is in use. -/
def empty (capacity : Nat) : BoundedStack := ⟨capacity, [{}]⟩

/-- A request can be fulfilled: there is room for a frame that is pushed, and a frame that is
restored is in use. -/
def Permits (b : BoundedStack) : CallStack.Operation → Prop
  | .push _ _ => b.frames.length < b.capacity
  | .restore index _ => index < b.frames.length
  | .unwindTo _ | .frame _ | .assign _ => True

instance (b : BoundedStack) : (op : CallStack.Operation) → Decidable (b.Permits op)
  | .push _ _ => inferInstanceAs (Decidable (_ < _))
  | .restore _ _ => inferInstanceAs (Decidable (_ < _))
  | .unwindTo _ | .frame _ | .assign _ => inferInstanceAs (Decidable True)

/-- What a request that is fulfilled does to the frames in use. -/
def applied (frames : List Frame) : CallStack.Operation → List Frame
  | .push operator framePointer => frames ++ [⟨some operator, 0, framePointer⟩]
  | .unwindTo index => if index + 1 < frames.length then frames.take (index + 1) else frames
  | .restore index instructionPointer =>
      (frames.take (index + 1)).modify index fun f =>
        { f with instructionPointer := instructionPointer }
  | .frame _ => frames
  | .assign new => frames.modify (frames.length - 1) new.apply

/-- What a request that is fulfilled leaves behind. -/
def apply (b : BoundedStack) (op : CallStack.Operation) : BoundedStack :=
  ⟨b.capacity, applied b.frames op⟩

/-- The stack after a request; one that is not permitted does nothing. -/
def step (b : BoundedStack) (op : CallStack.Operation) : BoundedStack :=
  if b.Permits op then b.apply op else b

/-- The stack after a sequence of requests. -/
def stepAll (b : BoundedStack) (ops : List CallStack.Operation) : BoundedStack :=
  ops.foldl step b

/-- What a request that is fulfilled may bring back: the index of a new frame, or a frame, of
which only those in use are known here. -/
def Answers (b : BoundedStack) : CallStack.Operation → CallStack.Answer → Prop
  | .push _ _, answer => answer = .index b.frames.length
  | .frame index, answer => index < b.frames.length → answer = .frame b.frames[index]?
  | _, answer => answer = .done

/-- Why a request is not fulfilled. -/
inductive Refuses (b : BoundedStack) : CallStack.Operation → CallStack.Failure → Prop
  | push {operator : UInt16} {framePointer : Nat} (h : ¬ b.frames.length < b.capacity) :
      Refuses b (.push operator framePointer) (.exhausted (.callStack b.capacity))
  | restore {index instructionPointer : Nat} (h : ¬ index < b.frames.length) :
      Refuses b (.restore index instructionPointer) (.desync ⟨index, b.frames.length - 1⟩)

theorem Refuses.not_permits {b : BoundedStack} {op : CallStack.Operation}
    {e : CallStack.Failure} (h : b.Refuses op e) : ¬ b.Permits op := by
  cases h with
  | push h => exact h
  | restore h => exact h

end BoundedStack

/-! ## Live frames -/

namespace CallStack

/-- The frames up to the active one. -/
def live (s : CallStack) : List Frame := s.frames.toList.take (s.activeIndex + 1)

/-- The call stack without its stale frames. -/
def bounded (s : CallStack) : BoundedStack := ⟨s.capacity, s.live⟩

section Live

variable {s : CallStack}

theorem bounded_empty (capacity : Nat) :
    (empty capacity).bounded = BoundedStack.empty (max capacity 1) := by
  obtain ⟨n, hn⟩ : ∃ n, max capacity 1 = n + 1 := ⟨max capacity 1 - 1, by omega⟩
  simp [bounded, live, empty, BoundedStack.empty, CallStack.capacity, hn, List.replicate_succ]

theorem length_live (h : s.activeIndex < s.capacity) : s.live.length = s.activeIndex + 1 := by
  rw [capacity] at h
  simp only [live, List.length_take, Array.length_toList]
  omega

theorem getElem?_live {index : Nat} (h : index ≤ s.activeIndex) :
    s.live[index]? = s.frames[index]? := by
  rw [live, List.getElem?_take, if_pos (by omega), Array.getElem?_toList]

/-- The active frame is the last live one. -/
theorem getLast?_live (h : s.activeIndex < s.capacity) : s.live.getLast? = some s.active := by
  rw [List.getLast?_eq_getElem?, length_live h, Nat.add_sub_cancel,
    getElem?_live (Nat.le_refl _), active]
  rw [capacity] at h
  simp [h]

/-- A new frame is live above the others, whatever its slot held before. -/
theorem live_push {operator : UInt16} {framePointer : Nat} {frames : Array Frame} {active : Nat}
    (h : active + 1 < frames.size) :
    live ⟨frames.setIfInBounds (active + 1) ⟨some operator, 0, framePointer⟩, active + 1⟩ =
      live ⟨frames, active⟩ ++ [⟨some operator, 0, framePointer⟩] := by
  simp only [live, Array.toList_setIfInBounds]
  -- The slots below the new frame are not written to, and its own slot is now live.
  rw [List.take_add_one, List.take_set_of_le (Nat.le_refl _), List.getElem?_set_self h]
  rfl

theorem live_unwindTo (s : CallStack) (h : s.activeIndex < s.capacity) (index : Nat) :
    (s.unwindTo index).live = BoundedStack.applied s.live (.unwindTo index) := by
  simp only [BoundedStack.applied, length_live h]
  simp only [live, frames_unwindTo, activeIndex_unwindTo]
  by_cases hindex : index < s.activeIndex
  · rw [if_pos (by omega), List.take_take]
    congr 1
    omega
  · rw [if_neg (by omega), Nat.min_eq_right (by omega)]

theorem live_modifyActive (s : CallStack) (change : Frame → Frame) :
    (s.modifyActive change).live = s.live.modify s.activeIndex change := by
  simp only [live, frames_modifyActive, activeIndex_modifyActive, Array.toList_modify,
    List.take_modify]

theorem getElem?_modifyActive_of_lt (change : Frame → Frame) {k : Nat} (hk : s.activeIndex < k) :
    (s.modifyActive change).frames[k]? = s.frames[k]? := by
  rw [frames_modifyActive, Array.getElem?_modify, if_neg (Nat.ne_of_lt hk)]

theorem live_of_le {index : Nat} (h : index ≤ s.activeIndex) :
    live ⟨s.frames, index⟩ = s.live.take (index + 1) := by
  rw [live, live, List.take_take, Nat.min_eq_left (by omega)]

end Live

/-! ## One request -/

/-- The outcome of a request to a call stack is that of the request to its live frames.  Slots
that lie above the active one afterwards are not touched. -/
def Follows (s : CallStack) (op : Operation) : EStateM.Result Failure CallStack Answer → Prop
  | .ok answer next =>
      s.bounded.Permits op ∧ s.bounded.Answers op answer ∧
        next.bounded = s.bounded.apply op ∧
        ∀ k, next.activeIndex < k → next.frames[k]? = s.frames[k]?
  | .error e same => ¬ s.bounded.Permits op ∧ s.bounded.Refuses op e ∧ same = s

section Requests

variable {s : CallStack}

/-- A request that is fulfilled keeps the number of slots. -/
theorem bounded_eq {op : Operation} {answer : Answer} {next : CallStack}
    (hresult : perform op s = .ok answer next)
    (hlive : next.live = BoundedStack.applied s.live op) :
    next.bounded = s.bounded.apply op := by
  have hcapacity : next.capacity = s.capacity := by
    rw [← perform_capacity op s, hresult]
    rfl
  rw [bounded, hcapacity, hlive]
  rfl

theorem follows_of_refuses {op : Operation} {e : Failure} (h : s.bounded.Refuses op e) :
    s.Follows op (.error e s) :=
  ⟨h.not_permits, h, rfl⟩

theorem push_follows (h : s.activeIndex < s.capacity) (operator : UInt16) (framePointer : Nat) :
    s.Follows (.push operator framePointer) (perform (.push operator framePointer) s) := by
  have hlength : s.bounded.frames.length = s.activeIndex + 1 := length_live h
  by_cases hroom : s.activeIndex + 1 < s.capacity
  · have hresult : perform (.push operator framePointer) s =
        .ok (.index (s.activeIndex + 1))
          ⟨s.frames.setIfInBounds (s.activeIndex + 1) ⟨some operator, 0, framePointer⟩,
            s.activeIndex + 1⟩ := by
      simp [perform, push, hasRoom, hroom]
    have hpermits : s.bounded.frames.length < s.capacity := by omega
    rw [hresult]
    refine ⟨hpermits, ?_, bounded_eq hresult (live_push hroom), ?_⟩
    · exact congrArg Answer.index hlength.symm
    · intro k hk
      rw [Array.getElem?_setIfInBounds_ne (Nat.ne_of_lt hk)]
  · have hfull : s.bounded.Refuses (.push operator framePointer)
        (.exhausted (.callStack s.capacity)) :=
      .push (by rw [hlength]; exact hroom)
    simpa [perform, push, hasRoom, hroom] using follows_of_refuses hfull

theorem unwindTo_follows (h : s.activeIndex < s.capacity) (index : Nat) :
    s.Follows (.unwindTo index) (perform (.unwindTo index) s) :=
  ⟨trivial, rfl, bounded_eq rfl (live_unwindTo s h index), fun _ _ => rfl⟩

theorem restore_follows (h : s.activeIndex < s.capacity) (index instructionPointer : Nat) :
    s.Follows (.restore index instructionPointer)
      (perform (.restore index instructionPointer) s) := by
  have hlength : s.bounded.frames.length = s.activeIndex + 1 := length_live h
  by_cases hindex : index ≤ s.activeIndex
  · have hresult : perform (.restore index instructionPointer) s =
        .ok .done (jump instructionPointer ⟨s.frames, index⟩) := by
      simp [perform, restore, hindex]
    have hlive : (jump instructionPointer ⟨s.frames, index⟩).live =
        BoundedStack.applied s.live (.restore index instructionPointer) := by
      rw [jump, live_modifyActive, live_of_le hindex]
      rfl
    have hpermits : index < s.bounded.frames.length := by omega
    rw [hresult]
    exact ⟨hpermits, rfl, bounded_eq hresult hlive, fun _ hk => getElem?_modifyActive_of_lt _ hk⟩
  · have habove : s.bounded.Refuses (.restore index instructionPointer)
        (.desync ⟨index, s.bounded.frames.length - 1⟩) :=
      .restore (by omega)
    rw [hlength, Nat.add_sub_cancel] at habove
    simpa [perform, restore, hindex] using follows_of_refuses habove

theorem frame_follows (h : s.activeIndex < s.capacity) (index : Nat) :
    s.Follows (.frame index) (perform (.frame index) s) := by
  refine ⟨trivial, ?_, rfl, fun _ _ => rfl⟩
  intro hindex
  have hlength : s.bounded.frames.length = s.activeIndex + 1 := length_live h
  exact congrArg Answer.frame (getElem?_live (by omega)).symm

theorem assign_follows (h : s.activeIndex < s.capacity) (new : Assignment) :
    s.Follows (.assign new) (perform (.assign new) s) := by
  have hlive : (s.modifyActive new.apply).live = BoundedStack.applied s.live (.assign new) := by
    rw [live_modifyActive, BoundedStack.applied, length_live h, Nat.add_sub_cancel]
  exact ⟨trivial, rfl, bounded_eq rfl hlive, fun _ hk => getElem?_modifyActive_of_lt _ hk⟩

/-- A call stack does to its live frames what the request does to a list of frames; if it is
refused, it changes nothing, stale frames included. -/
theorem perform_follows (h : s.activeIndex < s.capacity) (op : Operation) :
    s.Follows op (perform op s) := by
  cases op with
  | push operator framePointer => exact push_follows h operator framePointer
  | unwindTo index => exact unwindTo_follows h index
  | restore index instructionPointer => exact restore_follows h index instructionPointer
  | frame index => exact frame_follows h index
  | assign new => exact assign_follows h new

end Requests

/-! ## Requests to a fresh stack -/

/-- The call stack after a sequence of requests, fulfilled or not. -/
def performAll (s : CallStack) (ops : List Operation) : CallStack :=
  ops.foldl (fun s op => after (perform op s)) s

section Sequences

variable {s : CallStack}

theorem bounded_after_perform (h : s.activeIndex < s.capacity) (op : Operation) :
    (after (perform op s)).bounded = s.bounded.step op := by
  have hfollows := perform_follows h op
  unfold BoundedStack.step
  cases hresult : perform op s with
  | ok answer next =>
      rw [hresult] at hfollows
      rw [if_pos hfollows.1]
      exact hfollows.2.2.1
  | error e same =>
      rw [hresult] at hfollows
      rw [if_neg hfollows.1]
      exact congrArg bounded hfollows.2.2

/-- The live frames evolve like the list, and the active slot always exists. -/
theorem performAll_bounded (h : s.activeIndex < s.capacity) (ops : List Operation) :
    (s.performAll ops).bounded = s.bounded.stepAll ops ∧
      (s.performAll ops).capacity = s.capacity ∧
      (s.performAll ops).activeIndex < (s.performAll ops).capacity := by
  induction ops generalizing s with
  | nil => exact ⟨rfl, rfl, h⟩
  | cons op rest ih =>
      rcases ih (perform_activeIndex_lt op h) with ⟨hbounded, hcapacity, hactive⟩
      rw [bounded_after_perform h] at hbounded
      exact ⟨hbounded, hcapacity.trans (perform_capacity op s), hactive⟩

/-- After any requests to a fresh call stack, it has the slots that it was made with, but at
least one; the active slot is one of them; and the frames up to it are those of the list
after the same requests, with the active frame as the last one.  The next request is
fulfilled exactly if there is room for a frame that is pushed, and if a frame that is
restored is not above the active one.  Then it does to the live frames what it does to the
list, and touches no slot above them.  Otherwise it is refused and changes nothing. -/
theorem performAll_follows (capacity : Nat) (ops : List Operation) :
    ((empty capacity).performAll ops).capacity = max capacity 1 ∧
    ((empty capacity).performAll ops).activeIndex < max capacity 1 ∧
    ((empty capacity).performAll ops).bounded =
      (BoundedStack.empty (max capacity 1)).stepAll ops ∧
    ((empty capacity).performAll ops).live.getLast? =
      some ((empty capacity).performAll ops).active ∧
    ∀ op, ((empty capacity).performAll ops).Follows op
      (perform op ((empty capacity).performAll ops)) := by
  have hsize : (empty capacity).capacity = max capacity 1 := Array.size_replicate
  have hroot : (empty capacity).activeIndex < (empty capacity).capacity := by
    rw [hsize]
    exact Nat.lt_of_lt_of_le Nat.zero_lt_one (Nat.le_max_right ..)
  rcases performAll_bounded hroot ops with ⟨hbounded, hcapacity, hactive⟩
  rw [bounded_empty] at hbounded
  have hslots := hcapacity.trans hsize
  exact ⟨hslots, hslots ▸ hactive, hbounded, getLast?_live hactive, perform_follows hactive⟩

-- A new frame starts at its first instruction, wherever the stale frame in its slot stood.
example : ((empty 3).performAll [.push 7 32, .assign { instructionPointer := some 9 },
    .unwindTo 0, .push 2 48]).active = ⟨some 2, 0, 48⟩ := by decide

end Sequences

end CallStack
end FrameMachine
