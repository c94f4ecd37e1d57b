import FrameMachine.Proofs.Changes

/-!
# Sound machines

A machine is sound if its stack pointer and its active frame exist and if every
arena offset is a word with room to spare.  A fresh machine of a valid
configuration is sound, and whatever can be done to a machine keeps it sound:
requests to its parts, other parts in the place of its own, the beginning and the
end of an invocation, and a run of the interpreter between any two frames.

Main results:

- Theorem `Interpreter.run_sound`: a run keeps a machine sound, whatever its
  frames hold.
- Theorem `Machine.Reachable.sound`: every machine that can be reached is sound.
-/

namespace FrameMachine

/-! ## Requests to the parts -/

theorem Arena.perform_stackPointer_le (op : Arena.Operation) {a : Arena}
    (h : a.stackPointer ≤ a.capacity) :
    (after (perform op a)).stackPointer ≤ (after (perform op a)).capacity := by
  rw [perform_capacity]
  have hleaves := leaves_perform op a
  generalize after (perform op a) = b at hleaves ⊢
  cases hleaves with
  | same => exact h
  | stored offset bytes => exact h
  | reserved hsize =>
      rw [available] at hsize
      dsimp only
      omega
  | released pointer => exact Nat.le_trans (Nat.min_le_right ..) h

theorem CallStack.perform_activeIndex_lt (op : CallStack.Operation) {s : CallStack}
    (h : s.activeIndex < s.capacity) :
    (after (perform op s)).activeIndex < (after (perform op s)).capacity := by
  rw [perform_capacity]
  cases op with
  | push operator framePointer =>
      by_cases hroom : s.hasRoom
      · simp only [perform, push, hroom, if_true, after]
        simpa [hasRoom] using hroom
      · simpa [perform, push, hroom, after]
  | unwindTo index =>
      simp only [perform, after, activeIndex_unwindTo]
      omega
  | restore index instructionPointer =>
      by_cases hindex : index ≤ s.activeIndex
      · simp only [perform, restore, hindex, if_true, after, jump, activeIndex_modifyActive]
        omega
      · simpa [perform, restore, hindex, after]
  | frame index => exact h
  | assign new => exact h

namespace Machine

/-! ## Soundness -/

/-- The stack pointer lies in the arena, the arena is no larger than the limit,
and the active frame is one of the slots. -/
structure Sound (m : Machine) : Prop where
  stackPointer_le : m.arena.stackPointer ≤ m.arena.capacity
  capacity_le : m.arena.capacity ≤ Config.memoryLimit
  active_lt : m.stack.activeIndex < m.stack.capacity

section Soundness

variable {m : Machine}

/-- Only the arena and the call stack decide whether a machine is sound. -/
theorem Sound.congr {m' : Machine} (h : m.Sound) (harena : m'.arena = m.arena)
    (hstack : m'.stack = m.stack) : m'.Sound := by
  obtain ⟨hpointer, hcapacity, hactive⟩ := h
  exact ⟨harena ▸ hpointer, harena ▸ hcapacity, hstack ▸ hactive⟩

theorem Sound.note (h : m.Sound) (e : Event) : (m.note e).Sound :=
  h.congr rfl rfl

theorem Sound.fail (h : m.Sound) (cause : Fault) : (m.fail cause).Sound :=
  h.congr rfl rfl

theorem Sound.store (h : m.Sound) (offset : Nat) (bytes : Bytes) :
    (m.modifyArena (Arena.store offset bytes)).Sound where
  stackPointer_le := by simpa using h.stackPointer_le
  capacity_le := by simpa using h.capacity_le
  active_lt := h.active_lt

theorem Sound.assignArena (h : m.Sound) {arena : Arena}
    (hpointer : arena.stackPointer ≤ arena.capacity)
    (hcapacity : arena.capacity ≤ Config.memoryLimit) : (m.modifyArena fun _ => arena).Sound :=
  ⟨hpointer, hcapacity, h.active_lt⟩

theorem Sound.assignStack (h : m.Sound) {stack : CallStack}
    (hactive : stack.activeIndex < stack.capacity) : (m.modifyStack fun _ => stack).Sound :=
  ⟨h.stackPointer_le, h.capacity_le, hactive⟩

theorem Sound.modifyActive (h : m.Sound) (change : Frame → Frame) :
    (m.modifyStack (CallStack.modifyActive change)).Sound where
  stackPointer_le := h.stackPointer_le
  capacity_le := h.capacity_le
  active_lt := by simpa using h.active_lt

theorem Sound.unwindTo (h : m.Sound) (index : Nat) :
    (m.modifyStack (CallStack.unwindTo index)).Sound where
  stackPointer_le := h.stackPointer_le
  capacity_le := h.capacity_le
  active_lt := by
    have := h.active_lt
    simp only [stack_modifyStack, CallStack.activeIndex_unwindTo, CallStack.capacity_unwindTo]
    omega

theorem Sound.releaseFrame (h : m.Sound) (window : Window) : (m.releaseFrame window).Sound := by
  have hpointer := h.stackPointer_le
  unfold Machine.releaseFrame
  split
  · refine ⟨?_, h.capacity_le, h.active_lt⟩
    simp only [arena_modifyArena, Arena.stackPointer_releaseTo, Arena.capacity_releaseTo]
    omega
  · exact h

theorem Sound.framed (h : m.Sound) (operator : UInt16) {size : UInt32}
    (hroom : m.shortage size.toNat = none) : (m.framed operator size).Sound where
  stackPointer_le := by
    have hpointer := h.stackPointer_le
    have hsize := available_of_shortage_eq_none hroom
    simp only [Machine.framed, Arena.available, Arena.capacity, size_overwrite] at hpointer hsize ⊢
    omega
  capacity_le := Nat.le_trans (Nat.le_of_eq (size_overwrite ..)) h.capacity_le
  active_lt := by
    have := hasRoom_of_shortage_eq_none hroom
    simpa [Machine.framed, CallStack.capacity] using this

/-- A fresh machine of a valid configuration is sound. -/
theorem sound_ofConfig {c : Config} (h : c.validate = .ok ()) : (ofConfig c).Sound where
  stackPointer_le := Nat.zero_le _
  capacity_le := by
    simp only [ofConfig, Arena.empty, Arena.capacity, Array.size_replicate]
    unfold Config.validate at h
    split at h
    · contradiction
    · split at h
      · contradiction
      · split at h
        · contradiction
        · omega
  active_lt := by
    simp only [ofConfig, CallStack.empty, CallStack.capacity, Array.size_replicate]
    omega

theorem keeps_sound_pushFrame (operator : UInt16) (size : UInt32) :
    Keeps Sound (pushFrame operator size) := by
  intro m h
  rw [pushFrame_eq]
  cases hroom : m.shortage size.toNat with
  | some need => exact h
  | none => exact h.framed operator hroom

/-- Every request keeps a machine sound. -/
theorem keeps_sound_perform (program : Program) (op : Operation) :
    Keeps Sound (fun m => perform program op m) := by
  rintro ⟨arena, stack, reclaim, poisoned, journal⟩ h
  cases op with
  | arena op =>
      have hpointer := Arena.perform_stackPointer_le op h.stackPointer_le
      have hcapacity := Nat.le_trans (Nat.le_of_eq (Arena.perform_capacity op arena))
        h.capacity_le
      simp only [perform, onArena]
      cases hr : Arena.perform op arena <;> rw [hr] at hpointer hcapacity <;>
        exact ⟨hpointer, hcapacity, h.active_lt⟩
  | stack op =>
      have hactive := CallStack.perform_activeIndex_lt op h.active_lt
      simp only [perform, onStack]
      cases hr : CallStack.perform op stack <;> rw [hr] at hactive <;>
        exact ⟨h.stackPointer_le, h.capacity_le, hactive⟩
  | pushFrame operator size =>
      have hafter := keeps_sound_pushFrame operator size _ h
      simp only [perform]
      cases hr : Machine.pushFrame operator size ⟨arena, stack, reclaim, poisoned, journal⟩ <;>
        rw [hr] at hafter <;> exact hafter
  | releaseFrame window => exact h.releaseFrame window
  | window index => exact h
  | activeWindow => exact h

/-- Soundness survives whatever is done to a machine. -/
theorem changeClosed_sound : ChangeClosed Sound where
  note _ h := h.note _
  store offset bytes h := h.store offset bytes
  modifyActive change h := h.modifyActive change
  unwindTo index h := h.unwindTo index
  releaseFrame window h := h.releaseFrame window

theorem growthClosed_sound (program : Program) : GrowthClosed program Sound where
  toChangeClosed := changeClosed_sound
  framed _ hroom h := h.framed _ hroom

/-- An invocation begins in a sound machine, or is refused. -/
theorem keeps_sound_enter (program : Program) (function : UInt16) (inputs : List Bytes) :
    Keeps Sound (enter program function inputs) :=
  (growthClosed_sound program).keeps_enter (fun cause h => h.fail cause) function inputs

/-- An invocation ends in a sound machine. -/
theorem keeps_sound_leave (call : Invocation) : Keeps Sound (leave call) :=
  changeClosed_sound.keeps_leave (fun cause h => h.fail cause) call

end Soundness
end Machine

namespace Interpreter

open Machine

/-! ## Soundness of runs -/

section Runs

variable {program : Program}

/-- A run keeps a machine sound, whatever its frames hold. -/
theorem run_sound {interpreter : Interpreter} {m : Machine} {start returnTo : Nat}
    {back : Comeback Interpreter} (h : m.Sound)
    (hrun : run program interpreter m start returnTo = some back) : back.machine.Sound :=
  (runClosed_of_growthClosed (growthClosed_sound program) fun cause h => h.fail cause).run_keeps
    h hrun

end Runs
end Interpreter

namespace Machine

/-! ## Reachable machines -/

/-- The machines that can be reached over a program: fresh ones, and what any
request, any other arena or call stack in the place of the machine's own, the
beginning or the end of an invocation with any engine, a fault of that engine, and
a run of the interpreter lead to from there.  An arena that is put in place may be
smaller than any configuration allows, even empty. -/
inductive Reachable (program : Program) : Machine → Prop
  | create {c : Config} (h : c.validate = .ok ()) : Reachable program (ofConfig c)
  | perform {m : Machine} (h : Reachable program m) (op : Operation) :
      Reachable program (after (m.perform program op))
  | assignArena {m : Machine} (h : Reachable program m) {arena : Arena}
      (hpointer : arena.stackPointer ≤ arena.capacity)
      (hcapacity : arena.capacity ≤ Config.memoryLimit) :
      Reachable program (m.modifyArena fun _ => arena)
  | assignStack {m : Machine} (h : Reachable program m) {stack : CallStack}
      (hactive : stack.activeIndex < stack.capacity) :
      Reachable program (m.modifyStack fun _ => stack)
  | enter {m : Machine} (h : Reachable program m) (function : UInt16) (inputs : List Bytes) :
      Reachable program (after (enter program function inputs m))
  | leave {m : Machine} (h : Reachable program m) (call : Invocation) :
      Reachable program (after (leave call m))
  | fail {m : Machine} (h : Reachable program m) (cause : Fault) :
      Reachable program (m.fail cause)
  | run {m : Machine} {interpreter : Interpreter} {start returnTo : Nat}
      {back : Comeback Interpreter} (h : Reachable program m)
      (hrun : Interpreter.run program interpreter m start returnTo = some back) :
      Reachable program back.machine

/-- Every machine that can be reached is sound. -/
theorem Reachable.sound {program : Program} {m : Machine} (h : Reachable program m) :
    m.Sound := by
  induction h with
  | create h => exact sound_ofConfig h
  | perform _ op ih => exact keeps_sound_perform program op _ ih
  | assignArena _ hpointer hcapacity ih => exact ih.assignArena hpointer hcapacity
  | assignStack _ hactive ih => exact ih.assignStack hactive
  | enter _ function inputs ih => exact keeps_sound_enter program function inputs _ ih
  | leave _ call ih => exact keeps_sound_leave call _ ih
  | fail _ cause ih => exact ih.fail cause
  | run _ hrun ih => exact Interpreter.run_sound ih hrun

/-- Invocations lead from machines that can be reached to such machines, with any engine
whose runs do. -/
theorem Reachable.invoke {σ : Type} {program : Program} {run : Engine σ}
    (hrun : ∀ (engine : σ) (n : Machine) (start returnTo : Nat) (back : Comeback σ),
      Reachable program n → run engine n start returnTo = some back →
        Reachable program back.machine)
    {m : Machine} (h : Reachable program m) {function : UInt16} {inputs : List Bytes}
    {engine : σ} {reply : Reply σ}
    (hreply : m.invoke program run function inputs engine = some reply) :
    Reachable program reply.machine := by
  have henter := h.enter function inputs
  rcases invoke_cases hreply with ⟨e, n, he, rfl⟩ | ⟨call, n, back, he, hback, rfl⟩
  · rw [he] at henter
    exact henter
  · rw [he] at henter
    have hback := hrun engine n _ _ back henter hback
    rcases back with ⟨verdict, engine', n'⟩
    cases verdict with
    | error cause => exact hback.fail cause
    | ok _ =>
        rw [conclude_machine_of_ok]
        exact hback.leave call

/-- The machine that is busy can be reached. -/
theorem reachable_busy (policy : Reclaim) : Reachable relay (busy policy) :=
  .perform (.perform (.create rfl) _) _

end Machine
end FrameMachine
