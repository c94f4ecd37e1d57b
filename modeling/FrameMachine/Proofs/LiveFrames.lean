import FrameMachine.Proofs.Soundness

/-!
# Live frames

The frames above a frame `depth` that are in use are listed as *activations*,
the innermost first.  An activation is a function of the program at a place of
its code, with the window that it got.  A machine *is laid out* along such a
list if its frames are those of the list and their windows lie in order, one
behind the other, between a byte `floor` and the stack pointer.  Then no two
live frames share a byte.

Main results:

- Theorem `Packed.window_bounds`: every window of a packed list lies between the
  floor and the limit.
- Theorems `Layout.framed`, `Layout.pop` and `Layout.modifyActive`: what
  allocating a frame, returning from it and going on in it do to the list.
-/

namespace FrameMachine

/-- A function of the program that is running: where it is in its code, and where
its window starts. -/
structure Activation (program : Program) where
  function : UInt16
  routine : Routine
  routine_eq : program.routine? function = some routine
  position : Nat
  base : Nat

namespace Activation

variable {program : Program}

/-- The arena window of an activation. -/
def window (a : Activation program) : Window := ⟨a.base, a.routine.descriptor.size.toNat⟩

/-- The place of the next instruction. -/
def location (a : Activation program) : Location := ⟨a.function, a.position⟩

/-- Where the next instruction runs. -/
def site (a : Activation program) : Site := ⟨a.location, a.window⟩

/-- The next instruction, unless the code is over. -/
def instruction? (a : Activation program) : Option Instruction := a.routine.code[a.position]?

/-- The frame of an activation. -/
def frame (a : Activation program) : Frame := ⟨some a.function, a.position, a.base⟩

/-- The invocation of a function by the frame `previous`, which resumes at the
instruction `resumeAt`. -/
def invocation (a : Activation program) (previous resumeAt : Nat) : Invocation :=
  ⟨a.function, a.routine.descriptor, a.window, previous, resumeAt⟩

@[simp]
theorem previous_invocation (a : Activation program) (previous resumeAt : Nat) :
    (a.invocation previous resumeAt).previous = previous :=
  rfl

/-- The activation at another place of its code. -/
def goto (a : Activation program) (position : Nat) : Activation program :=
  { a with position := position }

/-- The activation behind its next instruction. -/
def next (a : Activation program) : Activation program := a.goto (a.position + 1)

/-- The activation of a function that has just been called. -/
def entered {function : UInt16} {routine : Routine}
    (h : program.routine? function = some routine) (base : Nat) : Activation program :=
  ⟨function, routine, h, 0, base⟩

end Activation

section Lists

variable {program : Program}

/-- The frame slots above `depth` hold the frames of the list, topmost first. -/
def Occupies (frames : Array Frame) (depth : Nat) : List (Activation program) → Prop
  | [] => True
  | a :: below => frames[depth + below.length + 1]? = some a.frame ∧ Occupies frames depth below

/-- The windows of the list lie in order between `floor` and `limit`, topmost
last. -/
def Packed (floor : Nat) : List (Activation program) → (limit : Nat) → Prop
  | [], limit => floor ≤ limit
  | a :: below, limit => a.window.base + a.window.size ≤ limit ∧ Packed floor below a.base

variable {frames frames' : Array Frame} {depth floor limit : Nat}
  {live : List (Activation program)}

theorem Occupies.congr (h : Occupies frames depth live)
    (heq : ∀ j ≤ depth + live.length, frames'[j]? = frames[j]?) :
    Occupies frames' depth live := by
  induction live with
  | nil => trivial
  | cons a below ih =>
      simp only [List.length_cons] at heq
      constructor
      · exact (heq _ (by omega)).trans h.1
      · apply ih h.2
        intro j hj
        exact heq j (by omega)

theorem Packed.mono {limit' : Nat} (h : Packed floor live limit) (hle : limit ≤ limit') :
    Packed floor live limit' := by
  cases live with
  | nil => exact Nat.le_trans h hle
  | cons a below => exact ⟨Nat.le_trans h.1 hle, h.2⟩

theorem Packed.floor_le (h : Packed floor live limit) : floor ≤ limit := by
  induction live generalizing limit with
  | nil => exact h
  | cons a below ih =>
      have hbelow := ih h.2
      have hbase : a.window.base = a.base := rfl
      have hstop := h.1
      omega

/-- Every window of a packed list lies between the floor and the limit. -/
theorem Packed.window_bounds (h : Packed floor live limit) {a : Activation program}
    (ha : a ∈ live) : floor ≤ a.base ∧ a.window.base + a.window.size ≤ limit := by
  induction live generalizing limit with
  | nil => simp at ha
  | cons b below ih =>
      rcases List.mem_cons.mp ha with rfl | ha
      · exact ⟨h.2.floor_le, h.1⟩
      · obtain ⟨hfloor, hstop⟩ := ih h.2 ha
        have hbase : b.window.base = b.base := rfl
        have hlimit := h.1
        exact ⟨hfloor, by omega⟩

end Lists

namespace Machine

/-! ## Layouts -/

/-- The frames of a sound machine above `depth` are the activations of a list,
and their windows lie in order between `floor` and the stack pointer. -/
structure Layout {program : Program} (m : Machine) (depth floor : Nat)
    (live : List (Activation program)) : Prop where
  sound : m.Sound
  active_eq : m.stack.activeIndex = depth + live.length
  occupies : Occupies m.stack.frames depth live
  packed : Packed floor live m.arena.stackPointer

section Layout

variable {program : Program} {m : Machine} {depth floor : Nat} {a b : Activation program}
  {below live : List (Activation program)}

/-- Only the arena's sizes and the call stack decide how a machine is laid out. -/
theorem Layout.congr {m' : Machine} (h : m.Layout depth floor live) (hsound : m'.Sound)
    (hpointer : m'.arena.stackPointer = m.arena.stackPointer) (hstack : m'.stack = m.stack) :
    m'.Layout depth floor live where
  sound := hsound
  active_eq := hstack ▸ h.active_eq
  occupies := hstack ▸ h.occupies
  packed := hpointer ▸ h.packed

theorem Layout.note (h : m.Layout depth floor live) (e : Event) :
    (m.note e).Layout depth floor live :=
  h.congr (h.sound.note e) rfl rfl

theorem Layout.store (h : m.Layout depth floor live) (offset : Nat) (bytes : Bytes) :
    (m.modifyArena (Arena.store offset bytes)).Layout depth floor live :=
  h.congr (h.sound.store offset bytes) rfl rfl

/-- A slot of the call stack from the bottom of the list up. -/
theorem Layout.frame_eq (h : m.Layout depth floor (a :: below)) :
    m.stack.frames[m.stack.activeIndex]? = some a.frame := by
  rw [h.active_eq]
  exact h.occupies.1

theorem Layout.caller_eq (h : m.Layout depth floor (a :: b :: below)) :
    m.stack.frames[depth + below.length + 1]? = some b.frame :=
  h.occupies.2.1

/-- The window of a slot that holds the frame of an activation. -/
theorem window?_eq {index : Nat} (h : m.stack.frames[index]? = some a.frame) :
    m.window? program index = some a.window := by
  have hoperator : a.frame.operator = some a.function := rfl
  simp only [window?, CallStack.frame?, h, bind, Option.bind, hoperator, a.routine_eq]
  rfl

/-- The window of a live frame lies in the arena. -/
theorem Layout.window_le (h : m.Layout depth floor live) (ha : a ∈ live) :
    a.window.base + a.window.size ≤ m.arena.capacity :=
  Nat.le_trans (h.packed.window_bounds ha).2 h.sound.stackPointer_le

/-- Going on in the innermost frame. -/
theorem Layout.modifyActive (h : m.Layout depth floor (a :: below)) {change : Frame → Frame}
    {position : Nat} (hchange : change a.frame = (a.goto position).frame) :
    (m.modifyStack (CallStack.modifyActive change)).Layout depth floor
      (a.goto position :: below) where
  sound := h.sound.modifyActive change
  active_eq := h.active_eq
  occupies := by
    have hactive := h.active_eq
    simp only [List.length_cons] at hactive
    constructor
    · rw [stack_modifyStack, CallStack.frames_modifyActive, Array.getElem?_modify,
        if_pos (by omega), h.occupies.1, Option.map_some, hchange]
    · apply h.occupies.2.congr
      intro j hj
      rw [stack_modifyStack, CallStack.frames_modifyActive, Array.getElem?_modify,
        if_neg (by omega)]
  packed := h.packed

theorem Layout.advance (h : m.Layout depth floor (a :: below)) :
    (Interpreter.advance m).Layout depth floor (a.next :: below) :=
  h.modifyActive rfl

theorem Layout.jump (h : m.Layout depth floor (a :: below)) (position : Nat) :
    (m.modifyStack (CallStack.jump position)).Layout depth floor (a.goto position :: below) :=
  h.modifyActive rfl

/-- A new frame becomes the innermost one, with a window at the stack pointer. -/
theorem Layout.framed (h : m.Layout depth floor live) {function : UInt16} {routine : Routine}
    (hroutine : program.routine? function = some routine)
    (hroom : m.shortage routine.descriptor.size.toNat = none) :
    (m.framed function routine.descriptor.size).Layout depth floor
      (Activation.entered hroutine m.arena.stackPointer :: live) where
  sound := h.sound.framed function hroom
  active_eq := by
    simp only [Machine.framed, h.active_eq, List.length_cons]
    omega
  occupies := by
    have hslot := hasRoom_of_shortage_eq_none hroom
    simp only [CallStack.capacity] at hslot
    constructor
    · simp only [Machine.framed, Array.getElem?_setIfInBounds, h.active_eq] at hslot ⊢
      rw [if_pos trivial, if_pos hslot]
      rfl
    · apply h.occupies.congr
      intro j hj
      simp only [Machine.framed, Array.getElem?_setIfInBounds, h.active_eq]
      rw [if_neg (by omega)]
  packed := ⟨Nat.le_refl _, h.packed⟩

/-- Returning from the innermost frame makes the next one active and, where the
policy says so, gives the window back. -/
theorem Layout.pop (h : m.Layout depth floor (a :: below)) :
    (m.modifyStack (CallStack.unwindTo (depth + below.length))).Layout depth floor below where
  sound := h.sound.unwindTo _
  active_eq := by
    have hactive := h.active_eq
    simp only [List.length_cons] at hactive
    simp only [stack_modifyStack, CallStack.activeIndex_unwindTo]
    omega
  occupies := h.occupies.2
  packed := by
    have hbase : a.window.base = a.base := rfl
    have hstop := h.packed.1
    exact h.packed.2.mono (by simp only [arena_modifyStack]; omega)

/-- Releasing a window above all live ones. -/
theorem Layout.releaseFrame (h : m.Layout depth floor live) (window : Window)
    (hpacked : Packed floor live window.base) :
    (m.releaseFrame window).Layout depth floor live where
  sound := h.sound.releaseFrame window
  active_eq := (stack_releaseFrame window m) ▸ h.active_eq
  occupies := (stack_releaseFrame window m) ▸ h.occupies
  packed := by
    unfold Machine.releaseFrame
    split
    · simp only [arena_modifyArena, Arena.stackPointer_releaseTo]
      rcases Nat.le_total window.base m.arena.stackPointer with hle | hle
      · exact (Nat.min_eq_left hle).symm ▸ hpacked
      · exact (Nat.min_eq_right hle).symm ▸ h.packed
    · exact h.packed

end Layout
end Machine
end FrameMachine
