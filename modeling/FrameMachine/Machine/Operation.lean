import FrameMachine.Machine.Basic

/-!
# Requests to a machine

Everything that a host or an engine may do to a machine short of an invocation,
as data: the requests to its arena and its call stack, allocating and releasing
frames, and asking for windows.  No request takes the poison flag back.

Main results:

- Theorem `perform_poisoned`: no request changes the poison flag.
-/

namespace FrameMachine
namespace Machine

/-- What is seen of a machine between two requests. -/
structure Snapshot where
  activeIndex : Nat
  frame : Frame
  stackPointer : Nat
  poisoned : Bool
  deriving Repr, DecidableEq

/-- What is seen of a machine now. -/
def snapshot (m : Machine) : Snapshot :=
  ⟨m.stack.activeIndex, m.stack.active, m.arena.stackPointer, m.poisoned⟩

/-- One request to a machine. -/
inductive Operation where
  | arena (op : Arena.Operation)
  | stack (op : CallStack.Operation)
  | pushFrame (operator : UInt16) (size : UInt32)
  | releaseFrame (window : Window)
  | window (index : Nat)
  | activeWindow
  deriving Repr, DecidableEq

/-- What a successful request brings back. -/
inductive Answer where
  | done
  | arena (answer : Arena.Answer)
  | stack (answer : CallStack.Answer)
  | window (window : Option Window)
  deriving Repr, DecidableEq

/-- Why a request fails. -/
inductive Failure where
  | arena (failure : Arena.Failure)
  | stack (failure : CallStack.Failure)
  | exhausted (need : Exhaustion)
  deriving Repr, DecidableEq

/-- Carry out a request. -/
def perform (program : Program) : Operation → Action Failure Answer
  | .arena op => fun m =>
      match onArena (Arena.perform op) m with
      | .ok answer m => .ok (.arena answer) m
      | .error e m => .error (.arena e) m
  | .stack op => fun m =>
      match onStack (CallStack.perform op) m with
      | .ok answer m => .ok (.stack answer) m
      | .error e m => .error (.stack e) m
  | .pushFrame operator size => fun m =>
      match pushFrame operator size m with
      | .ok window m => .ok (.window (some window)) m
      | .error e m => .error (.exhausted e) m
  | .releaseFrame window => fun m => .ok .done (m.releaseFrame window)
  | .window index => fun m => .ok (.window (m.window? program index)) m
  | .activeWindow => fun m => .ok (.window (m.activeWindow? program)) m

/-! ## The poison flag -/

/-- The machine that a step leaves behind, successful or not. -/
def after {ε α : Type} : EStateM.Result ε Machine α → Machine
  | .ok _ m => m
  | .error _ m => m

theorem arena_onArena {ε α : Type} (act : EStateM ε Arena α) (m : Machine) :
    (after (onArena act m)).arena = Arena.after (act m.arena) := by
  cases m with
  | mk arena stack reclaim poisoned journal =>
      simp only [onArena]
      cases act arena <;> rfl

theorem reclaim_onArena {ε α : Type} (act : EStateM ε Arena α) (m : Machine) :
    (after (onArena act m)).reclaim = m.reclaim := by
  cases m
  simp only [onArena]
  split <;> rfl

@[simp]
theorem onArena_poisoned {ε α : Type} (act : EStateM ε Arena α) (m : Machine) :
    (after (onArena act m)).poisoned = m.poisoned := by
  cases m
  simp only [onArena]
  split <;> rfl

@[simp]
theorem onStack_poisoned {ε α : Type} (act : EStateM ε CallStack α) (m : Machine) :
    (after (onStack act m)).poisoned = m.poisoned := by
  cases m
  simp only [onStack]
  split <;> rfl

@[simp]
theorem pushFrame_poisoned (operator : UInt16) (size : UInt32) (m : Machine) :
    (after (pushFrame operator size m)).poisoned = m.poisoned := by
  simp only [pushFrame]
  split
  · have hArena := onArena_poisoned (Arena.reserve size.toNat) m
    cases h : onArena (Arena.reserve size.toNat) m with
    | error e m' => simpa [h, after] using hArena
    | ok base m' =>
        have hStack := onStack_poisoned (CallStack.push operator base) m'
        cases h' : onStack (CallStack.push operator base) m' with
        | error e m'' => simp_all [after]
        | ok index m'' => cases m''; simp_all [after, note]
  · rfl

@[simp]
theorem releaseFrame_poisoned (window : Window) (m : Machine) :
    (m.releaseFrame window).poisoned = m.poisoned := by
  unfold releaseFrame
  split
  · cases m; rfl
  · rfl

/-- No request changes the poison flag. -/
theorem perform_poisoned (program : Program) (op : Operation) (m : Machine) :
    (after (perform program op m)).poisoned = m.poisoned := by
  cases op with
  | arena op =>
      have h := onArena_poisoned (Arena.perform op) m
      simp only [perform]
      split <;> simp_all [after]
  | stack op =>
      have h := onStack_poisoned (CallStack.perform op) m
      simp only [perform]
      split <;> simp_all [after]
  | pushFrame operator size =>
      have h := pushFrame_poisoned operator size m
      simp only [perform]
      split <;> simp_all [after]
  | releaseFrame window => exact releaseFrame_poisoned window m
  | window index => rfl
  | activeWindow => rfl

end Machine
end FrameMachine
