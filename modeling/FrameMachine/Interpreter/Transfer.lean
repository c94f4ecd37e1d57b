import FrameMachine.Interpreter.Plan

/-!
# Calls and returns within the engine

A CALL pushes the callee's frame and copies its inputs out of the caller's
window; the caller's instruction pointer stays on the CALL.  A return finds the
CALL through that instruction pointer, copies the outputs into the caller's
window and lets the caller go on behind the CALL.  A return to the frame in
which the run has to end copies nothing: whoever started the run collects the
outputs.
-/

namespace FrameMachine
namespace Interpreter

open Machine (check copyBytes writeBytes slotRange)

/-- Go on to the next instruction of the active frame. -/
def advance : Machine → Machine := Machine.modifyStack CallStack.advance

/-! ## Calls -/

/-- Copy one input after another into the callee's window. -/
def passInputs (window : Window) : List (Address × Slot) → Action Fault Unit
  | [] => return ()
  | (source, s) :: rest => do
      let range ← check (slotRange window s)
      copyBytes source range.offset
      passInputs window rest

/-- Push the frame of a callee and copy its inputs. -/
def call (site : Site) (function : UInt16) (callee : Routine) (sources : List Address) :
    Action Fault Unit := do
  let window ← (Machine.pushFrame function callee.descriptor.size).adaptExcept
    (.exhausted site.location)
  passInputs window (sources.zip callee.descriptor.inputs)

/-! ## Returns -/

/-- The function that a frame runs, with the frame. -/
def running? (program : Program) (m : Machine) (index : Nat) :
    Option (Frame × UInt16 × Routine) := do
  let frame ← m.stack.frame? index
  let operator ← frame.operator
  let routine ← program.routine? operator
  return (frame, operator, routine)

/-- The place of a frame in the program, with its window. -/
def siteOf (frame : Frame) (operator : UInt16) (routine : Routine) : Site where
  location := ⟨operator, frame.instructionPointer⟩
  window := ⟨frame.framePointer, routine.descriptor.size.toNat⟩

/-- The CALL on which a frame is suspended. -/
def suspendedCall (program : Program) (m : Machine) (index : Nat) :
    Except Fault (Site × Instruction) :=
  match running? program m index with
  | none => .error (.noActiveFunction index)
  | some (frame, operator, routine) =>
      let site := siteOf frame operator routine
      match routine.code[frame.instructionPointer]? with
      | none => .error (.badReturn site.location)
      | some i =>
          if i.opcode = .call then .ok (site, i) else .error (.badReturn site.location)

/-- Copy one output slot after another to consecutive places of the caller. -/
def passOutputs (window : Window) (caller : Site) : List (Slot × Nat × Nat) → Action Fault Unit
  | [] => return ()
  | (s, offset, length) :: rest => do
      let source ← check (slotRange window s)
      let range ← check (caller.resolve offset length)
      copyBytes source range.offset
      passOutputs window caller rest

/-- Complete the CALL of the frame `caller`. -/
def completeCall (program : Program) (site : Site) (caller : Nat) : Action Fault Unit := fun m =>
  match suspendedCall program m caller with
  | .error cause => .error cause m
  | .ok (callerSite, i) =>
      match site.callee program site.location.function with
      | .error cause => .error cause m
      | .ok callee =>
          let outputs := callee.descriptor.outputs
          match passOutputs site.window callerSite
              (outputs.zip (backToBack i.c.toNat outputs)) m with
          | .error cause m => .error cause m
          | .ok () m =>
              let m := (m.modifyStack (CallStack.unwindTo caller)).releaseFrame site.window
              .ok () ((advance m).note (.resumed site.location.function caller))

/-- Return from the active frame.  The answer says whether the run is over. -/
def ret (program : Program) (returnTo : Nat) (site : Site) : Action Fault Bool := fun m =>
  match m.stack.activeIndex with
  | 0 => .error (.noActiveFunction 0) m
  | caller + 1 =>
      if caller = returnTo then .ok true (m.modifyStack (CallStack.unwindTo caller))
      else
        match completeCall program site caller m with
        | .error cause m => .error cause m
        | .ok () m => .ok false m

/-! ## Reentrant calls -/

/-- Write one output after another to consecutive places from `offset` on. -/
def deliver (site : Site) (offset : Nat) : List Bytes → Action Fault Unit
  | [] => return ()
  | bytes :: rest => do
      let range ← check (site.resolve offset bytes.length)
      writeBytes range.offset bytes
      deliver site (offset + bytes.length) rest

end Interpreter
end FrameMachine
