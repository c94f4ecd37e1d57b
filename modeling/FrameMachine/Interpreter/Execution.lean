import FrameMachine.Interpreter.Transfer

/-!
# Running instructions

A run executes instructions until the frame it has to return to is active
again.  A CALLBACK starts an invocation, and with it a nested run; the outer run
waits in a list of suspensions, innermost first.  One step executes one
instruction of the innermost run, and also whatever that instruction completes:
a return that ends a nested run collects the outputs of its invocation and lets
the outer run go on, and a fault ends all waiting runs, each of which poisons
the machine and wraps the fault that it passes on.

Fuel is counted in instructions, over all nested runs of one interpreter.
-/

namespace FrameMachine

/-- An instruction budget, if any, and the number of instructions executed. -/
structure Interpreter where
  fuel : Option Nat := none
  executed : Nat := 0
  deriving Repr, DecidableEq

namespace Interpreter

/-- Whether the budget is used up. -/
def exhausted (interpreter : Interpreter) : Bool :=
  match interpreter.fuel with
  | some fuel => fuel ≤ interpreter.executed
  | none => false

/-- Count one instruction. -/
def charge (interpreter : Interpreter) : Interpreter :=
  { interpreter with executed := interpreter.executed + 1 }

/-- A CALLBACK whose invocation is under way. -/
structure Suspension where
  site : Site
  /-- Where in the caller's window the outputs go. -/
  destination : UInt16
  invocation : Invocation
  deriving Repr, DecidableEq

/-- An outermost run with all runs nested in it. -/
structure Execution where
  interpreter : Interpreter
  machine : Machine
  /-- The frame that ends the outermost run. -/
  returnTo : Nat
  /-- The CALLBACKs under way, innermost first. -/
  suspended : List Suspension

/-- The frame that ends the innermost run. -/
def innermostReturn (returnTo : Nat) : List Suspension → Nat
  | [] => returnTo
  | s :: _ => s.invocation.previous

/-- What carrying out a plan leads to. -/
inductive Progress where
  /-- The run goes on. -/
  | running
  /-- A nested run begins. -/
  | nested (suspension : Suspension)
  /-- The run is over. -/
  | returned
  deriving Repr, DecidableEq

/-- Carry out the plan of an instruction. -/
def carryOut (program : Program) (returnTo : Nat) (site : Site) (i : Instruction) :
    Plan → Action Fault Progress
  | .next => fun m => .ok .running (advance m)
  | .goto target => fun m =>
      .ok .running (m.modifyStack (CallStack.jump target.toNat))
  | .store range bytes => fun m =>
      .ok .running (advance (m.modifyArena (Arena.store range.offset bytes)))
  | .call callee sources => do
      call site i.a callee sources
      return .running
  | .callback inputs => do
      let invocation ← (Machine.enter program i.a inputs).adaptExcept
        (InvokeError.atCallback site.location)
      return .nested ⟨site, i.c, invocation⟩
  | .ret => do
      let finished ← ret program returnTo site
      return if finished then .returned else .running

/-- The instruction that the active frame is about to execute. -/
def fetch (program : Program) (m : Machine) : Except Fault (Site × Instruction) :=
  match running? program m m.stack.activeIndex with
  | none => .error (.noActiveFunction m.stack.activeIndex)
  | some (frame, operator, routine) =>
      let site := siteOf frame operator routine
      match routine.code[frame.instructionPointer]? with
      | none => .error (.endOfCode site.location)
      | some i => .ok (site, i)

/-- Execute one instruction within the run that ends at `returnTo`. -/
def execute (program : Program) (returnTo : Nat) (site : Site) (i : Instruction) :
    Action Fault Progress := fun m =>
  match Plan.ofInstruction program m site i with
  | .error cause => .error cause m
  | .ok plan => carryOut program returnTo site i plan m

/-- Let a run go on whose nested invocation is over. -/
def resume (s : Suspension) : Action Fault Unit := fun m =>
  match (Machine.leave s.invocation).adaptExcept (InvokeError.atCallback s.site.location) m with
  | .error cause m => .error cause m
  | .ok outputs m =>
      match deliver s.site s.destination.toNat outputs m with
      | .error cause m => .error cause m
      | .ok () m => .ok () (advance m)

/-- End all waiting runs with a fault. -/
def abandon : List Suspension → Fault → Machine → Fault × Machine
  | [], cause, m => (cause, m)
  | s :: outer, cause, m => abandon outer (.callbackFault s.site.location cause) (m.fail cause)

/-- What a step leads to: more to do, or the end of the outermost run. -/
inductive Turn where
  | more (execution : Execution)
  | ended (back : Comeback Interpreter)

/-- End the outermost run with a fault of the innermost one. -/
def stop (interpreter : Interpreter) (suspended : List Suspension) (cause : Fault)
    (m : Machine) : Turn :=
  let (cause, m) := abandon suspended cause m
  .ended ⟨.error cause, interpreter, m⟩

/-- Go on after an instruction has been executed. -/
def settle (interpreter : Interpreter) (returnTo : Nat) (suspended : List Suspension) :
    EStateM.Result Fault Machine Progress → Turn
  | .error cause m => stop interpreter suspended cause m
  | .ok .running m => .more ⟨interpreter, m, returnTo, suspended⟩
  | .ok (.nested s) m => .more ⟨interpreter, m, returnTo, s :: suspended⟩
  | .ok .returned m =>
      match suspended with
      | [] => .ended ⟨.ok (), interpreter, m⟩
      | s :: outer =>
          match resume s m with
          | .error cause m => stop interpreter outer cause m
          | .ok () m => .more ⟨interpreter, m, returnTo, outer⟩

/-- Execute one instruction of the innermost run. -/
def step (program : Program) : Execution → Turn
  | ⟨interpreter, m, returnTo, suspended⟩ =>
      match fetch program m with
      | .error cause => stop interpreter suspended cause m
      | .ok (site, i) =>
          if interpreter.exhausted then
            stop interpreter suspended (.fuelExhausted site.location) m
          else
            let m := m.note (.executing m.stack.activeIndex site.location i)
            settle interpreter.charge returnTo suspended
              (execute program (innermostReturn returnTo suspended) site i m)

/-- Take at most `clock` steps; the answer is `none` if the run is not over then. -/
def runFor (program : Program) : (clock : Nat) → Execution → Option (Comeback Interpreter)
  | 0, _ => none
  | clock + 1, x =>
      match step program x with
      | .more x => runFor program clock x
      | .ended back => some back

/-- Number of steps after which a run must be over.  With a budget there is one
step for each instruction left and one that finds the budget used up.  Without
one, there is one step for each instruction that can still be counted and one
that finds the code over. -/
def horizon (interpreter : Interpreter) : Nat :=
  match interpreter.fuel with
  | some fuel => fuel - interpreter.executed + 1
  | none => Word.count - interpreter.executed

/-- Whether an instruction count that a run has come to is a word.  Below a budget,
which is a word itself, every count is. -/
def countable (interpreter : Interpreter) (executed : Nat) : Bool :=
  interpreter.fuel.isSome || decide (executed < Word.count)

/-- Run an execution until it is over, if it ever is as long as the instruction
counter remains a word. -/
def complete (program : Program) (x : Execution) : Option (Comeback Interpreter) :=
  (runFor program x.interpreter.horizon x).filter fun back =>
    x.interpreter.countable back.engine.executed

/-- The reference engine: run the frame `start`, which must be active. -/
def run (program : Program) : Engine Interpreter := fun interpreter m start returnTo =>
  if m.stack.activeIndex = start then complete program ⟨interpreter, m, returnTo, []⟩
  else some ⟨.error (.desync ⟨start, m.stack.activeIndex⟩), interpreter, m⟩

end Interpreter

namespace Machine

/-- Invoke a function with a fresh interpreter that has no budget. -/
def call (program : Program) (function : UInt16) (inputs : List Bytes) (m : Machine) :
    Option (Reply Interpreter) :=
  m.invoke program (Interpreter.run program) function inputs {}

end Machine

/-- Invoke a function of a program on a fresh machine. -/
def invoke (program : Program) (function : UInt16) (inputs : List Bytes) :
    Option (Except InvokeError (List Bytes)) :=
  (Machine.initial.call program function inputs).map Reply.outcome

end FrameMachine
