import FrameMachine.Interpreter.Execution
import FrameMachine.Machine.Operation

/-!
# Scripted engines

An engine need not interpret code.  A *player* is an engine that follows a
script: a list of runs, each a list of actions on the machine.  Whenever it is
asked to run a frame, also while another run is under way, it plays the next run
of the script; when the script is used up it does nothing.  It keeps a record of
what it saw.

An action may make requests to the machine, hand the frame to the interpreter,
invoke functions with the player itself as engine, or raise a fault.
-/

namespace FrameMachine
namespace Script

/-- One action of a run. -/
inductive Action where
  /-- Make the frame active to which the run has to return. -/
  | unwind
  /-- End the run with a fault. -/
  | raise (cause : Fault)
  /-- Hand the frame to a fresh interpreter. -/
  | interpret (fuel : Option Nat)
  /-- Invoke a function; a failure ends the run unless it is to be ignored. -/
  | invoke (function : UInt16) (inputs : List Bytes) (ignore : Bool)
  /-- Make a request; a failure is only recorded. -/
  | perform (op : Machine.Operation)
  deriving Repr, DecidableEq

/-- What a player saw, with the machine as it was then. -/
inductive Entry where
  /-- A run began. -/
  | began (start returnTo : Nat) (window : Option Window) (bytes : Option Bytes)
      (state : Machine.Snapshot)
  /-- The call stack was unwound. -/
  | unwound (state : Machine.Snapshot)
  /-- An interpreter came back. -/
  | interpreted (verdict : Except Fault Unit) (executed : Nat) (state : Machine.Snapshot)
  /-- An invocation was answered. -/
  | invoked (outcome : Except InvokeError (List Bytes)) (state : Machine.Snapshot)
  /-- A request was answered. -/
  | performed (op : Machine.Operation) (answer : Except Machine.Failure Machine.Answer)
      (state : Machine.Snapshot)

/-- The rest of a script and the record so far. -/
structure Player where
  runs : List (List Action)
  record : Array Entry := #[]

/-- Add to the record. -/
def Player.see (p : Player) (entry : Entry) : Player :=
  { p with record := p.record.push entry }

/-- The bytes of the active window, if there is one inside the arena. -/
def activeBytes (program : Program) (m : Machine) : Option Bytes :=
  match m.activeWindow? program with
  | none => none
  | some window => (m.arena.read ⟨window.base, window.size⟩).toOption

/-- The place of the active frame in the program; a frame without function
counts as running function 0. -/
def activeLocation (m : Machine) : Location :=
  ⟨m.stack.active.operator.getD 0, m.stack.active.instructionPointer⟩

/-- Note that a run began. -/
def begin (program : Program) (start returnTo : Nat) (p : Player) (m : Machine) : Player :=
  p.see (.began start returnTo (m.activeWindow? program) (activeBytes program m) m.snapshot)

/-- The answer of a request and the machine after it. -/
def answerOf {ε α : Type} : EStateM.Result ε Machine α → Except ε α × Machine
  | .ok a m => (.ok a, m)
  | .error e m => (.error e, m)

/-- Play the actions of a run; `nested` is the engine for invocations. -/
def play (program : Program) (nested : Engine Player) (start returnTo : Nat) :
    List Action → Player → Machine → Option (Comeback Player)
  | [], p, m => some ⟨.ok (), p, m⟩
  | .unwind :: rest, p, m =>
      let m := m.modifyStack (CallStack.unwindTo returnTo)
      play program nested start returnTo rest (p.see (.unwound m.snapshot)) m
  | .raise cause :: _, p, m => some ⟨.error cause, p, m⟩
  | .interpret fuel :: rest, p, m =>
      match Interpreter.run program ⟨fuel, 0⟩ m start returnTo with
      | none => none
      | some ⟨verdict, interpreter, m⟩ =>
          let p := p.see (.interpreted verdict interpreter.executed m.snapshot)
          match verdict with
          | .error cause => some ⟨.error cause, p, m⟩
          | .ok () => play program nested start returnTo rest p m
  | .invoke function inputs ignore :: rest, p, m =>
      let site := activeLocation m
      match m.invoke program nested function inputs p with
      | none => none
      | some ⟨outcome, p, m⟩ =>
          let p := p.see (.invoked outcome m.snapshot)
          match outcome with
          | .error e =>
              if ignore then play program nested start returnTo rest p m
              else some ⟨.error (e.atCallback site), p, m⟩
          | .ok _ => play program nested start returnTo rest p m
  | .perform op :: rest, p, m =>
      let (answer, m) := answerOf (m.perform program op)
      play program nested start returnTo rest (p.see (.performed op answer m.snapshot)) m

/-- The engine of a player under which at most `depth` runs nest. -/
def engineWithin (program : Program) : (depth : Nat) → Engine Player
  | 0 => fun p m start returnTo => some ⟨.ok (), begin program start returnTo p m, m⟩
  | depth + 1 => fun p m start returnTo =>
      let p := begin program start returnTo p m
      match p.runs with
      | [] => some ⟨.ok (), p, m⟩
      | actions :: runs =>
          play program (engineWithin program depth) start returnTo actions
            { p with runs := runs } m

/-- The engine of a player.  Every run that begins uses up one run of the
script, so no more runs nest than the script has. -/
def engine (program : Program) : Engine Player := fun p =>
  engineWithin program p.runs.length p

end Script
end FrameMachine
