import FrameMachine.Machine.Basic

/-!
# Invocations

An invocation runs one function as if the active frame had called it and hands
the outputs back as byte strings.  It has three parts:

- `enter` refuses the request or allocates the frame and writes the inputs;
- an *engine* runs the frame until the frame active before is active again;
- `leave` checks that this has happened and collects the outputs.

A refusal changes nothing.  A fault in any part poisons the machine.  Since the
engine may itself invoke functions, invocations nest.
-/

namespace FrameMachine
namespace Machine

/-! ## Marshalling -/

/-- Run a check of the machine. -/
def check {ε α : Type} (result : Except ε α) : Action ε α := fun m =>
  match result with
  | .ok a => .ok a m
  | .error e => .error e m

/-- The range of a slot of a frame. -/
def slotRange (window : Window) (s : Slot) : Except Fault Address :=
  (window.resolveSlot s).mapError .slotOutOfFrame

/-- The bytes of a range of the arena. -/
def bytesAt (m : Machine) (range : Address) : Except Fault Bytes :=
  (m.arena.read range).mapError .memory

/-- Write bytes into the arena. -/
def writeBytes (offset : Nat) (bytes : Bytes) : Action Fault Unit :=
  (onArena (Arena.write offset bytes)).adaptExcept .memory

/-- Copy bytes within the arena. -/
def copyBytes (source : Address) (target : Nat) : Action Fault Unit :=
  (onArena (Arena.copy source target)).adaptExcept .memory

/-- Write one input after another to its slot. -/
def writeInputs (window : Window) : List (Slot × Bytes) → Action Fault Unit
  | [] => return ()
  | (s, input) :: rest => do
      let range ← check (slotRange window s)
      writeBytes range.offset input
      writeInputs window rest

/-- The bytes of a slot. -/
def slotBytes (m : Machine) (window : Window) (s : Slot) : Except Fault Bytes := do
  let range ← slotRange window s
  m.bytesAt range

/-- The bytes of each slot. -/
def readOutputs (m : Machine) (window : Window) (slots : List Slot) :
    Except Fault (List Bytes) :=
  slots.mapM (m.slotBytes window)

end Machine

/-! ## Acceptance -/

/-- The first input whose length is not that of its slot; `index` is the
position of the heads of the two lists. -/
def firstLengthMismatch? (function : UInt16) (index : Nat) :
    List Slot → List Bytes → Option Rejection
  | s :: slots, input :: inputs =>
      if input.length = s.size.toNat then
        firstLengthMismatch? function (index + 1) slots inputs
      else some (.inputLength function index s.size.toNat input.length)
  | _, _ => none

/-- Check inputs against a descriptor. -/
def checkInputs (function : UInt16) (d : Descriptor) (inputs : List Bytes) :
    Except Rejection Unit :=
  match d.misfit? with
  | some misfit => .error (.descriptor function misfit)
  | none =>
      if inputs.length = d.inputs.length then
        match firstLengthMismatch? function 0 d.inputs inputs with
        | some mismatch => .error mismatch
        | none => .ok ()
      else .error (.inputCount function d.inputs.length inputs.length)

/-- The layout of the function to be invoked, if the request is in order. -/
def accept (program : Program) (m : Machine) (function : UInt16) (inputs : List Bytes) :
    Except Rejection Descriptor :=
  if m.poisoned then .error .poisoned
  else
    match program.routine? function with
    | none => .error (.unknownFunction function)
    | some routine =>
        match checkInputs function routine.descriptor inputs with
        | .error e => .error e
        | .ok () => .ok routine.descriptor

/-! ## The protocol -/

/-- An accepted invocation: what is needed to collect its outputs. -/
structure Invocation where
  function : UInt16
  descriptor : Descriptor
  window : Window
  /-- The frame that was active before. -/
  previous : Nat
  /-- The instruction pointer of that frame. -/
  resumeAt : Nat
  deriving Repr, DecidableEq

/-- The frame in which an invocation runs. -/
def Invocation.start (call : Invocation) : Nat := call.previous + 1

namespace Machine

/-- Turn a fault into the end of an invocation: it poisons the machine. -/
def guarded {α : Type} (act : Action Fault α) : Action InvokeError α := fun m =>
  match act m with
  | .ok a m => .ok a m
  | .error cause m => .error (.fault cause) (m.fail cause)

/-- Allocate the frame of an accepted invocation and write its inputs. -/
def begin (function : UInt16) (d : Descriptor) (inputs : List Bytes)
    (previous resumeAt : Nat) : Action InvokeError Invocation := fun m =>
  match pushFrame function d.size m with
  | .error need m => .error (.rejected (.exhausted need)) m
  | .ok window m =>
      let call : Invocation := ⟨function, d, window, previous, resumeAt⟩
      match guarded (writeInputs window (d.inputs.zip inputs))
          (m.note (.invoked function call.start previous)) with
      | .error e m => .error e m
      | .ok () m => .ok call m

/-- Start an invocation, or refuse it. -/
def enter (program : Program) (function : UInt16) (inputs : List Bytes) :
    Action InvokeError Invocation := fun m =>
  match accept program m function inputs with
  | .error reason => .error (.rejected reason) m
  | .ok d =>
      begin function d inputs m.stack.activeIndex m.stack.active.instructionPointer m

/-- Bring the caller's frame back and collect the outputs. -/
def collect (call : Invocation) : Action Fault (List Bytes) := fun m =>
  if m.stack.activeIndex = call.previous then
    match (onStack (CallStack.restore call.previous call.resumeAt)).adaptExcept .desync m with
    | .error cause m => .error cause m
    | .ok () m =>
        match m.readOutputs call.window call.descriptor.outputs with
        | .error cause => .error cause m
        | .ok outputs =>
            .ok outputs ((m.releaseFrame call.window).note
              (.returned call.function outputs.length))
  else .error (.desync ⟨call.previous, m.stack.activeIndex⟩) m

/-- Finish an invocation whose engine has come back. -/
def leave (call : Invocation) : Action InvokeError (List Bytes) :=
  guarded (collect call)

end Machine

/-! ## Engines -/

/-- What an engine leaves behind: its verdict, its own state and the machine. -/
structure Comeback (σ : Type) where
  verdict : Except Fault Unit
  engine : σ
  machine : Machine

/-- An engine with state `σ` runs the frame `start` until the frame `returnTo`
is active again.  It may never come back, which is the answer `none`. -/
abbrev Engine (σ : Type) :=
  σ → Machine → (start returnTo : Nat) → Option (Comeback σ)

/-- What an invocation leaves behind: its outcome, the state of the engine and
the machine. -/
structure Reply (σ : Type) where
  outcome : Except InvokeError (List Bytes)
  engine : σ
  machine : Machine

namespace Machine

/-- Finish an invocation with the verdict of the engine. -/
def conclude {σ : Type} (call : Invocation) : Comeback σ → Reply σ
  | ⟨.error cause, engine, m⟩ => ⟨.error (.fault cause), engine, m.fail cause⟩
  | ⟨.ok (), engine, m⟩ =>
      match leave call m with
      | .ok outputs m => ⟨.ok outputs, engine, m⟩
      | .error e m => ⟨.error e, engine, m⟩

/-- Invoke a function with one byte string per input.  The answer is `none` if
the engine never comes back. -/
def invoke {σ : Type} (program : Program) (run : Engine σ) (function : UInt16)
    (inputs : List Bytes) (engine : σ) (m : Machine) : Option (Reply σ) :=
  match enter program function inputs m with
  | .error e m => some ⟨.error e, engine, m⟩
  | .ok call m =>
      match run engine m call.start call.previous with
      | none => none
      | some back => some (conclude call back)

end Machine
end FrameMachine
