import FrameMachine.Arena
import FrameMachine.CallStack

/-!
# Faults and rejections

A *rejection* is found before an invocation has changed anything.  A *fault*
stops an engine after the machine has changed, and is fatal for the machine.
Most faults name the instruction at which they arose; a CALLBACK whose
invocation failed wraps the cause of that failure, so a fault records the whole
chain of invocations that it stopped.
-/

namespace FrameMachine

/-- An instruction of a program. -/
structure Location where
  function : UInt16
  position : Nat
  deriving Repr, DecidableEq

/-- Why an invocation is refused before it starts. -/
inductive Rejection where
  /-- There is no function at the index. -/
  | unknownFunction (function : UInt16)
  /-- The number of inputs is not the declared one. -/
  | inputCount (function : UInt16) (expected actual : Nat)
  /-- An input does not have the length of its slot. -/
  | inputLength (function : UInt16) (index expected actual : Nat)
  /-- The function has a slot outside its frame. -/
  | descriptor (function : UInt16) (misfit : SlotMisfit)
  /-- There is no room for the function's frame. -/
  | exhausted (need : Exhaustion)
  /-- An earlier fault poisoned the machine. -/
  | poisoned
  deriving Repr, DecidableEq

/-- Why an engine stopped. -/
inductive Fault where
  /-- A call names a function that is not in the program. -/
  | unknownFunction (site : Location) (index : UInt16)
  /-- There is no instruction at the instruction pointer. -/
  | endOfCode (site : Location)
  /-- An operand names bytes outside the frame. -/
  | outOfFrame (site : Location) (range : OutOfFrame)
  /-- A slot names bytes outside its frame. -/
  | slotOutOfFrame (range : OutOfFrame)
  /-- An access falls outside the arena. -/
  | memory (access : OutOfBounds)
  /-- A constant has a width other than 1, 2 or 4. -/
  | invalidWidth (site : Location) (width : UInt8)
  /-- The divisor is zero. -/
  | divisionByZero (site : Location)
  /-- A CALL finds no room for its frame. -/
  | exhausted (site : Location) (need : Exhaustion)
  /-- The invocation of a CALLBACK is rejected. -/
  | callbackRejected (site : Location) (reason : Rejection)
  /-- The invocation of a CALLBACK ends in a fault. -/
  | callbackFault (site : Location) (cause : Fault)
  /-- A frame returns to an instruction other than a CALL. -/
  | badReturn (site : Location)
  /-- A TRAP is executed. -/
  | trap (site : Location) (code : UInt16)
  /-- The instruction budget is used up. -/
  | fuelExhausted (site : Location)
  /-- The active frame has no function to run. -/
  | noActiveFunction (frame : Nat)
  /-- The active frame is not the expected one. -/
  | desync (found : Desync)
  deriving Repr, DecidableEq

/-- Why an invocation brings no outputs. -/
inductive InvokeError where
  | rejected (reason : Rejection)
  | fault (cause : Fault)
  deriving Repr, DecidableEq

/-- Who is to blame for a failed invocation. -/
inductive ErrorKind where
  /-- The request does not match the function. -/
  | callerContract
  /-- There is no room for another frame. -/
  | resourceExhaustion
  /-- The machine must not be used again. -/
  | fatal
  deriving Repr, DecidableEq

/-! ## Messages -/

/-- The text of a rejection. -/
def Rejection.message : Rejection → String
  | unknownFunction function => s!"unknown function {function}"
  | inputCount function expected actual =>
      s!"function {function} expects {expected} inputs, got {actual}"
  | inputLength function index expected actual =>
      s!"function {function} input {index} expects {expected} bytes, got {actual}"
  | descriptor function misfit => s!"function {function}: " ++ misfit.message
  | exhausted need => need.message
  | poisoned => "machine is poisoned by an earlier fault"

/-- The words for an instruction in most messages. -/
def Location.inFunction (site : Location) : String :=
  s!"instruction {site.position} of function {site.function}"

/-- The words for an instruction at the start of a message. -/
def Location.heading (site : Location) : String :=
  s!"function {site.function} at instruction {site.position}: "

/-- The text of a fault. -/
def Fault.message : Fault → String
  | unknownFunction site index => s!"unknown function {index} called at " ++ site.inFunction
  | endOfCode site =>
      s!"function {site.function} ran past its code at instruction {site.position}"
  | outOfFrame site range => site.heading ++ range.message
  | slotOutOfFrame range => "slot resolution failed: " ++ range.message
  | memory access => access.message
  | invalidWidth site width => s!"invalid CONST width {width} at " ++ site.inFunction
  | divisionByZero site => "division by zero at " ++ site.inFunction
  | exhausted site need => site.heading ++ need.message
  | callbackRejected site reason =>
      "callback at " ++ site.inFunction ++ " failed: " ++ reason.message
  | callbackFault site cause =>
      "callback at " ++ site.inFunction ++ " failed: execution fault: " ++ cause.message
  | badReturn site =>
      s!"return into function {site.function} at instruction {site.position}, which is not a CALL"
  | trap site code => s!"trap {code} at " ++ site.inFunction
  | fuelExhausted site => "fuel exhausted at " ++ site.inFunction
  | noActiveFunction frame => s!"frame {frame} has no function to execute"
  | desync found => found.message

namespace InvokeError

/-- The text of a failed invocation. -/
def message : InvokeError → String
  | rejected reason => reason.message
  | fault cause => "execution fault: " ++ cause.message

/-- Who is to blame. -/
def kind : InvokeError → ErrorKind
  | rejected (.unknownFunction _) => .callerContract
  | rejected (.inputCount ..) => .callerContract
  | rejected (.inputLength ..) => .callerContract
  | rejected (.descriptor ..) => .callerContract
  | rejected (.exhausted _) => .resourceExhaustion
  | rejected .poisoned => .fatal
  | fault _ => .fatal

/-- Whether the machine must not be used again. -/
def isFatal (e : InvokeError) : Bool := e.kind == .fatal

/-- The fault of a CALLBACK whose invocation failed. -/
def atCallback (site : Location) : InvokeError → Fault
  | rejected reason => .callbackRejected site reason
  | fault cause => .callbackFault site cause

end InvokeError
end FrameMachine
