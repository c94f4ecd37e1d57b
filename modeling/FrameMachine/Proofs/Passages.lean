import FrameMachine.Proofs.Conduct
import FrameMachine.Proofs.Poisoning
import FrameMachine.Proofs.Refusals
import Mathlib.Logic.Relation

/-!
# Machines in use

A machine in use goes from moment to moment by *acts*: requests, changes of its parts, and
the beginning, the refusal and the end of invocations, with whatever verdict an engine may
come back.  Nothing is said about who acts, so a *passage* of acts may be what hosts and
engines do to a machine in any order, and invocations may nest in it and fail unnoticed.
The poison flag keeps account of that: it is set exactly if an invocation has ended in a
fault.

An invocation looks at the flag before it starts, and not again.  An engine may thus invoke
a function, take no notice of the fault and come back well; the outputs are delivered then,
from a poisoned machine.

Main results:

- Theorem `Act.poisoned`: an act poisons a machine exactly if it ends an invocation in a
  fault.
- Theorem `Passes.poisoned`: so does a passage.
- Theorems `History.passes` and `invoke_passes`: histories and invocations are passages.
- Theorem `poisoned_for_good`: a machine is poisoned exactly if an invocation has ended in a
  fault, and from then on no engine runs and nothing changes.
- Theorem `invoke_delivers`: a machine that has delivered outputs is poisoned exactly if a
  nested invocation has ended in a fault.
-/

namespace FrameMachine
namespace Machine

/-! ## Acts -/

/-- A machine in use: the invocations that are open, innermost first, the outcomes of those
that are over, and the machine now. -/
structure Moment where
  opened : List Invocation
  outcomes : List Outcome
  machine : Machine

/-- What can be done to a machine from outside, over any programs.  Other than in a history,
a change of a part may put any other arena or call stack in its place. -/
inductive Act : Moment → Moment → Prop
  | arena {opened : List Invocation} {outcomes : List Outcome} {m : Machine}
      (change : Arena → Arena) :
      Act ⟨opened, outcomes, m⟩ ⟨opened, outcomes, m.modifyArena change⟩
  | stack {opened : List Invocation} {outcomes : List Outcome} {m : Machine}
      (change : CallStack → CallStack) :
      Act ⟨opened, outcomes, m⟩ ⟨opened, outcomes, m.modifyStack change⟩
  | perform {opened : List Invocation} {outcomes : List Outcome} {m : Machine}
      (program : Program) (op : Operation) :
      Act ⟨opened, outcomes, m⟩ ⟨opened, outcomes, after (m.perform program op)⟩
  | note {opened : List Invocation} {outcomes : List Outcome} {m : Machine} (e : Event) :
      Act ⟨opened, outcomes, m⟩ ⟨opened, outcomes, m.note e⟩
  | refused {opened : List Invocation} {outcomes : List Outcome} {m m' : Machine}
      {program : Program} {function : UInt16} {inputs : List Bytes} {e : InvokeError}
      (henter : enter program function inputs m = .error e m') :
      Act ⟨opened, outcomes, m⟩ ⟨opened, outcomes ++ [.error e], m'⟩
  | entered {opened : List Invocation} {outcomes : List Outcome} {m m' : Machine}
      {program : Program} {function : UInt16} {inputs : List Bytes} {call : Invocation}
      (henter : enter program function inputs m = .ok call m') :
      Act ⟨opened, outcomes, m⟩ ⟨call :: opened, outcomes, m'⟩
  | concluded {opened : List Invocation} {outcomes : List Outcome} {m : Machine}
      (call : Invocation) (verdict : Except Fault Unit) :
      Act ⟨call :: opened, outcomes, m⟩
        ⟨opened, outcomes ++ [(conclude call ⟨verdict, (), m⟩).outcome],
          (conclude call ⟨verdict, (), m⟩).machine⟩

/-- Acts one after another. -/
def Passes : Moment → Moment → Prop := Relation.ReflTransGen Act

section Passages

variable {moment later : Moment} {opened : List Invocation} {outcomes : List Outcome}
  {m m' : Machine} {program : Program}

/-! ## Acts and faults -/

/-- One of some invocations has ended in a fault. -/
def Faulted (outcomes : List Outcome) : Prop :=
  ∃ cause, .error (.fault cause) ∈ outcomes

theorem not_faulted_nil : ¬ Faulted [] := by
  rintro ⟨cause, hcause⟩
  exact List.not_mem_nil hcause

theorem faulted_singleton {outcome : Outcome} :
    Faulted [outcome] ↔ ∃ cause, outcome = .error (.fault cause) := by
  simp only [Faulted, List.mem_singleton, eq_comm]

theorem faulted_append {outcomes outcomes' : List Outcome} :
    Faulted (outcomes ++ outcomes') ↔ Faulted outcomes ∨ Faulted outcomes' := by
  simp only [Faulted, List.mem_append, exists_or]

/-- An act poisons a machine exactly if it ends an invocation in a fault. -/
theorem Act.poisoned (h : Act moment later) :
    ∃ ended, later.outcomes = moment.outcomes ++ ended ∧
      (later.machine.poisoned = true ↔ moment.machine.poisoned = true ∨ Faulted ended) := by
  have hsame {outcomes : List Outcome} {m m' : Machine} (h : m'.poisoned = m.poisoned) :
      ∃ ended, outcomes = outcomes ++ ended ∧
        (m'.poisoned = true ↔ m.poisoned = true ∨ Faulted ended) :=
    ⟨[], (List.append_nil _).symm, by rw [h, or_iff_left not_faulted_nil]⟩
  cases h with
  | arena change => exact hsame rfl
  | stack change => exact hsame rfl
  | perform program op => exact hsame (perform_poisoned program op _)
  | note e => exact hsame rfl
  | entered henter => exact hsame (poisoned_of_enter henter)
  | refused henter =>
      refine ⟨_, rfl, ?_⟩
      rw [poisoned_of_enter_error henter, faulted_singleton]
      simp only [Except.error.injEq]
  | concluded call verdict =>
      refine ⟨_, rfl, ?_⟩
      rw [poisoned_conclude, faulted_singleton]

/-- A passage poisons a machine exactly if an invocation ends in a fault on the way. -/
theorem Passes.poisoned (h : Passes moment later) :
    ∃ ended, later.outcomes = moment.outcomes ++ ended ∧
      (later.machine.poisoned = true ↔ moment.machine.poisoned = true ∨ Faulted ended) := by
  induction h with
  | refl => exact ⟨[], (List.append_nil _).symm, (or_iff_left not_faulted_nil).symm⟩
  | tail _ hact ih =>
      rcases ih with ⟨before, hbefore, hpoisoned⟩
      rcases hact.poisoned with ⟨ended, hended, hlater⟩
      refine ⟨before ++ ended, ?_, ?_⟩
      · rw [hended, hbefore, List.append_assoc]
      · rw [hlater, hpoisoned, faulted_append, or_assoc]

/-- Poison is for good. -/
theorem Passes.poisoned_mono (h : Passes moment later)
    (hpoisoned : moment.machine.poisoned = true) : later.machine.poisoned = true := by
  rcases h.poisoned with ⟨ended, -, hlater⟩
  exact hlater.mpr (Or.inl hpoisoned)

/-- A fresh machine comes to be poisoned exactly if an invocation ends in a fault. -/
theorem poisoned_iff_of_passes (c : Config) (h : Passes ⟨[], [], ofConfig c⟩ later) :
    later.machine.poisoned = true ↔ Faulted later.outcomes := by
  rcases h.poisoned with ⟨ended, hended, hlater⟩
  rw [hlater, hended]
  simp [ofConfig]

/-! ## Passages of engines -/

/-- What else is open, and what is over already, has no part in an act. -/
theorem Act.within (h : Act moment later) (opened : List Invocation) (outcomes : List Outcome) :
    Act ⟨moment.opened ++ opened, outcomes ++ moment.outcomes, moment.machine⟩
      ⟨later.opened ++ opened, outcomes ++ later.outcomes, later.machine⟩ := by
  cases h with
  | arena change => exact .arena change
  | stack change => exact .stack change
  | perform program op => exact .perform program op
  | note e => exact .note e
  | refused henter =>
      rw [← List.append_assoc]
      exact .refused henter
  | entered henter => exact .entered henter
  | concluded call verdict =>
      rw [← List.append_assoc]
      exact .concluded call verdict

theorem Passes.within (h : Passes moment later) (opened : List Invocation)
    (outcomes : List Outcome) :
    Passes ⟨moment.opened ++ opened, outcomes ++ moment.outcomes, moment.machine⟩
      ⟨later.opened ++ opened, outcomes ++ later.outcomes, later.machine⟩ := by
  induction h with
  | refl => exact .refl
  | tail _ hact ih => exact ih.tail (hact.within opened outcomes)

/-- Every history is a passage. -/
theorem History.passes {origin : Machine} (h : History origin opened outcomes m) :
    Passes ⟨[], [], origin⟩ ⟨opened, outcomes, m⟩ := by
  induction h with
  | start => exact .refl
  | perform _ program op ih => exact ih.tail (.perform program op)
  | note _ e ih => exact ih.tail (.note e)
  | store _ offset bytes ih => exact ih.tail (.arena (Arena.store offset bytes))
  | modifyActive _ change ih => exact ih.tail (.stack (CallStack.modifyActive change))
  | refused _ henter ih => exact ih.tail (.refused henter)
  | entered _ henter ih => exact ih.tail (.entered henter)
  | concluded _ verdict ih => exact ih.tail (.concluded _ verdict)

end Passages
end Machine

/-- Whatever the engine does to a machine could be done from outside, by any acts that leave
open no invocation of its own. -/
def Engine.Orderly {σ : Type} (run : Engine σ) : Prop :=
  ∀ (engine : σ) (m : Machine) (start returnTo : Nat) (back : Comeback σ),
    run engine m start returnTo = some back →
      ∃ outcomes, Machine.Passes ⟨[], [], m⟩ ⟨[], outcomes, back.machine⟩

theorem Engine.Lawful.orderly {σ : Type} {run : Engine σ} (h : run.Lawful) : run.Orderly := by
  intro engine m start returnTo back hback
  rcases h engine m start returnTo back hback with ⟨outcomes, hrun⟩
  exact ⟨outcomes, hrun.passes⟩

namespace Machine

section Invocations

variable {σ : Type} {program : Program} {run : Engine σ} {m : Machine} {function : UInt16}
  {inputs : List Bytes} {engine : σ} {reply : Reply σ}

/-- An invocation is a passage that ends with its own outcome. -/
theorem invoke_passes (horderly : run.Orderly)
    (hreply : m.invoke program run function inputs engine = some reply)
    (opened : List Invocation) (outcomes : List Outcome) :
    ∃ nested, Passes ⟨opened, outcomes, m⟩
      ⟨opened, outcomes ++ nested ++ [reply.outcome], reply.machine⟩ := by
  rcases invoke_cases hreply with ⟨e, m', henter, rfl⟩ | ⟨call, m', back, henter, hback, rfl⟩
  · refine ⟨[], .single ?_⟩
    rw [List.append_nil]
    exact .refused henter
  · rcases horderly engine m' _ _ back hback with ⟨nested, hrun⟩
    have hrun := hrun.within (call :: opened) outcomes
    rw [List.append_nil] at hrun
    have hconcluded := (hrun.head (.entered henter)).tail (.concluded call back.verdict)
    rw [conclude_engine_eq] at hconcluded
    exact ⟨nested, hconcluded⟩

/-- A poisoned machine refuses every invocation. -/
theorem invoke_of_poisoned (hpoisoned : m.poisoned = true) (program : Program) (run : Engine σ)
    (function : UInt16) (inputs : List Bytes) (engine : σ) :
    m.invoke program run function inputs engine =
      some ⟨.error (.rejected .poisoned), engine, m⟩ := by
  simp only [invoke, enter, accept, hpoisoned, if_true]

end Invocations

/-- However a fresh machine is used, it is poisoned exactly if an invocation has ended in a
fault, nested or not.  The flag is never taken back, and once it is set, every invocation is
refused with nothing changed and the engine not asked to run.  Invoking a function with an
engine that only acts on the machine is such a use.  Outside of invocations the interpreter
poisons the machine exactly if it ends in the fault of a CALLBACK whose invocation has ended
in a fault. -/
theorem poisoned_for_good :
    (∀ (c : Config) (later : Moment), Passes ⟨[], [], ofConfig c⟩ later →
      (later.machine.poisoned = true ↔ Faulted later.outcomes)) ∧
    (∀ moment later : Moment, Passes moment later → moment.machine.poisoned = true →
      later.machine.poisoned = true ∧
      ∀ (σ : Type) (program : Program) (run : Engine σ) (function : UInt16)
        (inputs : List Bytes) (engine : σ) (seen : List Summons),
        later.machine.invoke program run.recorded function inputs (engine, seen) =
          some ⟨.error (.rejected .poisoned), (engine, seen), later.machine⟩) ∧
    (∀ (σ : Type) (program : Program) (run : Engine σ) (function : UInt16)
      (inputs : List Bytes) (engine : σ) (moment : Moment) (reply : Reply σ), run.Orderly →
        moment.machine.invoke program run function inputs engine = some reply →
        ∃ nested, Passes moment
          ⟨moment.opened, moment.outcomes ++ nested ++ [reply.outcome], reply.machine⟩) ∧
    ∀ (program : Program) (interpreter : Interpreter) (m : Machine) (start returnTo : Nat)
      (back : Comeback Interpreter),
      Interpreter.run program interpreter m start returnTo = some back →
        (back.machine.poisoned = true ↔ m.poisoned = true ∨
          ∃ site cause, back.verdict = .error (.callbackFault site cause)) := by
  refine ⟨fun c later => poisoned_iff_of_passes c, ?_, ?_, ?_⟩
  · intro moment later h hpoisoned
    have hlater := h.poisoned_mono hpoisoned
    refine ⟨hlater, ?_⟩
    intro σ program run function inputs engine seen
    exact invoke_of_poisoned hlater program run.recorded function inputs (engine, seen)
  · intro σ program run function inputs engine moment reply horderly hreply
    exact invoke_passes horderly hreply moment.opened moment.outcomes
  · intro program interpreter m start returnTo back hrun
    exact Interpreter.run_poisoned hrun

/-- A player that takes no notice of the fault of an invocation and comes back well. -/
def swallower : Script.Player :=
  ⟨[[.invoke 2 [[5]] true, .unwind], [.raise (.trap ⟨2, 0⟩ 9)]], #[]⟩

/-- A machine on which the first function of the sample program is about to run. -/
def ready : Machine := after (perform relay (.pushFrame 0 4) (ofConfig ⟨24, 6, .release⟩))

/-- The fault that the player has swallowed has poisoned the machine for good, and so does a
run of the interpreter whose budget ends within a CALLBACK. -/
theorem poisoned_for_good_relay :
    (∃ reply, (ofConfig ⟨24, 6, .release⟩).invoke relay (Script.engine relay) 0 [[42]]
        swallower = some reply ∧
      reply.machine.poisoned = true ∧
      (∃ nested, Faulted (nested ++ [reply.outcome]) ∧
        Passes ⟨[], [], ofConfig ⟨24, 6, .release⟩⟩
          ⟨[], nested ++ [reply.outcome], reply.machine⟩) ∧
      reply.machine.invoke relay (Script.engine relay).recorded 0 [[42]] (swallower, []) =
        some ⟨.error (.rejected .poisoned), (swallower, []), reply.machine⟩) ∧
    ∃ back, Interpreter.run relay ⟨some 1, 0⟩ ready 1 0 = some back ∧
      back.verdict = .error (.callbackFault ⟨0, 0⟩ (.fuelExhausted ⟨1, 0⟩)) ∧
      back.machine.poisoned = true := by
  have hpoisoned : ((ofConfig ⟨24, 6, .release⟩).invoke relay (Script.engine relay) 0 [[42]]
      swallower).map (fun reply => reply.machine.poisoned) = some true := by
    decide +kernel
  have hverdict : (Interpreter.run relay ⟨some 1, 0⟩ ready 1 0).map Comeback.verdict =
      some (.error (.callbackFault ⟨0, 0⟩ (.fuelExhausted ⟨1, 0⟩))) := by
    decide +kernel
  rcases Option.map_eq_some_iff.mp hpoisoned with ⟨reply, hreply, hpoisoned⟩
  rcases Option.map_eq_some_iff.mp hverdict with ⟨back, hback, hverdict⟩
  refine ⟨⟨reply, hreply, hpoisoned, ?_, ?_⟩, back, hback, hverdict, ?_⟩
  · rcases poisoned_for_good.2.2.1 Script.Player relay (Script.engine relay) 0 [[42]] swallower
      ⟨[], [], ofConfig ⟨24, 6, .release⟩⟩ reply (Script.engine_lawful relay).orderly hreply with
      ⟨nested, hpasses⟩
    exact ⟨nested, (poisoned_for_good.1 _ _ hpasses).mp hpoisoned, hpasses⟩
  · exact (poisoned_for_good.2.1 ⟨[], [], reply.machine⟩ _ .refl hpoisoned).2 Script.Player relay
      (Script.engine relay) 0 [[42]] swallower []
  · exact (poisoned_for_good.2.2.2 relay ⟨some 1, 0⟩ ready 1 0 back hback).mpr
      (Or.inr ⟨_, _, hverdict⟩)

end Machine

/-! ## Outputs of poisoned machines -/

/-- The engine never comes back well when it has poisoned the machine. -/
def Engine.Candid {σ : Type} (run : Engine σ) : Prop :=
  ∀ (engine : σ) (m : Machine) (start returnTo : Nat) (back : Comeback σ),
    run engine m start returnTo = some back → back.verdict = .ok () →
      back.machine.poisoned = true → m.poisoned = true

/-- The interpreter ends with the fault of every invocation. -/
theorem Interpreter.run_candid (program : Program) : (Interpreter.run program).Candid := by
  intro interpreter m start returnTo back hback hverdict hpoisoned
  rcases (Interpreter.run_poisoned hback).mp hpoisoned with hpoisoned | ⟨site, cause, hcause⟩
  · exact hpoisoned
  · rw [hverdict] at hcause
    contradiction

namespace Machine

section Invocations

variable {σ : Type} {program : Program} {run : Engine σ} {m : Machine} {function : UInt16}
  {inputs : List Bytes} {engine : σ} {reply : Reply σ} {outputs : List Bytes}

/-- Outputs come from machines only that were not poisoned before. -/
theorem not_poisoned_of_invoke_ok
    (hreply : m.invoke program run function inputs engine = some reply)
    (hok : reply.outcome = .ok outputs) : ¬ m.poisoned = true := by
  intro hpoisoned
  rw [invoke_of_poisoned hpoisoned] at hreply
  cases hreply
  contradiction

/-- What the engine of an invocation that delivers outputs has left behind. -/
theorem exists_back_of_invoke_ok
    (hreply : m.invoke program run function inputs engine = some reply)
    (hok : reply.outcome = .ok outputs) :
    ∃ call m' back, enter program function inputs m = .ok call m' ∧
      run engine m' call.start call.previous = some back ∧ back.verdict = .ok () ∧
      (reply.machine.poisoned = true ↔ back.machine.poisoned = true) := by
  rcases invoke_cases hreply with ⟨e, m', henter, rfl⟩ | ⟨call, m', back, henter, hback, rfl⟩
  · contradiction
  · refine ⟨call, m', back, henter, hback, ?_, ?_⟩
    · cases hverdict : back.verdict with
      | ok _ => rfl
      | error cause =>
          rw [conclude_of_error hverdict] at hok
          contradiction
    · rw [poisoned_conclude, hok]
      simp

/-- An invocation that delivers outputs has found the machine in order and leaves it so,
unless an invocation nested in it has ended in a fault of which the engine has taken no
notice.  Then the outputs are those of a poisoned machine.  No candid engine brings this
about, such as the interpreter. -/
theorem invoke_delivers (horderly : run.Orderly)
    (hreply : m.invoke program run function inputs engine = some reply)
    (hok : reply.outcome = .ok outputs) :
    m.poisoned = false ∧
      (∃ nested, Passes ⟨[], [], m⟩ ⟨[], nested ++ [reply.outcome], reply.machine⟩ ∧
        (reply.machine.poisoned = true ↔ Faulted nested)) ∧
      (run.Candid → reply.machine.poisoned = false) := by
  have hbefore := not_poisoned_of_invoke_ok hreply hok
  refine ⟨Bool.eq_false_iff.mpr hbefore, ?_, ?_⟩
  · rcases invoke_passes horderly hreply [] [] with ⟨nested, hpasses⟩
    refine ⟨nested, hpasses, ?_⟩
    rcases hpasses.poisoned with ⟨ended, hended, hlater⟩
    have hended : nested ++ [reply.outcome] = ended := hended
    have hlast : ¬ Faulted [reply.outcome] := by
      rw [faulted_singleton, hok]
      simp
    rw [hlater, or_iff_right hbefore, ← hended, faulted_append, or_iff_left hlast]
  · intro hcandid
    rcases exists_back_of_invoke_ok hreply hok with
      ⟨call, m', back, henter, hback, hverdict, hsame⟩
    rw [Bool.eq_false_iff, Ne, hsame]
    intro hpoisoned
    have hentered := hcandid engine m' _ _ back hback hverdict hpoisoned
    rw [poisoned_of_enter henter] at hentered
    exact hbefore hentered

/-- The interpreter delivers outputs from a machine that is in order. -/
theorem invoke_delivers_relay :
    ∃ reply, (ofConfig ⟨24, 6, .release⟩).invoke relay (Interpreter.run relay) 0 [[42]] {} =
        some reply ∧
      reply.outcome = .ok [[42]] ∧ reply.machine.poisoned = false := by
  have houtcome : ((ofConfig ⟨24, 6, .release⟩).invoke relay (Interpreter.run relay) 0 [[42]]
      {}).map Reply.outcome = some (.ok [[42]]) := by
    decide +kernel
  rcases Option.map_eq_some_iff.mp houtcome with ⟨reply, hreply, hok⟩
  have hdelivers := invoke_delivers (Interpreter.run_lawful relay).orderly hreply hok
  exact ⟨reply, hreply, hok, hdelivers.2.2 (Interpreter.run_candid relay)⟩

/-- A player that is lawful, but swallows a fault, makes an invocation deliver outputs from a
poisoned machine. -/
theorem poisoned_delivers_swallower :
    (Script.engine relay).Lawful ∧
      ∃ reply, (ofConfig ⟨24, 6, .release⟩).invoke relay (Script.engine relay) 0 [[42]]
          swallower = some reply ∧
        reply.outcome = .ok [[0]] ∧ reply.machine.poisoned = true := by
  refine ⟨Script.engine_lawful relay, ?_⟩
  have hreply : ((ofConfig ⟨24, 6, .release⟩).invoke relay (Script.engine relay) 0 [[42]]
      swallower).map (fun reply => (reply.outcome, reply.machine.poisoned)) =
        some (.ok [[0]], true) := by
    decide +kernel
  rcases Option.map_eq_some_iff.mp hreply with ⟨reply, hreply, heq⟩
  rcases Prod.mk.inj heq with ⟨hok, hpoisoned⟩
  exact ⟨reply, hreply, hok, hpoisoned⟩

end Invocations
end Machine
end FrameMachine
