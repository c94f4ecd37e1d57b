import FrameMachine.Proofs.Courses
import FrameMachine.Proofs.Interchange
import Mathlib.Tactic.ByContra

/-!
# Budgets

A budget cuts a run and has no other influence on it.  As long as an interpreter
can still count, its steps do not depend on how far it can count; when it can
count no more, its run stops at the next instruction.  So a run with a budget is
either the run with any larger one or a proper beginning of it.

Main results:

- Theorem `step_map`: two interpreters step alike as long as neither is exhausted.
- Theorem `reach_transfer`: with another interpreter a run gets to the same places.
- Theorem `exists_complete`: a run with a budget ends.
- Theorem `uncountable_of_complete_eq_none`: so does any other one that is ever over, unless
  its instruction counter would no longer be a word.
- Theorem `complete_cut`: a run with a budget is a run with more, or a beginning of one.
- Theorem `Machine.invoke_cut`: an invocation with a budget is the one with a larger
  budget, or is cut off where that one goes on.
-/

namespace FrameMachine
namespace Interpreter

open Machine

/-! ## Allowances -/

/-- Number of instructions that an interpreter can still count: what is left of its
budget or, if it has none, of the machine words. -/
def allowance (interpreter : Interpreter) : Nat :=
  match interpreter.fuel with
  | some fuel => fuel - interpreter.executed
  | none => Word.count - interpreter.executed

section Allowance

variable {interpreter richer : Interpreter} {count : Nat}

@[simp]
theorem charge_counted (interpreter : Interpreter) (count : Nat) :
    (interpreter.counted count).charge = interpreter.counted (count + 1) :=
  rfl

/-- An interpreter is not exhausted before its allowance is used up. -/
theorem exhausted_counted_of_lt (h : count < interpreter.allowance) :
    (interpreter.counted count).exhausted = false := by
  rcases interpreter with ⟨fuel, executed⟩
  cases fuel with
  | none => rfl
  | some fuel =>
      simp only [allowance] at h
      exact decide_eq_false (by dsimp only [counted]; omega)

/-- An interpreter with a budget is exhausted when its allowance is used up. -/
theorem exhausted_counted_iff (hfuel : interpreter.fuel.isSome) :
    (interpreter.counted count).exhausted = true ↔ interpreter.allowance ≤ count := by
  rcases interpreter with ⟨fuel, executed⟩
  cases fuel with
  | none => simp at hfuel
  | some fuel =>
      have hiff : (counted ⟨some fuel, executed⟩ count).exhausted = true ↔
          fuel ≤ executed + count := decide_eq_true_iff
      simp only [allowance, hiff]
      omega

/-- What is within the allowance of an interpreter can be counted. -/
theorem countable_counted (h : count < interpreter.allowance) :
    interpreter.countable (interpreter.counted count).executed = true := by
  rcases interpreter with ⟨fuel, executed⟩
  cases fuel with
  | none =>
      simp only [allowance] at h
      exact decide_eq_true (by dsimp only [counted]; omega)
  | some fuel => rfl

/-- A run is given time for its whole allowance. -/
theorem allowance_le_horizon (interpreter : Interpreter) :
    interpreter.allowance ≤ interpreter.horizon := by
  rcases interpreter with ⟨fuel, executed⟩
  cases fuel with
  | none => exact Nat.le_refl _
  | some fuel => exact Nat.le_succ _

theorem horizon_eq (hfuel : interpreter.fuel.isSome) :
    interpreter.horizon = interpreter.allowance + 1 := by
  rcases interpreter with ⟨fuel, executed⟩
  cases fuel with
  | none => simp at hfuel
  | some fuel => rfl

/-- An interpreter without a budget can count further than one that has counted as much
and has a budget. -/
theorem allowance_lt_of_fuel {fuel : Nat} (hfuel : interpreter.fuel = some fuel)
    (hword : fuel < Word.count) (hexecuted : interpreter.executed < Word.count) :
    interpreter.allowance < allowance { interpreter with fuel := none } := by
  simp only [allowance, hfuel]
  omega

end Allowance

/-! ## Steps with another interpreter -/

/-- Change the interpreter that a step leaves behind. -/
def Turn.map (change : Interpreter → Interpreter) : Turn → Turn
  | .more x => .more { x with interpreter := change x.interpreter }
  | .ended back => .ended { back with engine := change back.engine }

section Steps

variable {program : Program} {x y : Execution} {count clock : Nat} {back : Comeback Interpreter}

/-- Going on after an instruction only passes the interpreter on. -/
theorem settle_map (change : Interpreter → Interpreter) (interpreter : Interpreter)
    (returnTo : Nat) (suspended : List Suspension)
    (result : EStateM.Result Fault Machine Progress) :
    settle (change interpreter) returnTo suspended result =
      (settle interpreter returnTo suspended result).map change := by
  cases result with
  | error cause m => rfl
  | ok progress m =>
      cases progress with
      | running => rfl
      | nested s => rfl
      | returned =>
          cases suspended with
          | nil => rfl
          | cons s outer =>
              simp only [settle]
              cases resume s m <;> rfl

/-- Two interpreters step alike as long as neither is exhausted. -/
theorem step_map (program : Program) (change : Interpreter → Interpreter)
    (hcharge : change x.interpreter.charge = (change x.interpreter).charge)
    (h : x.interpreter.exhausted = false) (h' : (change x.interpreter).exhausted = false) :
    step program { x with interpreter := change x.interpreter } =
      (step program x).map change := by
  rcases x with ⟨interpreter, m, returnTo, suspended⟩
  dsimp only at hcharge h h' ⊢
  unfold step
  dsimp only
  cases fetch program m with
  | error cause => rfl
  | ok found =>
      dsimp only
      rw [h, h', ← hcharge]
      exact settle_map change interpreter.charge returnTo suspended _

/-- What becomes of an interpreter that has counted more than `source` when `target`
does the counting. -/
def transfer (source target interpreter : Interpreter) : Interpreter :=
  target.counted (interpreter.executed - source.executed)

@[simp]
theorem transfer_counted (source target : Interpreter) (count : Nat) :
    transfer source target (source.counted count) = target.counted count := by
  simp [transfer, counted]

/-- An exhausted interpreter counts nothing. -/
theorem engine_of_exhausted (h : x.interpreter.exhausted = true)
    (hend : step program x = .ended back) : back.engine = x.interpreter := by
  rcases x with ⟨interpreter, m, returnTo, suspended⟩
  dsimp only at h ⊢
  unfold step at hend
  dsimp only at hend
  split at hend
  · cases hend
    rfl
  · rw [if_pos h] at hend
    cases hend
    rfl

/-- With another interpreter a step from where a run has got is the same, as long as
both can still count. -/
theorem step_transfer (hreach : reach program count x = some y) {richer : Interpreter}
    (h : y.interpreter.exhausted = false) (hcount : count < richer.allowance) :
    step program { y with interpreter := richer.counted count } =
      (step program y).map (transfer x.interpreter richer) := by
  have hcounted := interpreter_of_reach hreach
  have hmap := @step_map y program (transfer x.interpreter richer)
  rw [hcounted] at hmap h
  simp only [charge_counted, transfer_counted] at hmap
  exact hmap trivial h (exhausted_counted_of_lt hcount)

/-- With another interpreter a run gets to the same places, as far as that one can
count. -/
theorem reach_transfer (hreach : reach program count x = some y) {richer : Interpreter}
    (hcount : count ≤ richer.allowance) :
    reach program count { x with interpreter := richer } =
      some { y with interpreter := richer.counted count } := by
  induction count generalizing y with
  | zero =>
      cases hreach
      rfl
  | succ count ih =>
      rcases reach_succ_eq_some_iff.mp hreach with ⟨z, hz, hs⟩
      have hstep := step_transfer hz (exhausted_of_more hs) hcount
      have hcounted := interpreter_of_reach hreach
      rw [hs] at hstep
      simp only [Turn.map, hcounted, transfer_counted] at hstep
      exact reach_succ_eq_some_iff.mpr ⟨_, ih hz (Nat.le_of_succ_le hcount), hstep⟩

/-! ## Runs with a budget -/

/-- A run that is not over by its clock has got somewhere. -/
theorem exists_reach_of_runFor_eq_none (h : runFor program clock x = none) :
    ∃ y, reach program clock x = some y := by
  induction clock generalizing x with
  | zero => exact ⟨x, rfl⟩
  | succ clock ih =>
      simp only [runFor] at h
      cases hs : step program x with
      | more y =>
          rw [hs] at h
          rw [reach_succ_of_more hs]
          exact ih h
      | ended back =>
          rw [hs] at h
          contradiction

/-- A run with a budget ends. -/
theorem exists_runFor (program : Program) (hfuel : x.interpreter.fuel.isSome) :
    ∃ back, runFor program x.interpreter.horizon x = some back := by
  rw [horizon_eq hfuel]
  cases hrun : runFor program (x.interpreter.allowance + 1) x with
  | none =>
      rcases exists_reach_of_runFor_eq_none hrun with ⟨y, hy⟩
      rcases reach_succ_eq_some_iff.mp hy with ⟨z, hz, hs⟩
      have hgoes := exhausted_of_more hs
      have hused := (exhausted_counted_iff hfuel).mpr (Nat.le_refl x.interpreter.allowance)
      rw [interpreter_of_reach hz, hused] at hgoes
      contradiction
  | some back => exact ⟨back, rfl⟩

/-- A run with a budget is completed. -/
theorem exists_complete (program : Program) (hfuel : x.interpreter.fuel.isSome) :
    ∃ back, complete program x = some back := by
  rw [complete_of_fuel program hfuel]
  exact exists_runFor program hfuel

/-- A run that is over after some time is completed, unless it has no budget and comes to a
count that is no word. -/
theorem uncountable_of_complete_eq_none (hnone : complete program x = none)
    (hrun : runFor program clock x = some back) :
    x.interpreter.fuel = none ∧ Word.count ≤ back.engine.executed := by
  cases hfuel : x.interpreter.fuel with
  | some fuel =>
      rcases exists_complete program (x := x) (by rw [hfuel]; rfl) with ⟨back', hcompleted⟩
      rw [hnone] at hcompleted
      contradiction
  | none =>
      refine ⟨rfl, ?_⟩
      cases hover : runFor program x.interpreter.horizon x with
      | none =>
          have hcount := executed_of_runFor_eq_none hover hrun
          simp only [horizon, hfuel] at hcount
          omega
      | some back' =>
          cases runFor_unique hover hrun
          have huncountable := Option.filter_eq_none_iff.mp hnone back hover
          simpa [countable, hfuel] using huncountable

/-- A run with a budget gets no further than the budget allows. -/
theorem count_le_of_reach (hfuel : x.interpreter.fuel.isSome)
    (hreach : reach program count x = some y) : count ≤ x.interpreter.allowance := by
  rcases exists_runFor program hfuel with ⟨back, hrun⟩
  by_contra hlt
  have hmore := runFor_of_reach hreach 0
  rw [Nat.add_zero, runFor_mono (by rw [horizon_eq hfuel]; omega) hrun] at hmore
  contradiction

/-- A run with a budget counts no more than the budget allows. -/
theorem executed_le_of_complete (hfuel : x.interpreter.fuel.isSome)
    (hrun : complete program x = some back) :
    back.engine.executed ≤ x.interpreter.executed + x.interpreter.allowance := by
  rcases runFor_eq_some_iff.mp (runFor_of_complete hrun) with ⟨count, hcount, y, hy, hend⟩
  have hcounted := interpreter_of_reach hy
  rw [horizon_eq hfuel] at hcount
  by_cases hlt : count < x.interpreter.allowance
  · exact executed_le_add_clock (runFor_eq_some_iff.mpr ⟨count, hlt, y, hy, hend⟩)
  · have hused : y.interpreter.exhausted = true := by
      rw [hcounted]
      exact (exhausted_counted_iff hfuel).mpr (Nat.le_of_not_lt hlt)
    rw [engine_of_exhausted hused hend, hcounted]
    exact Nat.add_le_add_left (Nat.le_of_lt_succ hcount) _

/-- The last step of a run with an interpreter that is not exhausted is the last one
with any other. -/
theorem runFor_transfer (hreach : reach program count x = some y)
    (hend : step program y = .ended back) (h : y.interpreter.exhausted = false)
    {richer : Interpreter} (hcount : count < richer.allowance) :
    runFor program richer.horizon { x with interpreter := richer } =
      some { back with engine := transfer x.interpreter richer back.engine } := by
  have hstep := step_transfer hreach h hcount
  rw [hend] at hstep
  exact runFor_eq_some_iff.mpr ⟨count, Nat.lt_of_lt_of_le hcount richer.allowance_le_horizon,
    _, reach_transfer hreach (Nat.le_of_lt hcount), hstep⟩

/-- Running off the end of the code does not depend on the interpreter. -/
theorem step_of_fetch_eq_error {cause : Fault} (hfetch : fetch program y.machine = .error cause)
    (interpreter : Interpreter) :
    step program { y with interpreter := interpreter } =
      stop interpreter y.suspended cause y.machine := by
  simp only [step, hfetch]

/-- An execution is about to execute an instruction: there is one, and the interpreter
is not exhausted. -/
structure Executes (program : Program) (x : Execution) (site : Site) (i : Instruction) :
    Prop where
  fetched : fetch program x.machine = .ok (site, i)
  going : x.interpreter.exhausted = false

theorem Executes.step_eq {site : Site} {i : Instruction} (h : Executes program x site i) :
    step program x =
      settle x.interpreter.charge x.returnTo x.suspended
        (execute program (innermostReturn x.returnTo x.suspended) site i
          (x.machine.note (.executing x.machine.stack.activeIndex site.location i))) := by
  simp only [step, h.fetched, h.going, Bool.false_eq_true, if_false]

/-- A run that is about to execute an instruction counts it. -/
theorem Executes.lt_executed {site : Site} {i : Instruction} (h : Executes program x site i)
    (hrun : runFor program clock x = some back) :
    x.interpreter.executed < back.engine.executed := by
  cases clock with
  | zero => simp [runFor] at hrun
  | succ clock =>
      have hcharge := settle_interpreter x.interpreter.charge x.returnTo x.suspended
        (execute program (innermostReturn x.returnTo x.suspended) site i
          (x.machine.note (.executing x.machine.stack.activeIndex site.location i)))
      rw [← h.step_eq] at hcharge
      simp only [runFor] at hrun
      cases hs : step program x with
      | more y =>
          rw [hs] at hrun hcharge
          have hle := executed_le_of_runFor hrun
          rw [show y.interpreter = x.interpreter.charge from hcharge] at hle
          exact hle
      | ended back' =>
          rw [hs] at hrun hcharge
          cases hrun
          rw [show back.engine = x.interpreter.charge from hcharge]
          exact Nat.lt_succ_self _

/-- A run with a budget ends as any run with more does, or it executes as many
instructions as it can and is cut off where that one goes on. -/
theorem complete_cut (hfuel : x.interpreter.fuel.isSome)
    (hrun : complete program x = some back) {richer : Interpreter}
    (hless : x.interpreter.allowance < richer.allowance) :
    (∃ count ≤ x.interpreter.allowance, back.engine = x.interpreter.counted count ∧
        complete program { x with interpreter := richer } =
          some { back with engine := richer.counted count }) ∨
      back.engine = x.interpreter.counted x.interpreter.allowance ∧
        ∃ y site i cause, reach program x.interpreter.allowance
            { x with interpreter := richer } = some y ∧
          Executes program y site i ∧ back.verdict = .error cause ∧
          cause.flatten = .fuelExhausted site.location := by
  rcases runFor_eq_some_iff.mp (runFor_of_complete hrun) with ⟨count, hcount, y, hy, hend⟩
  have hcount : count ≤ x.interpreter.allowance := by
    rw [horizon_eq hfuel] at hcount
    exact Nat.le_of_lt_succ hcount
  have hcounted := interpreter_of_reach hy
  have hcompleted {n : Nat} (hn : n ≤ x.interpreter.allowance)
      (hricher : runFor program richer.horizon { x with interpreter := richer } =
        some { back with engine := richer.counted n }) :
      complete program { x with interpreter := richer } =
        some { back with engine := richer.counted n } :=
    Option.filter_eq_some_iff.mpr ⟨hricher, countable_counted (Nat.lt_of_le_of_lt hn hless)⟩
  by_cases hlt : count < x.interpreter.allowance
  · have hgoing := exhausted_counted_of_lt hlt
    rw [← hcounted] at hgoing
    have hricher := runFor_transfer hy hend hgoing (Nat.lt_trans hlt hless)
    have hcharge := step_interpreter program y
    rw [hend, hcounted] at hcharge
    rcases hcharge with heq | heq
    · refine Or.inl ⟨count, hcount, heq, hcompleted hcount ?_⟩
      rw [hricher, heq, transfer_counted]
    · rw [charge_counted] at heq
      refine Or.inl ⟨count + 1, hlt, heq, hcompleted hlt ?_⟩
      rw [hricher, heq, transfer_counted]
  · obtain rfl : count = x.interpreter.allowance := by omega
    have hused := (exhausted_counted_iff hfuel).mpr (Nat.le_refl x.interpreter.allowance)
    have hricher := reach_transfer hy (Nat.le_of_lt hless)
    rw [← hcounted] at hused
    cases hfetch : fetch program y.machine with
    | error cause =>
        -- the code is over, which is found out before the budget is looked at
        have hstop : step program y = stop y.interpreter y.suspended cause y.machine :=
          step_of_fetch_eq_error hfetch y.interpreter
        have hstop' := step_of_fetch_eq_error hfetch
          (richer.counted x.interpreter.allowance)
        rw [hend, stop_eq, Turn.ended.injEq] at hstop
        refine Or.inl ⟨x.interpreter.allowance, Nat.le_refl _, by rw [hstop, ← hcounted],
          hcompleted (Nat.le_refl _) ?_⟩
        rw [hstop]
        exact runFor_eq_some_iff.mpr
          ⟨_, Nat.lt_of_lt_of_le hless richer.allowance_le_horizon, _, hricher, hstop'⟩
    | ok found =>
        rcases found with ⟨site, i⟩
        have hstop : step program y =
            stop y.interpreter y.suspended (.fuelExhausted site.location) y.machine := by
          simp only [step, hfetch, hused, if_true]
        rw [hend, stop_eq, Turn.ended.injEq] at hstop
        refine Or.inr ⟨by rw [hstop, ← hcounted], _, site, i, _, hricher,
          ⟨hfetch, exhausted_counted_of_lt hless⟩, by rw [hstop], flatten_abandon ..⟩

end Steps
end Interpreter

namespace Machine

/-! ## Invocations with a budget -/

section Invocations

variable {program : Program} {function : UInt16} {inputs : List Bytes} {m : Machine}
  {interpreter : Interpreter}

/-- An invocation has executed as many instructions as its interpreter could count, and
was cut off where the invocation with `richer` executes the next one. -/
structure CutOff (program : Program) (function : UInt16) (inputs : List Bytes) (m : Machine)
    (interpreter richer : Interpreter) (reply : Reply Interpreter) : Prop where
  engine_eq : reply.engine = interpreter.counted interpreter.allowance
  cut : ∃ start x site i cause, launch program function inputs richer m = some start ∧
    Interpreter.reach program interpreter.allowance start = some x ∧
    Interpreter.Executes program x site i ∧
    reply.outcome = .error (.fault cause) ∧ cause.flatten = .fuelExhausted site.location

/-- An invocation with a budget comes back, and at no depth of it are more instructions
executed than the budget allows.  Compared with the invocation with any larger budget, or
without one: if that one comes back within the smaller budget, this one brings the same
reply, machine and number of instructions; and otherwise this one is cut off exactly
where that one executes one instruction too many. -/
theorem invoke_cut (hfuel : interpreter.fuel.isSome) :
    ∃ reply, m.invoke program (Interpreter.run program) function inputs interpreter =
        some reply ∧
      reply.engine.executed ≤ interpreter.executed + interpreter.allowance ∧
      (∀ x, m.Visits program function inputs interpreter x →
        x.interpreter.executed ≤ interpreter.executed + interpreter.allowance) ∧
      ∀ richer : Interpreter, interpreter.allowance < richer.allowance →
        (∀ reply', m.invoke program (Interpreter.run program) function inputs richer =
            some reply' →
          reply'.engine.executed ≤ richer.executed + interpreter.allowance →
          ∃ count, reply = { reply' with engine := interpreter.counted count } ∧
            reply'.engine = richer.counted count) ∧
        ((∀ reply', m.invoke program (Interpreter.run program) function inputs richer =
            some reply' →
          richer.executed + interpreter.allowance < reply'.engine.executed) →
          CutOff program function inputs m interpreter richer reply) := by
  cases hlaunch : launch program function inputs interpreter m with
  | none =>
      rcases invoke_of_launch_eq_none hlaunch with ⟨e, m', hrefused⟩
      refine ⟨_, hrefused interpreter, Nat.le_add_right .., ?_, ?_⟩
      · rintro x ⟨start, count, hstart, -⟩
        rw [hlaunch] at hstart
        contradiction
      · intro richer _
        rw [hrefused richer]
        constructor
        · intro reply' hreply' _
          cases hreply'
          exact ⟨0, rfl, rfl⟩
        · intro hlong
          have hlong := hlong _ rfl
          dsimp only at hlong
          omega
  | some start =>
      rcases invoke_of_launch hlaunch with ⟨call, m', hinvoke⟩
      have hstart := (hinvoke interpreter).1
      rcases Interpreter.exists_complete program
        (x := ⟨interpreter, m', start.returnTo, []⟩) hfuel with ⟨back, hrun⟩
      refine ⟨conclude call back, ?_, ?_, ?_, ?_⟩
      · rw [(hinvoke interpreter).2, hrun, Option.map_some]
      · have hexecuted := Interpreter.executed_le_of_complete hfuel hrun
        rw [conclude_engine]
        exact hexecuted
      · rintro x ⟨start', count, hstart', hreach⟩
        rw [hstart, Option.some.injEq] at hstart'
        subst hstart'
        have hcount := Interpreter.count_le_of_reach hfuel hreach
        rw [Interpreter.interpreter_of_reach hreach]
        exact Nat.add_le_add_left hcount _
      · intro richer hless
        rw [(hinvoke richer).2]
        rcases Interpreter.complete_cut hfuel hrun hless with
          ⟨count, hcount, hengine, hricher⟩ |
          ⟨hengine, x, site, i, cause, hx, hgoes, hverdict, hflat⟩
        · rw [hricher, Option.map_some, conclude_engine_eq]
          constructor
          · intro reply' hreply' _
            cases hreply'
            refine ⟨count, ?_, rfl⟩
            rw [← hengine, ← conclude_engine_eq]
          · intro hlong
            have hlong := Nat.lt_of_add_lt_add_left (hlong _ rfl)
            exact absurd hcount (Nat.not_le.mpr hlong)
        · constructor
          · intro reply' hreply' hshort
            rcases Option.map_eq_some_iff.mp hreply' with ⟨back', hricher, rfl⟩
            have hlong := hgoes.lt_executed (Interpreter.runFor_rest hx
              (Interpreter.runFor_of_complete hricher))
            rw [Interpreter.interpreter_of_reach hx] at hlong
            rw [conclude_engine] at hshort
            exact absurd hshort (Nat.not_le.mpr hlong)
          · intro _
            exact ⟨(conclude_engine ..).trans hengine, _, x, site, i, cause, (hinvoke richer).1,
              hx, hgoes, conclude_of_error hverdict, hflat⟩

/-- A budget of three instructions is used up two levels below the first function. -/
theorem invoke_cut_relay :
    ∃ reply, (ofConfig ⟨24, 5, .release⟩).invoke relay (Interpreter.run relay) 0 [[42]]
        ⟨some 3, 0⟩ = some reply ∧
      reply.outcome = .error (.fault (.callbackFault ⟨0, 0⟩ (.fuelExhausted ⟨2, 1⟩))) ∧
      CutOff relay 0 [[42]] (ofConfig ⟨24, 5, .release⟩) ⟨some 3, 0⟩ ⟨none, 0⟩ reply := by
  have houtcome : ((ofConfig ⟨24, 5, .release⟩).invoke relay (Interpreter.run relay) 0 [[42]]
      ⟨some 3, 0⟩).map Reply.outcome =
        some (.error (.fault (.callbackFault ⟨0, 0⟩ (.fuelExhausted ⟨2, 1⟩)))) := by
    decide +kernel
  have hwhole : ((ofConfig ⟨24, 5, .release⟩).invoke relay (Interpreter.run relay) 0 [[42]]
      ⟨none, 0⟩).map (fun reply => reply.engine.executed) = some 6 := by
    decide +kernel
  have hless : Interpreter.allowance ⟨some 3, 0⟩ < Interpreter.allowance ⟨none, 0⟩ :=
    Interpreter.allowance_lt_of_fuel rfl (by decide) (by decide)
  rcases @invoke_cut relay 0 [[42]] (ofConfig ⟨24, 5, .release⟩) ⟨some 3, 0⟩ rfl with
    ⟨reply, hreply, -, -, hcut⟩
  rw [hreply] at houtcome
  refine ⟨reply, hreply, Option.some.inj houtcome, (hcut _ hless).2 ?_⟩
  intro reply' hreply'
  rw [hreply'] at hwhole
  have hsix : reply'.engine.executed = 6 := Option.some.inj hwhole
  rw [hsix]
  decide

end Invocations
end Machine
end FrameMachine
