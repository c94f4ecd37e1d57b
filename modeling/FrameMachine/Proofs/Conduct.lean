import FrameMachine.Script
import FrameMachine.Proofs.Soundness

/-!
# What engines do to a machine

An engine has a machine in its hands: it makes requests, changes the active frame, writes
bytes, and invokes functions in turn.  A *history* is a sequence of such acts, with the
invocations that are open at its end and the outcomes of those that are over.  An engine is
*lawful* if whatever it does to a machine is a history that leaves open no invocation of its
own.

One thing more can be done to a machine, which is no part of a history: putting another
arena or another call stack in the place of its own.  Histories are there to tell what stays
as it was, the sizes of the machine first of all, and nothing does when a part is replaced.

Main results:

- Theorems `History.sound` and `History.sameShape`: no history makes a machine unsound,
  or changes its sizes or its reclaim policy.
- Theorems `Interpreter.run_lawful` and `Script.engine_lawful`: the interpreter and all
  players are lawful.
-/

namespace FrameMachine

/-- What an invocation brings: its outputs, or why there are none. -/
abbrev Outcome := Except InvokeError (List Bytes)

namespace Machine

section Histories

variable {program : Program} {origin m m' : Machine} {opened : List Invocation}
  {outcomes : List Outcome}

/-! ## Histories -/

/-- What can be done from outside to a machine that keeps its own arena and call stack, over
any programs: the invocations that are open, innermost first, the outcomes of those that are
over, and the machine then. -/
inductive History (origin : Machine) : List Invocation → List Outcome → Machine → Prop
  | start : History origin [] [] origin
  | perform {opened : List Invocation} {outcomes : List Outcome} {m : Machine}
      (h : History origin opened outcomes m) (program : Program) (op : Operation) :
      History origin opened outcomes (after (m.perform program op))
  | note {opened : List Invocation} {outcomes : List Outcome} {m : Machine}
      (h : History origin opened outcomes m) (e : Event) :
      History origin opened outcomes (m.note e)
  | store {opened : List Invocation} {outcomes : List Outcome} {m : Machine}
      (h : History origin opened outcomes m) (offset : Nat) (bytes : Bytes) :
      History origin opened outcomes (m.modifyArena (Arena.store offset bytes))
  | modifyActive {opened : List Invocation} {outcomes : List Outcome} {m : Machine}
      (h : History origin opened outcomes m) (change : Frame → Frame) :
      History origin opened outcomes (m.modifyStack (CallStack.modifyActive change))
  | refused {opened : List Invocation} {outcomes : List Outcome} {m m' : Machine}
      (h : History origin opened outcomes m) {program : Program} {function : UInt16}
      {inputs : List Bytes} {e : InvokeError}
      (henter : enter program function inputs m = .error e m') :
      History origin opened (outcomes ++ [.error e]) m'
  | entered {opened : List Invocation} {outcomes : List Outcome} {m m' : Machine}
      (h : History origin opened outcomes m) {program : Program} {function : UInt16}
      {inputs : List Bytes} {call : Invocation}
      (henter : enter program function inputs m = .ok call m') :
      History origin (call :: opened) outcomes m'
  | concluded {opened : List Invocation} {outcomes : List Outcome} {m : Machine}
      {call : Invocation} (h : History origin (call :: opened) outcomes m)
      (verdict : Except Fault Unit) :
      History origin opened
        (outcomes ++ [(conclude call ⟨verdict, (), m⟩).outcome])
        (conclude call ⟨verdict, (), m⟩).machine

/-- One history goes on where another one ends. -/
theorem History.trans {opened' : List Invocation} {outcomes' : List Outcome}
    (h : History origin opened outcomes m)
    (h' : History m opened' outcomes' m') :
    History origin (opened' ++ opened) (outcomes ++ outcomes') m' := by
  induction h' with
  | start => simpa using h
  | perform _ program op ih => exact ih.perform program op
  | note _ e ih => exact ih.note e
  | store _ offset bytes ih => exact ih.store offset bytes
  | modifyActive _ change ih => exact ih.modifyActive change
  | refused _ henter ih =>
      rw [← List.append_assoc]
      exact ih.refused henter
  | entered _ henter ih => exact ih.entered henter
  | concluded _ verdict ih =>
      rw [← List.append_assoc]
      exact ih.concluded verdict

/-- Whatever the interpreter does is part of a history. -/
theorem runClosed_history (program : Program) (origin : Machine) :
    Interpreter.RunClosed program
      fun opened m => ∃ outcomes, History origin opened outcomes m where
  changes opened :=
    { note := fun _ ⟨outcomes, h⟩ => ⟨outcomes, h.note _⟩
      store := fun offset bytes ⟨outcomes, h⟩ => ⟨outcomes, h.store offset bytes⟩
      modifyActive := fun change ⟨outcomes, h⟩ => ⟨outcomes, h.modifyActive change⟩
      unwindTo := fun index ⟨outcomes, h⟩ =>
        ⟨outcomes, h.perform program (.stack (.unwindTo index))⟩
      releaseFrame := fun window ⟨outcomes, h⟩ =>
        ⟨outcomes, h.perform program (.releaseFrame window)⟩
      framed := by
        rintro m function routine hroutine hroom ⟨outcomes, h⟩
        have hpushed := h.perform program (.pushFrame function routine.descriptor.size)
        simp only [Machine.perform, pushFrame_eq, hroom] at hpushed
        exact ⟨outcomes, hpushed⟩ }
  refused henter := fun ⟨_, h⟩ => ⟨_, h.refused henter⟩
  entered henter := fun ⟨_, h⟩ => ⟨_, h.entered henter⟩
  failed cause := fun ⟨_, h⟩ => ⟨_, h.concluded (.error cause)⟩
  left {_ m invocation} := by
    rintro ⟨outcomes, h⟩
    rw [← conclude_machine_of_ok invocation () m]
    exact ⟨_, h.concluded (.ok ())⟩

/-! ## What no history changes -/

/-- What survives a run, all requests and all notes survives a history. -/
theorem History.keeps {I : List Invocation → Machine → Prop}
    (hI : ∀ program, Interpreter.RunClosed program I)
    (hnote : ∀ (opened : List Invocation) (e : Event) (m : Machine), I opened m →
      I opened (m.note e))
    (hperform : ∀ (opened : List Invocation) (program : Program) (op : Operation) (m : Machine),
      I opened m → I opened (after (m.perform program op)))
    (horigin : I [] origin) (h : History origin opened outcomes m) : I opened m := by
  -- what involves no program is as with the empty one
  have hI₀ := hI ⟨#[]⟩
  induction h with
  | start => exact horigin
  | perform _ program op ih => exact hperform _ program op _ ih
  | note _ e ih => exact hnote _ e _ ih
  | store _ offset bytes ih => exact (hI₀.changes _).store offset bytes ih
  | modifyActive _ change ih => exact (hI₀.changes _).modifyActive change ih
  | refused _ henter ih => exact (hI _).refused henter ih
  | entered _ henter ih => exact (hI _).entered henter ih
  | @concluded _ _ n call _ verdict ih =>
      cases verdict with
      | error cause => exact hI₀.failed cause ih
      | ok _ =>
          rw [conclude_machine_of_ok]
          exact hI₀.left ih

/-- No history makes a machine unsound. -/
theorem History.sound (horigin : origin.Sound)
    (h : History origin opened outcomes m) : m.Sound :=
  h.keeps
    (fun program => Interpreter.runClosed_of_growthClosed (growthClosed_sound program)
      fun cause h => h.fail cause)
    (fun _ e _ h => h.note e) (fun _ program op m h => keeps_sound_perform program op m h) horigin

/-- A machine has the sizes and the reclaim policy of another one. -/
structure SameShape (origin m : Machine) : Prop where
  arenaCapacity_eq : m.arena.capacity = origin.arena.capacity
  stackCapacity_eq : m.stack.capacity = origin.stack.capacity
  reclaim_eq : m.reclaim = origin.reclaim

theorem SameShape.framed (h : SameShape origin m) (operator : UInt16) (size : UInt32) :
    SameShape origin (m.framed operator size) where
  arenaCapacity_eq := (size_overwrite ..).trans h.arenaCapacity_eq
  stackCapacity_eq := Array.size_setIfInBounds.trans h.stackCapacity_eq
  reclaim_eq := h.reclaim_eq

theorem changeClosed_sameShape (origin : Machine) : ChangeClosed (SameShape origin) where
  note _ h := ⟨h.arenaCapacity_eq, h.stackCapacity_eq, h.reclaim_eq⟩
  store offset bytes h :=
    ⟨(Arena.capacity_store ..).trans h.arenaCapacity_eq, h.stackCapacity_eq, h.reclaim_eq⟩
  modifyActive change h :=
    ⟨h.arenaCapacity_eq, (CallStack.capacity_modifyActive ..).trans h.stackCapacity_eq,
      h.reclaim_eq⟩
  unwindTo _ h := ⟨h.arenaCapacity_eq, h.stackCapacity_eq, h.reclaim_eq⟩
  releaseFrame window h := by
    unfold releaseFrame
    split
    · exact ⟨h.arenaCapacity_eq, h.stackCapacity_eq, h.reclaim_eq⟩
    · exact h

theorem growthClosed_sameShape (program : Program) (origin : Machine) :
    GrowthClosed program (SameShape origin) where
  toChangeClosed := changeClosed_sameShape origin
  framed _ _ h := h.framed _ _

theorem keeps_sameShape_perform (program : Program) (op : Operation) :
    Keeps (SameShape origin) (fun m => perform program op m) := by
  rintro ⟨arena, stack, reclaim, poisoned, journal⟩ h
  cases op with
  | arena op =>
      have hcapacity := (Arena.perform_capacity op arena).trans h.arenaCapacity_eq
      simp only [perform, onArena]
      cases hr : Arena.perform op arena <;> rw [hr] at hcapacity <;>
        exact ⟨hcapacity, h.stackCapacity_eq, h.reclaim_eq⟩
  | stack op =>
      have hcapacity := (CallStack.perform_capacity op stack).trans h.stackCapacity_eq
      simp only [perform, onStack]
      cases hr : CallStack.perform op stack <;> rw [hr] at hcapacity <;>
        exact ⟨h.arenaCapacity_eq, hcapacity, h.reclaim_eq⟩
  | pushFrame operator size =>
      simp only [perform, pushFrame_eq]
      cases hroom : Machine.shortage ⟨arena, stack, reclaim, poisoned, journal⟩ size.toNat with
      | some need => exact h
      | none => exact h.framed operator size
  | releaseFrame window => exact (changeClosed_sameShape origin).releaseFrame window h
  | window index => exact h
  | activeWindow => exact h

/-- No history changes the sizes or the reclaim policy of a machine. -/
theorem History.sameShape (h : History origin opened outcomes m) : SameShape origin m :=
  h.keeps
    (fun program => Interpreter.runClosed_of_growthClosed (growthClosed_sameShape program origin)
      fun _ h => ⟨h.arenaCapacity_eq, h.stackCapacity_eq, h.reclaim_eq⟩)
    (fun _ _ _ h => ⟨h.arenaCapacity_eq, h.stackCapacity_eq, h.reclaim_eq⟩)
    (fun _ program op m h => keeps_sameShape_perform program op m h) ⟨rfl, rfl, rfl⟩

end Histories
end Machine

/-! ## Lawful engines -/

/-- Whatever the engine does to a machine could be done from outside, with the machine's own
arena and call stack left in place, and it leaves open no invocation of its own. -/
def Engine.Lawful {σ : Type} (run : Engine σ) : Prop :=
  ∀ (engine : σ) (m : Machine) (start returnTo : Nat) (back : Comeback σ),
    run engine m start returnTo = some back →
      ∃ outcomes, Machine.History m [] outcomes back.machine

/-- The interpreter is lawful. -/
theorem Interpreter.run_lawful (program : Program) : (Interpreter.run program).Lawful := by
  intro interpreter m start returnTo back hrun
  exact (Machine.runClosed_history program m).run_keeps ⟨[], .start⟩ hrun

/-- Invoking a function with a lawful engine is part of a history. -/
theorem Machine.History.invoke {σ : Type} {program : Program} {run : Engine σ}
    (hlawful : run.Lawful) {function : UInt16} {inputs : List Bytes} {engine : σ}
    {m : Machine} {reply : Reply σ}
    (hreply : m.invoke program run function inputs engine = some reply) :
    ∃ outcomes, History m [] (outcomes ++ [reply.outcome]) reply.machine := by
  rcases invoke_cases hreply with ⟨e, m', henter, rfl⟩ | ⟨call, m', back, henter, hback, rfl⟩
  · exact ⟨[], History.start.refused henter⟩
  · rcases hlawful engine m' _ _ back hback with ⟨outcomes, hrun⟩
    have hconcluded := ((History.start.entered henter).trans hrun).concluded back.verdict
    rw [conclude_engine_eq] at hconcluded
    exact ⟨_, hconcluded⟩

namespace Script

/-! ## Players -/

section Players

variable {program : Program} {nested : Engine Player}

/-- A player that invokes functions with a lawful engine is lawful. -/
theorem play_lawful (hnested : nested.Lawful) {start returnTo : Nat}
    (actions : List Action) {p : Player} {m : Machine} {back : Comeback Player}
    (h : play program nested start returnTo actions p m = some back) :
    ∃ outcomes, Machine.History m [] outcomes back.machine := by
  induction actions generalizing p m with
  | nil =>
      cases h
      exact ⟨[], .start⟩
  | cons action rest ih =>
      -- what the action does comes first, and the rest goes on from there
      have hrest {outcomes : List Outcome} {m' : Machine} {p' : Player}
          (hfirst : Machine.History m [] outcomes m')
          (h : play program nested start returnTo rest p' m' = some back) :
          ∃ outcomes, Machine.History m [] outcomes back.machine := by
        rcases ih h with ⟨outcomes', hlater⟩
        exact ⟨_, hfirst.trans hlater⟩
      cases action with
      | unwind =>
          exact hrest (Machine.History.start.perform program (.stack (.unwindTo returnTo))) h
      | raise cause =>
          cases h
          exact ⟨[], .start⟩
      | interpret fuel =>
          simp only [play] at h
          cases hrun : Interpreter.run program ⟨fuel, 0⟩ m start returnTo with
          | none => simp [hrun] at h
          | some found =>
              rcases found with ⟨verdict, interpreter, m'⟩
              rcases Interpreter.run_lawful program _ _ _ _ _ hrun with ⟨outcomes, hfirst⟩
              rw [hrun] at h
              cases verdict with
              | error cause =>
                  cases h
                  exact ⟨outcomes, hfirst⟩
              | ok _ => exact hrest hfirst h
      | invoke function inputs ignore =>
          simp only [play] at h
          cases hreply : m.invoke program nested function inputs p with
          | none => simp [hreply] at h
          | some reply =>
              rcases reply with ⟨outcome, p', m'⟩
              rcases Machine.History.invoke hnested hreply with ⟨outcomes, hfirst⟩
              rw [hreply] at h
              cases outcome with
              | ok outputs => exact hrest hfirst h
              | error e =>
                  dsimp only at h
                  split at h
                  · exact hrest hfirst h
                  · cases h
                    exact ⟨_, hfirst⟩
      | perform op =>
          have hfirst : Machine.History m [] [] (Machine.after (m.perform program op)) :=
            Machine.History.start.perform program op
          simp only [play, answerOf] at h
          cases hop : m.perform program op <;> rw [hop] at h hfirst <;> exact hrest hfirst h

theorem engineWithin_lawful (program : Program) (depth : Nat) :
    (engineWithin program depth).Lawful := by
  induction depth with
  | zero =>
      intro p m start returnTo back h
      cases h
      exact ⟨[], .start⟩
  | succ depth ih =>
      intro p m start returnTo back h
      simp only [engineWithin] at h
      split at h
      · cases h
        exact ⟨[], .start⟩
      · exact play_lawful ih _ h

/-- All players are lawful. -/
theorem engine_lawful (program : Program) : (engine program).Lawful :=
  fun p => engineWithin_lawful program p.runs.length p

end Players
end Script
end FrameMachine
