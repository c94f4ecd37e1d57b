import FrameMachine.Proofs.Budgets
import FrameMachine.Proofs.Resemblance

/-!
# What an invocation needs

An invocation that brings outputs somewhere needs a number of instructions, a number
of call stack slots and, under each reclaim policy, a number of arena bytes.  Wherever
this need is met it brings the same outputs, and elsewhere it ends because something
is short.  The need is found backwards along the run: each deed adds to the need of
what comes after it, and a return, which makes room, takes from it.

Main results:

- Theorem `Need.met_before_iff`: the need of a deed and what comes after it is met
  exactly if the need of what comes after it is met after the deed.
- Theorem `Interpreter.exists_need`: a run that ends well has a need, whichever
  machine it runs in.
- Theorem `Machine.invoke_need`: so has an invocation, and no other machine changes
  its outputs.
-/

namespace FrameMachine

open Machine

/-! ## Errors of shortage -/

/-- Whether a fault tells that something was short. -/
def Fault.isShortage : Fault → Bool
  | .exhausted .. | .fuelExhausted _ => true
  | _ => false

/-- Whether the innermost cause of an error is that something was short. -/
def InvokeError.isShortage : InvokeError → Bool
  | .rejected (.exhausted _) => true
  | .rejected _ => false
  | .fault cause => cause.flatten.isShortage

/-! ## Needs -/

/-- What a run needs from the machine and the interpreter with which it begins. -/
structure Need where
  /-- Number of instructions. -/
  count : Nat
  /-- Number of free slots of the call stack. -/
  depth : Nat
  /-- Number of arena bytes above the stack pointer, under each policy. -/
  bytes : Reclaim → Nat

namespace Machine

/-- Number of slots of the call stack above the active one. -/
def freeSlots (m : Machine) : Nat := m.stack.capacity - (m.stack.activeIndex + 1)

section Sizes

variable {program : Program} {m : Machine} {depth floor : Nat} {a b : Activation program}
  {below : List (Activation program)}

theorem freeSlots_entering {d : Descriptor} (hroom : m.shortage d.size.toNat = none)
    (function : UInt16) (inputs : List Bytes) :
    (m.entering function d inputs).freeSlots + 1 = m.freeSlots := by
  have hslot := hasRoom_of_shortage_eq_none hroom
  have hcapacity : (m.entering function d inputs).stack.capacity = m.stack.capacity := by
    simp [Machine.entering, framed, CallStack.capacity]
  have hactive : (m.entering function d inputs).stack.activeIndex = m.stack.activeIndex + 1 :=
    rfl
  simp only [freeSlots, hcapacity, hactive]
  omega

theorem available_entering {d : Descriptor} (hroom : m.shortage d.size.toNat = none)
    (function : UInt16) (inputs : List Bytes) :
    (m.entering function d inputs).arena.available + d.size.toNat = m.arena.available := by
  have hsize := available_of_shortage_eq_none hroom
  have hpointer : (m.entering function d inputs).arena.stackPointer =
      m.arena.stackPointer + d.size.toNat := Window.stackPointer_storeSlots ..
  simp only [Arena.available, capacity_entering, hpointer] at hsize ⊢
  omega

theorem freeSlots_returning (hlayout : m.Layout depth floor (b :: a :: below)) (target : Nat)
    (outputs : Bytes) :
    (m.returning (depth + below.length + 1) b.window target outputs).freeSlots =
      m.freeSlots + 1 := by
  have hslot := hlayout.sound.active_lt
  have hactive := hlayout.active_eq
  have hactive' := (hlayout.returning target outputs).active_eq
  have hcapacity : (m.returning (depth + below.length + 1) b.window target
      outputs).stack.capacity = m.stack.capacity := by
    simp [returning, Interpreter.advance, CallStack.advance]
  simp only [List.length_cons] at hactive hactive'
  simp only [freeSlots, hcapacity, hactive']
  omega

theorem available_returning (hlayout : m.Layout depth floor (b :: a :: below))
    (hsnug : m.Snug (b :: a :: below)) (caller target : Nat) (outputs : Bytes) :
    (m.returning caller b.window target outputs).arena.available =
      match m.reclaim with
      | .release => m.arena.available + b.window.size
      | .retain => m.arena.available := by
  have hpointer := hlayout.sound.stackPointer_le
  have hcapacity : (m.returning caller b.window target outputs).arena.capacity =
      m.arena.capacity := by
    rw [Arena.capacity, cells_returning, size_overwrite]
    rfl
  simp only [Arena.available, hcapacity, hsnug.stackPointer_returning hlayout]
  cases hreclaim : m.reclaim with
  | release =>
      have hstop := (hsnug hreclaim).1
      have hbase : b.window.base = b.base := rfl
      dsimp only
      omega
  | retain => rfl

end Sizes
end Machine

namespace Need

/-- The machine and the interpreter have what is needed. -/
@[mk_iff]
structure Met (need : Need) (m : Machine) (interpreter : Interpreter) : Prop where
  fuel : ∀ fuel, interpreter.fuel = some fuel → need.count ≤ fuel - interpreter.executed
  slots : need.depth ≤ m.freeSlots
  bytes : need.bytes m.reclaim ≤ m.arena.available

/-- One more instruction. -/
def counting (need : Need) : Need := { need with count := need.count + 1 }

/-- The need of the return that ends a run. -/
def last : Need := counting ⟨0, 0, fun _ => 0⟩

/-- The need before a frame is allocated, given the need afterwards. -/
def entering (size : Nat) (need : Need) : Need :=
  ⟨need.count, need.depth + 1, fun policy => need.bytes policy + size⟩

/-- The need before a frame is left, given the need afterwards.  Its slot is free again
in any case, but its bytes only under the release policy. -/
def leaving (size : Nat) (need : Need) : Need where
  count := need.count
  depth := need.depth - 1
  bytes
    | .release => need.bytes .release - size
    | .retain => need.bytes .retain

/-- The need of a deed and what comes after it. -/
def before {program : Program} (deed : Deed program) (live : List (Activation program))
    (need : Need) : Need :=
  match deed, live with
  | .work .., _ => need.counting
  | .enter _ callee _ _, _ => (need.entering callee.descriptor.size.toNat).counting
  | .leave .., b :: _ => (need.leaving b.window.size).counting
  | .leave .., [] => need.counting

section Needs

variable {program : Program} {function : UInt16} {depth depth' floor floor' : Nat} {need : Need}
  {m m' : Machine} {interpreter : Interpreter} {deed : Deed program}
  {live live' below : List (Activation program)} {a b : Activation program}

theorem bytes_le_before (deed : Deed program) (live : List (Activation program))
    (h : need.bytes .release ≤ need.bytes .retain) :
    (need.before deed live).bytes .release ≤ (need.before deed live).bytes .retain := by
  cases deed with
  | work position offset bytes => exact h
  | enter function callee hcallee inputs => exact Nat.add_le_add_right h _
  | leave offset outputs =>
      cases live with
      | nil => exact h
      | cons b rest => exact Nat.le_trans (Nat.sub_le ..) h

theorem count_before (deed : Deed program) (live : List (Activation program)) (need : Need) :
    (need.before deed live).count = need.count + 1 := by
  cases deed with
  | work position offset bytes => rfl
  | enter function callee hcallee inputs => rfl
  | leave offset outputs => cases live <;> rfl

/-- Live frames that resemble each other are of the same sizes. -/
theorem before_congr {arena arena' : Arena} (h : Resembling arena arena' live live')
    (deed : Deed program) (need : Need) : need.before deed live = need.before deed live' := by
  cases deed with
  | work position offset bytes => rfl
  | enter function callee hcallee inputs => rfl
  | leave offset outputs =>
      cases h with
      | nil => rfl
      | cons hb _ => exact congrArg (fun size => (need.leaving size).counting) hb.bytes.size_eq

/-! ## Meeting a need -/

/-- Only the sizes of a machine and its policy decide whether a need is met. -/
theorem met_congr (hslots : m.freeSlots = m'.freeSlots) (hreclaim : m.reclaim = m'.reclaim)
    (havailable : m.arena.available = m'.arena.available) :
    need.Met m interpreter ↔ need.Met m' interpreter := by
  rw [met_iff, met_iff, hslots, hreclaim, havailable]

theorem met_of_clearJournal_eq (h : m.clearJournal = m'.clearJournal) :
    need.Met m interpreter ↔ need.Met m' interpreter := by
  rcases parts_eq_of_clearJournal_eq h with ⟨harena, hstack, -⟩
  have hslots : m.freeSlots = m'.freeSlots := by rw [freeSlots, freeSlots, hstack]
  exact met_congr hslots (reclaim_eq_of_clearJournal_eq h) (congrArg Arena.available harena)

/-- An instruction takes from the budget what it needs. -/
theorem met_counting_iff (h : interpreter.exhausted = false) :
    need.counting.Met m interpreter ↔ need.Met m interpreter.charge := by
  have hfuel : (∀ fuel, interpreter.fuel = some fuel →
        need.count + 1 ≤ fuel - interpreter.executed) ↔
      ∀ fuel, interpreter.fuel = some fuel → need.count ≤ fuel - (interpreter.executed + 1) := by
    constructor
    · intro hfuel fuel hsome
      have hle := hfuel fuel hsome
      omega
    · intro hfuel fuel hsome
      have hle := hfuel fuel hsome
      have hlt : ¬ fuel ≤ interpreter.executed := by
        simpa [Interpreter.exhausted, hsome] using h
      omega
  rw [met_iff, met_iff]
  exact and_congr_left' hfuel

/-- A need of instructions is met only by an interpreter that is not exhausted. -/
theorem Met.exhausted_eq (h : need.Met m interpreter) (hcount : 0 < need.count) :
    interpreter.exhausted = false := by
  cases hfuel : interpreter.fuel with
  | none => simp [Interpreter.exhausted, hfuel]
  | some fuel =>
      have hle := h.fuel fuel hfuel
      simp only [Interpreter.exhausted, hfuel, decide_eq_false_iff_not]
      omega

/-- The return that ends a run needs nothing but its instruction. -/
theorem met_last_iff : last.Met m interpreter ↔ interpreter.exhausted = false := by
  constructor
  · intro h
    exact h.exhausted_eq Nat.one_pos
  · intro h
    apply (met_counting_iff h).mpr
    exact ⟨fun fuel _ => Nat.zero_le _, Nat.zero_le _, Nat.zero_le _⟩

/-- The need of a call is met only where nothing is short. -/
theorem Met.shortage_eq_none {size : Nat} (h : (need.entering size).Met m interpreter) :
    m.shortage size = none := by
  have hslots := h.slots
  have hbytes := h.bytes
  simp only [entering, freeSlots] at hslots hbytes
  have hroom : m.stack.hasRoom = true := decide_eq_true (by omega)
  rw [shortage, if_pos hroom, if_pos (by omega)]

/-- The need of a deed is met only where it finds nothing short. -/
theorem Met.shortage?_eq_none (h : (need.before deed live).Met m interpreter) :
    deed.shortage? m = none := by
  cases deed with
  | work position offset bytes => rfl
  | enter function callee hcallee inputs =>
      have hentering : (need.entering callee.descriptor.size.toNat).Met m interpreter :=
        ⟨fun fuel hsome => Nat.le_of_succ_le (h.fuel fuel hsome), h.slots, h.bytes⟩
      exact hentering.shortage_eq_none
  | leave offset outputs => rfl

/-- A new frame takes what it needs. -/
theorem met_entering_iff {d : Descriptor} (hroom : m.shortage d.size.toNat = none)
    (function : UInt16) (inputs : List Bytes) :
    (need.entering d.size.toNat).Met m interpreter ↔
      need.Met (m.entering function d inputs) interpreter := by
  have hreclaim : (m.entering function d inputs).reclaim = m.reclaim := rfl
  simp only [met_iff, entering, hreclaim, ← freeSlots_entering hroom function inputs,
    ← available_entering hroom function inputs, Nat.add_le_add_iff_right]

/-- A frame that is left gives back what is not needed any more. -/
theorem met_leaving_iff (hlayout : m.Layout depth floor (b :: a :: below))
    (hsnug : m.Snug (b :: a :: below)) (target : Nat) (outputs : Bytes) :
    (need.leaving b.window.size).Met m interpreter ↔
      need.Met (m.returning (depth + below.length + 1) b.window target outputs) interpreter := by
  have havailable := available_returning hlayout hsnug (depth + below.length + 1) target outputs
  simp only [met_iff, leaving, reclaim_returning, freeSlots_returning hlayout, havailable]
  cases m.reclaim with
  | release => simp only [Nat.sub_le_iff_le_add]
  | retain => simp only [Nat.sub_le_iff_le_add]

/-- What a deed needs it takes, and what it gives back is not needed. -/
theorem met_before_iff {x y : Interpreter.Execution}
    (h : Interpreter.CoherentAlong function depth floor live x)
    (hdoes : Does x.machine live deed) (hgoing : x.interpreter.exhausted = false)
    (hroom : deed.shortage? x.machine = none)
    (hdone : Interpreter.Done function depth floor deed live x y) (hsnug : x.machine.Snug live) :
    (need.before deed live).Met x.machine x.interpreter ↔ need.Met y.machine y.interpreter := by
  rw [hdone.interpreter_eq, met_of_clearJournal_eq hdone.machine_eq]
  cases hdoes with
  | @work a _ _ _ position offset bytes _ _ _ _ =>
      apply (met_counting_iff hgoing).trans
      apply met_congr
      · simp [Deed.apply, freeSlots, CallStack.jump]
      · rfl
      · simp [Deed.apply, Arena.available]
  | enter _ _ _ _ _ _ => exact (met_counting_iff hgoing).trans (met_entering_iff hroom _ _)
  | leave _ _ _ _ =>
      exact (met_counting_iff hgoing).trans (met_leaving_iff h.coherent.layout hsnug _ _)

end Needs
end Need

/-! ## Runs -/

namespace Interpreter

/-- A run needs something and brings outputs: where the need is met, it ends well after
the number of instructions that it needs, and elsewhere it ends no later because
something is short. -/
structure Requires (program : Program) (function : UInt16) (depth floor : Nat) (need : Need)
    (outputs : List Bytes) (x : Execution) : Prop where
  of_met : need.Met x.machine x.interpreter → ∃ (a : Activation program) (m : Machine),
    runFor program need.count x = some ⟨.ok (), x.interpreter.counted need.count,
      m.modifyStack (CallStack.unwindTo depth)⟩ ∧
    Coherent function depth floor [a] m [] ∧ a.outputs m.arena = outputs
  of_unmet : ¬ need.Met x.machine x.interpreter → ∃ cause engine m,
    runFor program need.count x = some ⟨.error cause, engine, m⟩ ∧
      cause.flatten.isShortage = true

section Requires

variable {program : Program} {function : UInt16} {depth depth' floor floor' clock : Nat}
  {need : Need} {outputs : List Bytes} {live live' : List (Activation program)}
  {a : Activation program} {i : Instruction} {deed : Deed program} {x y : Execution}

/-- With the time that it needs a run ends. -/
theorem Requires.exists_runFor (h : Requires program function depth floor need outputs x) :
    ∃ back, runFor program need.count x = some back := by
  by_cases hmet : need.Met x.machine x.interpreter
  · rcases h.of_met hmet with ⟨a, m, hend, -, -⟩
    exact ⟨_, hend⟩
  · rcases h.of_unmet hmet with ⟨cause, engine, m, hend, -⟩
    exact ⟨_, hend⟩

/-- A run that needs something is not completed only if it has no budget and the
instruction counter would no longer be a word. -/
theorem Requires.fuel_eq_none (h : Requires program function depth floor need outputs x)
    (hnone : complete program x = none) :
    x.interpreter.fuel = none ∧ Word.count ≤ x.interpreter.executed + need.count := by
  rcases h.exists_runFor with ⟨back, hend⟩
  rcases uncountable_of_complete_eq_none hnone hend with ⟨hfuel, hcount⟩
  exact ⟨hfuel, Nat.le_trans hcount (executed_le_add_clock hend)⟩

theorem counted_charge (interpreter : Interpreter) (count : Nat) :
    interpreter.charge.counted count = interpreter.counted (count + 1) := by
  simp only [counted, charge, Nat.add_assoc, Nat.add_comm 1 count]

/-- A run stops because something is short. -/
theorem runFor_of_stop {interpreter : Interpreter} {suspended : List Suspension} {cause : Fault}
    {m : Machine} (hstep : step program x = stop interpreter suspended cause m)
    (hcause : cause.flatten.isShortage = true) (hclock : 0 < clock) :
    ∃ cause engine m, runFor program clock x = some ⟨.error cause, engine, m⟩ ∧
      cause.flatten.isShortage = true := by
  cases clock with
  | zero => contradiction
  | succ clock =>
      rw [stop_eq] at hstep
      refine ⟨(abandon suspended cause m).1, interpreter, (abandon suspended cause m).2, ?_, ?_⟩
      · simp only [runFor, hstep]
      · rw [flatten_abandon]
        exact hcause

/-- The return of the first frame needs one instruction. -/
theorem requires_last (h : CoherentAlong function depth floor [a] x)
    (hinstruction : a.instruction? = some i) (hret : i.opcode = .ret) :
    Requires program function depth floor .last (a.outputs x.machine.arena) x where
  of_met := by
    intro hmet
    have hgoing := Need.met_last_iff.mp hmet
    rcases step_of_last h hinstruction hret hgoing with ⟨m, hstep, hm, hcoherent⟩
    rcases parts_eq_of_clearJournal_eq hm with ⟨harena, -, -⟩
    refine ⟨a, m, ?_, hcoherent, ?_⟩
    · have hone : Need.last.count = 1 := rfl
      rw [hone]
      simp only [runFor, hstep]
      rfl
    · rw [harena]
  of_unmet := by
    intro hunmet
    cases hused : x.interpreter.exhausted with
    | true => exact runFor_of_stop (step_of_exhausted h hinstruction hused) rfl Nat.one_pos
    | false => exact absurd (Need.met_last_iff.mpr hused) hunmet

/-- What comes after a deed decides what the deed needs. -/
theorem Requires.before (h : CoherentAlong function depth floor live x)
    (hdoes : Does x.machine live deed) (hsnug : x.machine.Snug live)
    (hafter : ∀ y, deed.shortage? x.machine = none → Done function depth floor deed live x y →
      Requires program function depth floor need outputs y) :
    Requires program function depth floor (need.before deed live) outputs x := by
  have hcount := Need.count_before deed live need
  have hpos : 0 < (need.before deed live).count := hcount ▸ Nat.succ_pos _
  rcases hdoes.exists_instruction with ⟨a, below, i, rfl, hinstruction⟩
  -- The budget is looked at before the instruction finds out whether there is room.
  cases hused : x.interpreter.exhausted with
  | true =>
      constructor
      · intro hmet
        rw [hmet.exhausted_eq hpos] at hused
        contradiction
      · intro _
        exact runFor_of_stop (step_of_exhausted h hinstruction hused) rfl hpos
  | false =>
      have hstep := step_of_does h hdoes hused
      cases hroom : deed.shortage? x.machine with
      | some short =>
          rw [hroom] at hstep
          rcases hstep with ⟨suspended, cause, m, site, hstop, hflat⟩
          constructor
          · intro hmet
            rw [hmet.shortage?_eq_none] at hroom
            contradiction
          · intro _
            exact runFor_of_stop hstop (hflat ▸ rfl) hpos
      | none =>
          rw [hroom] at hstep
          rcases hstep with ⟨y, hmore, hdone⟩
          have hmet_iff : (need.before deed (a :: below)).Met x.machine x.interpreter ↔
              need.Met y.machine y.interpreter :=
            Need.met_before_iff h hdoes hused hroom hdone hsnug
          have hrequires := hafter y hroom hdone
          have hrun : runFor program (need.before deed (a :: below)).count x =
              runFor program need.count y := by
            rw [hcount]
            simp only [runFor, hmore]
          constructor
          · intro hmet
            rcases hrequires.of_met (hmet_iff.mp hmet) with ⟨b, m, hend, hcoherent, houtputs⟩
            refine ⟨b, m, ?_, hcoherent, houtputs⟩
            rw [hrun, hend, hcount, hdone.interpreter_eq, counted_charge]
          · intro hunmet
            rw [hrun]
            exact hrequires.of_unmet fun hmet => hunmet (hmet_iff.mpr hmet)

/-- A run that ends well needs something, and so does, whatever the machine, every run
whose live frames resemble its own. -/
theorem exists_need {routine : Routine} (hroutine : program.routine? function = some routine)
    (hvalid : routine.descriptor.misfit? = none) {back : Comeback Interpreter}
    (h : CoherentAlong function depth floor live x)
    (hrun : runFor program clock x = some back) (hok : back.verdict = .ok ()) :
    ∃ need outputs, need.bytes .release ≤ need.bytes .retain ∧
      ∀ depth' floor' live' x', CoherentAlong function depth' floor' live' x' →
        Resembling x.machine.arena x'.machine.arena live live' → x'.machine.Snug live' →
        Requires program function depth' floor' need outputs x' := by
  -- The need is known where the run ends, and each deed on the way there adds its own.
  induction clock generalizing x live with
  | zero => simp [runFor] at hrun
  | succ clock ih =>
      cases hs : step program x with
      | ended back' =>
          simp only [runFor, hs, Option.some.injEq] at hrun
          subst hrun
          rcases last_of_ended h hs hok with ⟨a, i, rfl, hinstruction, hret, -⟩
          refine ⟨.last, a.outputs x.machine.arena, Nat.le_refl _, ?_⟩
          intro depth' floor' live' x' h' hresembling hsnug
          rcases hresembling.exists_of_singleton with ⟨a', rfl, ha⟩
          rw [ha.outputs_eq (h.coherent.called.outputs_fit hroutine hvalid)]
          exact requires_last h' (ha.instruction?_eq ▸ hinstruction) hret
      | more y =>
          simp only [runFor, hs] at hrun
          rcases exists_deed_of_more h hs with ⟨deed, hdoes, hroom, hdone⟩
          rcases ih hdone.along hrun with ⟨need, outputs, hle, hneed⟩
          refine ⟨need.before deed live, outputs, Need.bytes_le_before deed live hle, ?_⟩
          intro depth' floor' live' x' h' hresembling hsnug
          have hdoes' := hdoes.transfer hresembling h.coherent.layout h'.coherent.layout
          rw [Need.before_congr hresembling]
          apply Requires.before h' hdoes' hsnug
          intro y' hroom' hdone'
          rcases parts_eq_of_clearJournal_eq hdone.machine_eq with ⟨harena, -, -⟩
          rcases parts_eq_of_clearJournal_eq hdone'.machine_eq with ⟨harena', -, -⟩
          apply hneed _ _ _ y' hdone'.along
          · rw [harena, harena']
            exact hresembling.apply hdoes h.coherent.layout h'.coherent.layout hroom hroom'
          · exact (hsnug.apply hdoes' h'.coherent.layout).congr harena'
              (reclaim_eq_of_clearJournal_eq hdone'.machine_eq)

end Requires
end Interpreter

/-! ## Invocations -/

/-- What decides on the need of an invocation besides its machine: elsewhere there is as
much budget, as many free slots and as many free bytes, and no worse a policy. -/
structure Machine.Roomier (m : Machine) (interpreter : Interpreter) (m' : Machine)
    (interpreter' : Interpreter) : Prop where
  fuel_le : ∀ fuel', interpreter'.fuel = some fuel' → ∃ fuel, interpreter.fuel = some fuel ∧
    fuel - interpreter.executed ≤ fuel' - interpreter'.executed
  freeSlots_le : m.freeSlots ≤ m'.freeSlots
  available_le : m.arena.available ≤ m'.arena.available
  reclaim : m'.reclaim = m.reclaim ∨ m'.reclaim = .release

namespace Need

variable {need : Need} {m m' : Machine} {interpreter interpreter' : Interpreter}

/-- A need that is met stays met where there is more room. -/
theorem Met.mono (h : need.Met m interpreter) (hbytes : need.bytes .release ≤ need.bytes .retain)
    (hroomier : m.Roomier interpreter m' interpreter') : need.Met m' interpreter' where
  fuel := by
    intro fuel' hfuel'
    rcases hroomier.fuel_le fuel' hfuel' with ⟨fuel, hfuel, hle⟩
    exact Nat.le_trans (h.fuel fuel hfuel) hle
  slots := Nat.le_trans h.slots hroomier.freeSlots_le
  bytes := by
    have hpolicy : need.bytes m'.reclaim ≤ need.bytes m.reclaim := by
      rcases hroomier.reclaim with heq | hrelease
      · exact Nat.le_of_eq (congrArg need.bytes heq)
      · rw [hrelease]
        cases m.reclaim with
        | release => exact Nat.le_refl _
        | retain => exact hbytes
    exact Nat.le_trans hpolicy (Nat.le_trans h.bytes hroomier.available_le)

/-- A need decides an invocation: where it is met, the invocation brings the outputs after
the number of instructions that is needed, and elsewhere its error is that something was
short.  It does not come back only if it has no budget and the instruction counter would
no longer be a word. -/
structure Decides (need : Need) (program : Program) (function : UInt16)
    (inputs outputs : List Bytes) (m : Machine) (interpreter : Interpreter) : Prop where
  of_met : need.Met m interpreter → ∀ reply,
    m.invoke program (Interpreter.run program) function inputs interpreter = some reply →
      reply.outcome = .ok outputs ∧ reply.engine = interpreter.counted need.count
  of_unmet : ¬ need.Met m interpreter → ∀ reply,
    m.invoke program (Interpreter.run program) function inputs interpreter = some reply →
      ∃ e, reply.outcome = .error e ∧ e.isShortage = true
  comes_back : m.invoke program (Interpreter.run program) function inputs interpreter = none →
    interpreter.fuel = none ∧ Word.count ≤ interpreter.executed + need.count

section Decides

variable {program : Program} {function : UInt16} {inputs outputs brought : List Bytes}
  {reply : Reply Interpreter}

/-- An invocation brings outputs only where its need is met. -/
theorem Decides.met_of_ok (h : need.Decides program function inputs outputs m interpreter)
    (hreply : m.invoke program (Interpreter.run program) function inputs interpreter = some reply)
    (hok : reply.outcome = .ok brought) : need.Met m interpreter := by
  by_contra hunmet
  rcases h.of_unmet hunmet reply hreply with ⟨e, herror, -⟩
  rw [hok] at herror
  contradiction

/-- The outputs that an invocation brings are those of its need. -/
theorem Decides.outputs_eq (h : need.Decides program function inputs outputs m interpreter)
    (hreply : m.invoke program (Interpreter.run program) function inputs interpreter = some reply)
    (hok : reply.outcome = .ok brought) : brought = outputs := by
  have hoks := (h.of_met (h.met_of_ok hreply hok) reply hreply).1
  rw [hok] at hoks
  exact Except.ok.inj hoks

end Decides
end Need

namespace Machine

section Invocations

variable {program : Program} {m m' : Machine} {function : UInt16} {inputs outputs : List Bytes}
  {interpreter interpreter' : Interpreter} {routine : Routine} {need : Need}
  {reply reply' : Reply Interpreter}

theorem Sound.along_started (h : m.Sound) (hpoisoned : m.poisoned = false)
    (hroutine : program.routine? function = some routine)
    (hroom : m.shortage routine.descriptor.size.toNat = none) (inputs : List Bytes)
    (interpreter : Interpreter) :
    Interpreter.CoherentAlong function m.stack.activeIndex m.arena.stackPointer
      [Activation.entered hroutine m.arena.stackPointer]
      (m.started function routine.descriptor inputs interpreter) :=
  ⟨rfl, (h.coherent_entering hpoisoned hroutine hroom inputs).note _⟩

/-- An invocation that has entered its function is the run of that function. -/
theorem Sound.invoke_started (h : m.Sound) (hpoisoned : m.poisoned = false)
    (hroutine : program.routine? function = some routine)
    (haccept : accept program m function inputs = .ok routine.descriptor)
    (hroom : m.shortage routine.descriptor.size.toNat = none) (interpreter : Interpreter) :
    m.invoke program (Interpreter.run program) function inputs interpreter =
      (Interpreter.complete program
        (m.started function routine.descriptor inputs interpreter)).map
      (conclude ⟨function, routine.descriptor, m.nextWindow routine.descriptor.size,
        m.stack.activeIndex, m.stack.active.instructionPointer⟩) := by
  have halong := h.along_started hpoisoned hroutine hroom inputs interpreter
  rw [invoke_eq h, haccept]
  simp only [hroom]
  exact congrArg (Option.map _) (Interpreter.run_eq halong.coherent.layout interpreter)

/-- The need of a run is, with the frame of the function, that of its invocation. -/
theorem Sound.decides (h : m.Sound) (hpoisoned : m.poisoned = false)
    (hroutine : program.routine? function = some routine)
    (hvalid : routine.descriptor.misfit? = none)
    (haccept : accept program m function inputs = .ok routine.descriptor)
    (hneed : m.shortage routine.descriptor.size.toNat = none →
      Interpreter.Requires program function m.stack.activeIndex m.arena.stackPointer need outputs
        (m.started function routine.descriptor inputs interpreter)) :
    (need.entering routine.descriptor.size.toNat).Decides program function inputs outputs m
      interpreter := by
  cases hroom : m.shortage routine.descriptor.size.toNat with
  | some short =>
      have hrefused : m.invoke program (Interpreter.run program) function inputs interpreter =
          some ⟨.error (.rejected (.exhausted short)), interpreter, m⟩ := by
        rw [invoke_eq h, haccept]
        simp only [hroom]
      constructor
      · intro hmet
        rw [hmet.shortage_eq_none] at hroom
        contradiction
      · intro _ reply hreply
        rw [hrefused] at hreply
        cases hreply
        exact ⟨_, rfl, rfl⟩
      · intro hnone
        rw [hrefused] at hnone
        contradiction
  | none =>
      have hrequires := hneed hroom
      have hinvoke := h.invoke_started hpoisoned hroutine haccept hroom interpreter
      have hmet : (need.entering routine.descriptor.size.toNat).Met m interpreter ↔
          need.Met (m.started function routine.descriptor inputs interpreter).machine
            interpreter :=
        (Need.met_entering_iff hroom function inputs).trans (Need.met_congr rfl rfl rfl)
      constructor
      · intro hall reply hreply
        rw [hinvoke] at hreply
        rcases Option.map_eq_some_iff.mp hreply with ⟨back, hrun, rfl⟩
        rcases hrequires.of_met (hmet.mp hall) with ⟨a, n, hend, hcoherent, houtputs⟩
        cases Interpreter.runFor_unique (Interpreter.runFor_of_complete hrun) hend
        rw [nextWindow, conclude_eq hcoherent hroutine hvalid, houtputs]
        exact ⟨rfl, rfl⟩
      · intro hall reply hreply
        rw [hinvoke] at hreply
        rcases Option.map_eq_some_iff.mp hreply with ⟨back, hrun, rfl⟩
        rcases hrequires.of_unmet (fun hmet' => hall (hmet.mpr hmet')) with
          ⟨cause, engine, n, hend, hcause⟩
        cases Interpreter.runFor_unique (Interpreter.runFor_of_complete hrun) hend
        exact ⟨.fault cause, rfl, hcause⟩
      · intro hnone
        rw [hinvoke, Option.map_eq_none_iff] at hnone
        exact hrequires.fuel_eq_none hnone

/-- Whether a request is in order does not depend on the machine, unless it is poisoned. -/
theorem accept_congr (hpoisoned : m.poisoned = m'.poisoned) :
    accept program m function inputs = accept program m' function inputs := by
  simp only [accept, hpoisoned]

/-- An invocation that brings outputs has entered its function, whose run has ended well. -/
theorem Sound.exists_of_invoke_ok (h : m.Sound)
    (hreply : m.invoke program (Interpreter.run program) function inputs interpreter = some reply)
    (hok : reply.outcome = .ok outputs) :
    ∃ routine, m.poisoned = false ∧ program.routine? function = some routine ∧
      routine.descriptor.misfit? = none ∧
      accept program m function inputs = .ok routine.descriptor ∧
      m.shortage routine.descriptor.size.toNat = none ∧
      ∃ back, Interpreter.complete program
        (m.started function routine.descriptor inputs interpreter) = some back ∧
        back.verdict = .ok () := by
  cases haccept : accept program m function inputs with
  | error reason =>
      rw [invoke_eq h, haccept] at hreply
      cases hreply
      contradiction
  | ok d =>
      rcases accept_eq_ok_iff.mp haccept with ⟨hpoisoned, routine, hroutine, rfl, hvalid, -⟩
      cases hroom : m.shortage routine.descriptor.size.toNat with
      | some short =>
          rw [invoke_eq h, haccept] at hreply
          simp only [hroom] at hreply
          cases hreply
          contradiction
      | none =>
          rw [h.invoke_started hpoisoned hroutine haccept hroom] at hreply
          rcases Option.map_eq_some_iff.mp hreply with ⟨back, hrun, rfl⟩
          refine ⟨routine, hpoisoned, hroutine, hvalid, rfl, hroom, back, hrun, ?_⟩
          cases hverdict : back.verdict with
          | ok _ => rfl
          | error cause =>
              rw [conclude_of_error hverdict] at hok
              contradiction

/-- An invocation that brings outputs somewhere has an exact need of instructions, of call
stack slots and, under each policy, of arena bytes, which is no larger under the release
policy: on every machine that can be reached over the program and is not poisoned, whatever
it holds and wherever it puts its frames, the need decides the invocation.  In particular
more room or the release policy never changes the outputs of an invocation that brings
some. -/
theorem invoke_need (h : Reachable program m)
    (hreply : m.invoke program (Interpreter.run program) function inputs interpreter = some reply)
    (hok : reply.outcome = .ok outputs) :
    ∃ need : Need, need.bytes .release ≤ need.bytes .retain ∧
      (∀ m' interpreter', Reachable program m' → m'.poisoned = false →
        need.Decides program function inputs outputs m' interpreter') ∧
      ∀ m₁ interpreter₁ reply₁ outputs₁ m₂ interpreter₂ reply₂, Reachable program m₁ →
        Reachable program m₂ → m₁.poisoned = false → m₂.poisoned = false →
        m₁.Roomier interpreter₁ m₂ interpreter₂ →
        m₁.invoke program (Interpreter.run program) function inputs interpreter₁ = some reply₁ →
        reply₁.outcome = .ok outputs₁ →
        m₂.invoke program (Interpreter.run program) function inputs interpreter₂ = some reply₂ →
        reply₂.outcome = .ok outputs₁ := by
  have hsound := h.sound
  rcases hsound.exists_of_invoke_ok hreply hok with
    ⟨routine, hpoisoned, hroutine, hvalid, haccept, hroom, back, hrun, hverdict⟩
  have halong := hsound.along_started hpoisoned hroutine hroom inputs interpreter
  rcases Interpreter.exists_need hroutine hvalid halong (Interpreter.runFor_of_complete hrun)
    hverdict with
    ⟨need, brought, hle, hneed⟩
  -- The run of any other machine starts with a frame that resembles the one here.
  have hdecides (m' : Machine) (interpreter' : Interpreter) (h' : m'.Sound)
      (hpoisoned' : m'.poisoned = false) :
      (need.entering routine.descriptor.size.toNat).Decides program function inputs brought m'
        interpreter' := by
    have haccept' := (accept_congr (hpoisoned'.trans hpoisoned.symm)).trans haccept
    apply h'.decides hpoisoned' hroutine hvalid haccept'
    intro hroom'
    apply hneed
    · exact h'.along_started hpoisoned' hroutine hroom' inputs interpreter'
    · have hnone : Resembling m.arena m'.arena ([] : List (Activation program)) [] := .nil
      exact hnone.entering hsound.layout_nil h'.layout_nil hroutine hroom hroom' inputs
    · have hnone : m'.Snug ([] : List (Activation program)) := fun _ => trivial
      exact hnone.entering hroutine inputs
  have hhere := (hdecides m interpreter hsound hpoisoned).outputs_eq hreply hok
  subst hhere
  refine ⟨need.entering routine.descriptor.size.toNat, ?_, ?_, ?_⟩
  · exact Nat.add_le_add_right hle _
  · intro m' interpreter' h' hpoisoned'
    exact hdecides m' interpreter' h'.sound hpoisoned'
  · intro m₁ interpreter₁ reply₁ outputs₁ m₂ interpreter₂ reply₂ h₁ h₂ hpoisoned₁ hpoisoned₂
      hroomier hreply₁ hok₁ hreply₂
    have hdecides₁ := hdecides m₁ interpreter₁ h₁.sound hpoisoned₁
    have hdecides₂ := hdecides m₂ interpreter₂ h₂.sound hpoisoned₂
    have hmet := (hdecides₁.met_of_ok hreply₁ hok₁).mono (Nat.add_le_add_right hle _) hroomier
    rw [hdecides₁.outputs_eq hreply₁ hok₁]
    exact (hdecides₂.of_met hmet reply₂ hreply₂).1

/-- The need of an invocation on a fresh machine decides it on one that is in use, has
another policy and has a budget. -/
theorem invoke_need_relay :
    ∃ reply need, (ofConfig ⟨24, 5, .release⟩).invoke relay (Interpreter.run relay) 0 [[42]] {} =
        some reply ∧
      reply.outcome = .ok [[42]] ∧ need.count = 6 ∧
      Need.Decides need relay 0 [[42]] [[42]] (busy .retain) ⟨some 13, 7⟩ := by
  have hrun : ((ofConfig ⟨24, 5, .release⟩).invoke relay (Interpreter.run relay) 0 [[42]]
      {}).map (fun reply => (reply.outcome, reply.engine.executed)) = some (.ok [[42]], 6) := by
    decide +kernel
  have hfresh : Reachable relay (ofConfig ⟨24, 5, .release⟩) := .create rfl
  have hbusy : Reachable relay (busy .retain) := .perform (.perform (.create rfl) _) _
  rcases Option.map_eq_some_iff.mp hrun with ⟨reply, hreply, hboth⟩
  simp only [Prod.mk.injEq] at hboth
  rcases hboth with ⟨hok, hsix⟩
  rcases invoke_need hfresh hreply hok with ⟨need, -, hdecides, -⟩
  have hhere := hdecides _ {} hfresh rfl
  have hcount := (hhere.of_met (hhere.met_of_ok hreply hok) reply hreply).2
  refine ⟨reply, need, hreply, hok, ?_, hdecides _ _ hbusy rfl⟩
  rw [hcount] at hsix
  exact (Nat.zero_add need.count).symm.trans hsix

end Invocations
end Machine
end FrameMachine
