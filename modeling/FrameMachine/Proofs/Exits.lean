import FrameMachine.Proofs.Entries
import FrameMachine.Proofs.Mirrors
import FrameMachine.Proofs.Passages

/-!
# How an invocation ends

While an engine runs it may move the stack pointer, unwind the call stack, push other
frames, overwrite any byte and invoke functions in turn, and it may even put another arena
or another call stack in place of those of the machine.  Whatever it has left, its
invocation ends in one of four ways, which its verdict, the active frame and the size of the
arena decide: in the fault of the engine, in the fault that the wrong frame is active, with
the outputs, or in the fault that an output is no longer inside the arena.  The last way is
closed to lawful engines, which keep the arena.

Main results:

- Theorem `Machine.Sound.exits`: an invocation is concluded in one of the four ways.
- Theorem `Machine.invoke_exits`: so ends the invocation of every engine.
- Theorem `Machine.exits_evictor`: an engine that takes the arena away keeps an invocation
  from delivering.
-/

namespace FrameMachine
namespace Machine

/-! ## The four ways -/

/-- The machine is poisoned, and otherwise as the engine has left it. -/
structure PoisonedAfter (left final : Machine) : Prop where
  arena_eq : final.arena = left.arena
  stack_eq : final.stack = left.stack
  reclaim_eq : final.reclaim = left.reclaim
  poisoned_eq : final.poisoned = true

/-- The caller in `m` goes on where it was, and otherwise the call stack is as the engine
has left it. -/
structure CallerRestored (m left final : Machine) : Prop where
  active_eq : final.stack.activeIndex = left.stack.activeIndex
  caller_eq : final.stack.frame? m.stack.activeIndex =
    (left.stack.frame? m.stack.activeIndex).map fun f =>
      { f with instructionPointer := m.stack.active.instructionPointer }
  frames_eq : ∀ j, j ≠ m.stack.activeIndex → final.stack.frame? j = left.stack.frame? j

/-- The caller in `m` goes on, the frame of its callee is released if the policy and the
stack pointer allow it, and otherwise the machine is as the engine has left it. -/
structure ResumedAfter (m : Machine) (d : Descriptor) (left final : Machine) : Prop
    extends CallerRestored m left final where
  cells_eq : final.arena.cells = left.arena.cells
  stackPointer_eq : final.arena.stackPointer =
    if left.reclaim = .release ∧
        left.arena.stackPointer = m.arena.stackPointer + d.size.toNat then m.arena.stackPointer
    else left.arena.stackPointer
  reclaim_eq : final.reclaim = left.reclaim
  poisoned_eq : final.poisoned = left.poisoned

/-- The caller in `m` could go on, but the machine is poisoned; otherwise it is as the engine
has left it. -/
structure StrandedAfter (m left final : Machine) : Prop extends CallerRestored m left final where
  arena_eq : final.arena = left.arena
  reclaim_eq : final.reclaim = left.reclaim
  poisoned_eq : final.poisoned = true

/-- The bytes of the output slots of a frame at `base`. -/
def outputsAt (d : Descriptor) (base : Nat) (a : Arena) : List Bytes :=
  d.outputs.map fun s => a.slice ⟨base + s.offset.toNat, s.size.toNat⟩

/-- The output slots of a frame at `base` lie inside the arena. -/
def OutputsInside (d : Descriptor) (base : Nat) (a : Arena) : Prop :=
  ∀ s ∈ d.outputs, base + s.offset.toNat + s.size.toNat ≤ a.capacity

/-- How the invocation of a function by the active frame of `m` ends whose engine has left
the machine `left` with a verdict: its outcome, and the machine then. -/
inductive Exits (m : Machine) (d : Descriptor) (left : Machine) :
    Except Fault Unit → Outcome → Machine → Prop
  | failed {cause : Fault} {final : Machine} (hfinal : PoisonedAfter left final) :
      Exits m d left (.error cause) (.error (.fault cause)) final
  | desynchronized {final : Machine}
      (hactive : left.stack.activeIndex ≠ m.stack.activeIndex)
      (hfinal : PoisonedAfter left final) :
      Exits m d left (.ok ())
        (.error (.fault (.desync ⟨m.stack.activeIndex, left.stack.activeIndex⟩))) final
  | returned {final : Machine} (hactive : left.stack.activeIndex = m.stack.activeIndex)
      (hinside : OutputsInside d m.arena.stackPointer left.arena)
      (hlengths : LengthsMatch d.outputs (outputsAt d m.arena.stackPointer left.arena))
      (hfinal : ResumedAfter m d left final) :
      Exits m d left (.ok ()) (.ok (outputsAt d m.arena.stackPointer left.arena)) final
  | unreadable {access : OutOfBounds} {final : Machine}
      (hactive : left.stack.activeIndex = m.stack.activeIndex)
      (hbeyond : (m.nextWindow d.size).beyond? left.arena d.outputs = some access)
      (hfinal : StrandedAfter m left final) :
      Exits m d left (.ok ()) (.error (.fault (.memory access))) final

section Exits

variable {program : Program} {m left : Machine} {function : UInt16} {d : Descriptor}
  {inputs : List Bytes}

/-- There is room for the window of an invocation. -/
theorem Sound.inside_of_room (h : m.Sound) (hroom : m.shortage d.size.toNat = none) :
    (m.nextWindow d.size).Inside m.arena where
  stop_le := by
    have hpointer := h.stackPointer_le
    have hsize := available_of_shortage_eq_none hroom
    simp only [nextWindow, Arena.available] at hsize ⊢
    omega
  capacity_le := h.capacity_le

/-- An arena that is no smaller than it was has room for the outputs. -/
theorem Sound.outputsInside (h : m.Sound) (hroom : m.shortage d.size.toNat = none)
    (hvalid : d.misfit? = none) {a : Arena} (ha : m.arena.capacity ≤ a.capacity) :
    OutputsInside d m.arena.stackPointer a := by
  intro s hs
  have hstop := (h.inside_of_room hroom).stop_le
  have hfit := Window.misfit?_eq_none_iff.mp
    (Descriptor.outputs_fit hvalid m.arena.stackPointer) s hs
  simp only [nextWindow] at hstop hfit
  omega

/-- Every output has the length of its slot. -/
theorem lengthsMatch_outputsAt {base : Nat} {a : Arena} (hinside : OutputsInside d base a) :
    LengthsMatch d.outputs (outputsAt d base a) := by
  simp only [LengthsMatch, outputsAt, List.map_map]
  apply List.map_congr_left
  intro s hs
  exact Arena.length_slice (hinside s hs)

/-- The expected frame is active, and its caller goes on. -/
theorem callerRestored (hactive : left.stack.activeIndex = m.stack.activeIndex) {final : Machine}
    (hstack : final.stack = left.stack.jump m.stack.active.instructionPointer) :
    CallerRestored m left final where
  active_eq := by rw [hstack]; rfl
  caller_eq := by
    simp only [hstack, CallStack.frame?, CallStack.jump, CallStack.frames_modifyActive,
      Array.getElem?_modify, hactive, if_true]
  frames_eq j hj := by
    simp only [hstack, CallStack.frame?, CallStack.jump, CallStack.frames_modifyActive,
      Array.getElem?_modify, hactive, if_neg (Ne.symm hj)]

/-- The caller goes on in the machine in which the outputs have been collected. -/
theorem resumedAfter (hstop : (m.nextWindow d.size).base + (m.nextWindow d.size).size < Word.count)
    (hactive : left.stack.activeIndex = m.stack.activeIndex) (e : Event) :
    ResumedAfter m d left
      (((left.modifyStack (CallStack.jump m.stack.active.instructionPointer)).releaseFrame
        (m.nextWindow d.size)).note e) where
  toCallerRestored := callerRestored hactive (by rw [stack_note, stack_releaseFrame]; rfl)
  cells_eq := (releaseFrame_rest _ _).1
  stackPointer_eq := by
    have hpointer := stackPointer_releaseFrame
      (m := left.modifyStack (CallStack.jump m.stack.active.instructionPointer)) hstop
    refine hpointer.trans ?_
    simp only [reclaim_modifyStack, arena_modifyStack, nextWindow]
    simp only [eq_comm]
  reclaim_eq := (releaseFrame_rest _ _).2
  poisoned_eq := releaseFrame_poisoned _ _

/-- An invocation is concluded in one of the four ways, whatever the engine has left. -/
theorem Sound.exits (h : m.Sound) (function : UInt16)
    (hroom : m.shortage d.size.toNat = none) (hvalid : d.misfit? = none) (left : Machine)
    (verdict : Except Fault Unit) :
    let reply := conclude ⟨function, d, m.nextWindow d.size, m.stack.activeIndex,
      m.stack.active.instructionPointer⟩ ⟨verdict, (), left⟩
    Exits m d left verdict reply.outcome reply.machine := by
  have hstop := (h.inside_of_room hroom).stop_lt
  cases verdict with
  | error cause => exact .failed ⟨rfl, rfl, rfl, rfl⟩
  | ok _ =>
      by_cases hactive : left.stack.activeIndex = m.stack.activeIndex
      · have hread := readOutputs_of_fit
          (m := left.modifyStack (CallStack.jump m.stack.active.instructionPointer)) hstop
          (Descriptor.outputs_fit hvalid m.arena.stackPointer)
        simp only [conclude, leave, guarded, collect_eq, if_pos hactive, hread, arena_modifyStack]
        cases hbeyond : (m.nextWindow d.size).beyond? left.arena d.outputs with
        | none =>
            have hinside : OutputsInside d m.arena.stackPointer left.arena :=
              Window.beyond?_eq_none_iff.mp hbeyond
            exact .returned hactive hinside (lengthsMatch_outputsAt hinside)
              (resumedAfter hstop hactive _)
        | some access =>
            exact .unreadable hactive hbeyond ⟨callerRestored hactive rfl, rfl, rfl, rfl⟩
      · simp only [conclude, leave, guarded, collect_eq, if_neg hactive]
        exact .desynchronized hactive ⟨rfl, rfl, rfl, rfl⟩

/-- An invocation to which there is nothing to object runs its engine in the state of
entry.  It comes back exactly if the engine does, and whatever the engine has done to the
machine, it ends in one of the four ways.  The fourth one is open only to an engine that has
left a smaller arena than there was, and no lawful engine does. -/
theorem invoke_exits {σ : Type} (run : Engine σ) (h : Reachable program m)
    (haccepted : ∀ reason, ¬ Objection program m function inputs reason) (engine : σ) :
    ∃ routine n, program.routine? function = some routine ∧
      m.Entered n function routine.descriptor inputs ∧
      match run engine n (m.stack.activeIndex + 1) m.stack.activeIndex with
      | none => m.invoke program run function inputs engine = none
      | some back => ∃ outcome final,
          m.invoke program run function inputs engine = some ⟨outcome, back.engine, final⟩ ∧
            Exits m routine.descriptor back.machine back.verdict outcome final ∧
            (m.arena.capacity ≤ back.machine.arena.capacity →
              OutputsInside routine.descriptor m.arena.stackPointer back.machine.arena) ∧
            (run.Lawful → back.machine.Sound ∧ SameShape m back.machine) := by
  rcases exists_of_not_objection haccepted with
    ⟨routine, -, hroutine, hvalid, hlengths, haccept, hroom⟩
  have henter := enter_eq_ok h.sound haccept hroom
  have hinvoke : m.invoke program run function inputs engine = _ :=
    invoke_eq h.sound run engine
  rw [haccept] at hinvoke
  simp only [hroom] at hinvoke
  refine ⟨routine, _, hroutine, h.sound.entered function hroom hvalid hlengths
    (.invoked function (m.stack.activeIndex + 1) m.stack.activeIndex), ?_⟩
  rw [hinvoke]
  cases hback : run engine _ (m.stack.activeIndex + 1) m.stack.activeIndex with
  | none => rfl
  | some back =>
      have hexits := h.sound.exits function hroom hvalid back.machine back.verdict
      refine ⟨_, _, ?_, hexits, h.sound.outputsInside hroom hvalid, ?_⟩
      · rw [Option.map_some, ← conclude_engine_eq]
      · intro hlawful
        rcases hlawful _ _ _ _ _ hback with ⟨outcomes, hrun⟩
        have hhistory := (History.start.entered henter).trans hrun
        exact ⟨hhistory.sound h.sound, hhistory.sameShape⟩

/-- A player that puts a frame of its own in the place of its caller's, overwrites an output,
and comes back to where the stack pointer was on entry. -/
def intruder : Script.Player where
  runs := [[.perform (.arena (.releaseTo 3)), .perform (.stack (.unwindTo 0)),
    .perform (.pushFrame 2 6), .perform (.arena (.write 6 [7])),
    .perform (.stack (.assign ⟨none, some 9, none⟩))]]

/-- The caller of the player goes on with the byte that the player has left. -/
theorem invoke_exits_intruder :
    (∀ reason, ¬ Objection relay (busy .release) 0 [[42]] reason) ∧
      ∃ routine n back final, relay.routine? 0 = some routine ∧
        (busy .release).Entered n 0 routine.descriptor [[42]] ∧
        Script.engine relay intruder n 2 1 = some back ∧
        (busy .release).invoke relay (Script.engine relay) 0 [[42]] intruder =
          some ⟨.ok [[7]], back.engine, final⟩ ∧
        final.arena.stackPointer = 5 ∧
        Exits (busy .release) routine.descriptor back.machine back.verdict (.ok [[7]]) final ∧
        SameShape (busy .release) back.machine := by
  have hreply : ((busy .release).invoke relay (Script.engine relay) 0 [[42]] intruder).map
      (fun reply => (reply.outcome, reply.machine.arena.stackPointer)) = some (.ok [[7]], 5) := by
    decide +kernel
  rcases invoke_exits (Script.engine relay) (reachable_busy .release) not_objection_busy
      intruder with
    ⟨routine, n, hroutine, hentered, hrun⟩
  refine ⟨not_objection_busy, routine, n, ?_⟩
  cases hback : Script.engine relay intruder n 2 1 with
  | none =>
      have hnone : (busy .release).invoke relay (Script.engine relay) 0 [[42]] intruder = none := by
        have hactive : (busy .release).stack.activeIndex = 1 := rfl
        simpa only [hactive, hback] using hrun
      rw [hnone] at hreply
      contradiction
  | some back =>
      have hactive : (busy .release).stack.activeIndex = 1 := rfl
      simp only [hactive, hback] at hrun
      rcases hrun with ⟨outcome, final, hinvoke, hexits, -, hlawful⟩
      rw [hinvoke, Option.map_some, Option.some.injEq, Prod.mk.injEq] at hreply
      rcases hreply with ⟨rfl, hpointer⟩
      exact ⟨back, final, hroutine, hentered, rfl, hinvoke, hpointer, hexits,
        (hlawful (Script.engine_lawful relay)).2⟩

/-- An engine that puts an arena without bytes in place of that of the machine, and comes back
well in the frame of its caller. -/
def evictor : Engine Unit := fun _ m _ returnTo =>
  some ⟨.ok (), (), (m.modifyArena fun _ => Arena.empty 0).modifyStack
    (CallStack.unwindTo returnTo)⟩

/-- It only acts on the machine and leaves a sound one in which the caller is active, and yet
the invocation ends in a fault. -/
theorem exits_evictor :
    evictor.Orderly ∧ Reachable relay (busy .release) ∧
      (∀ reason, ¬ Objection relay (busy .release) 0 [[42]] reason) ∧
      ∃ routine n back final, relay.routine? 0 = some routine ∧
        (busy .release).Entered n 0 routine.descriptor [[42]] ∧
        evictor () n 2 1 = some back ∧ back.verdict = .ok () ∧ back.machine.Sound ∧
        back.machine.stack.activeIndex = (busy .release).stack.activeIndex ∧
        (busy .release).invoke relay evictor 0 [[42]] () =
          some ⟨.error (.fault (.memory ⟨6, 1, 0⟩)), (), final⟩ ∧
        final.poisoned = true := by
  have horderly : evictor.Orderly := by
    rintro ⟨⟩ m start returnTo back ⟨⟩
    have hpasses : Passes ⟨[], [], m⟩ ⟨[], [], (m.modifyArena fun _ => Arena.empty 0).modifyStack
        (CallStack.unwindTo returnTo)⟩ :=
      (Relation.ReflTransGen.single (.arena _)).tail (.stack _)
    exact ⟨[], hpasses⟩
  have hreply : ((busy .release).invoke relay evictor 0 [[42]] ()).map
      (fun reply => (reply.outcome, reply.machine.poisoned)) =
        some (.error (.fault (.memory ⟨6, 1, 0⟩)), true) := by
    decide +kernel
  rcases Option.map_eq_some_iff.mp hreply with ⟨reply, hinvoke, heq⟩
  rcases reply with ⟨outcome, engine, final⟩
  rcases Prod.mk.inj heq with ⟨rfl, hpoisoned⟩
  rcases exists_of_not_objection not_objection_busy with
    ⟨routine, -, hroutine, hvalid, hlengths, haccept, hroom⟩
  have hsound := (reachable_busy .release).sound
  have hentered := hsound.entered 0 hroom hvalid hlengths (.invoked 0 2 1)
  have hevicted : (((busy .release).entering 0 routine.descriptor [[42]]).note
      (.invoked 0 2 1)).Sound := (hsound.entering routine.descriptor hroom).note _
  exact ⟨horderly, reachable_busy .release, not_objection_busy, routine, _, _, final, hroutine,
    hentered, rfl, rfl, (hevicted.assignArena (Nat.le_refl 0) (Nat.zero_le _)).unwindTo 1, rfl,
    hinvoke, hpoisoned⟩

end Exits
end Machine
end FrameMachine
