import FrameMachine.Proofs.Runs

/-!
# Isolation of an invocation

An invocation leaves alone what was there before it: the arena bytes below the
stack pointer and the frames up to the active one.  The argument needs nothing
of the machine in which the invocation starts.  A machine *has grown* from an
origin above a frame `depth` and a byte `floor` if both agree below, and if
every live frame above `depth` has its window above `floor`; then whatever the
frames above `depth` do stays above `floor`.

Main results:

- Theorem `Interpreter.step_grown`: one instruction, with all that it completes,
  keeps an execution grown.
- Theorem `Interpreter.run_grown`: so does a whole run.
- Theorem `Machine.invoke_isolated`: an invocation changes no byte below the
  old stack pointer and no frame up to the old active one.
-/

namespace FrameMachine
namespace Machine

/-! ## Machines grown from an origin -/

/-- The machine `m` agrees with `origin` on the bytes below `floor` and on the
frames up to `depth`, and its frames above `depth` stay above `floor`. -/
structure GrownFrom (origin : Machine) (depth floor : Nat) (m : Machine) : Prop where
  bytes_eq : ∀ k < floor, m.arena.cells[k]? = origin.arena.cells[k]?
  frames_eq : ∀ j ≤ depth, m.stack.frames[j]? = origin.stack.frames[j]?
  arenaCapacity_eq : m.arena.capacity = origin.arena.capacity
  stackCapacity_eq : m.stack.capacity = origin.stack.capacity
  floor_le : floor ≤ m.arena.stackPointer
  depth_le : depth ≤ m.stack.activeIndex
  base_le : ∀ j f, depth < j → j ≤ m.stack.activeIndex → m.stack.frames[j]? = some f →
    floor ≤ f.framePointer

section Growth

variable {origin m : Machine} {depth floor : Nat}

/-- Every machine has grown from itself above its active frame. -/
theorem GrownFrom.refl (m : Machine) :
    GrownFrom m m.stack.activeIndex m.arena.stackPointer m where
  bytes_eq _ _ := rfl
  frames_eq _ _ := rfl
  arenaCapacity_eq := rfl
  stackCapacity_eq := rfl
  floor_le := Nat.le_refl _
  depth_le := Nat.le_refl _
  base_le j f hj hle _ := absurd hle (by omega)

/-- The journal and the poison flag have no part in growth. -/
theorem GrownFrom.congr {m' : Machine} (h : GrownFrom origin depth floor m)
    (harena : m'.arena = m.arena) (hstack : m'.stack = m.stack) :
    GrownFrom origin depth floor m' := by
  cases m
  cases m'
  subst harena
  subst hstack
  exact ⟨h.bytes_eq, h.frames_eq, h.arenaCapacity_eq, h.stackCapacity_eq, h.floor_le,
    h.depth_le, h.base_le⟩

theorem GrownFrom.note (h : GrownFrom origin depth floor m) (e : Event) :
    GrownFrom origin depth floor (m.note e) :=
  h.congr rfl rfl

theorem GrownFrom.fail (h : GrownFrom origin depth floor m) (cause : Fault) :
    GrownFrom origin depth floor (m.fail cause) :=
  h.congr rfl rfl

theorem GrownFrom.store (h : GrownFrom origin depth floor m) {offset : Nat} (bytes : Bytes)
    (hoffset : floor ≤ offset) :
    GrownFrom origin depth floor (m.modifyArena (Arena.store offset bytes)) where
  bytes_eq k hk := by
    rw [arena_modifyArena, Arena.cells_store, getElem?_overwrite, if_neg (by omega)]
    exact h.bytes_eq k hk
  frames_eq := h.frames_eq
  arenaCapacity_eq := (Arena.capacity_store ..).trans h.arenaCapacity_eq
  stackCapacity_eq := h.stackCapacity_eq
  floor_le := h.floor_le
  depth_le := h.depth_le
  base_le := h.base_le

/-- The active frame may change, but not its window, and only above `depth`. -/
theorem GrownFrom.modifyActive (h : GrownFrom origin depth floor m) {change : Frame → Frame}
    (hactive : depth < m.stack.activeIndex)
    (hchange : ∀ f, (change f).framePointer = f.framePointer) :
    GrownFrom origin depth floor (m.modifyStack (CallStack.modifyActive change)) where
  bytes_eq := h.bytes_eq
  frames_eq j hj := by
    rw [stack_modifyStack, CallStack.frames_modifyActive, Array.getElem?_modify,
      if_neg (by omega)]
    exact h.frames_eq j hj
  arenaCapacity_eq := h.arenaCapacity_eq
  stackCapacity_eq := (CallStack.capacity_modifyActive ..).trans h.stackCapacity_eq
  floor_le := h.floor_le
  depth_le := h.depth_le
  base_le j f hj hle hf := by
    rw [stack_modifyStack, CallStack.frames_modifyActive, Array.getElem?_modify] at hf
    split at hf
    · obtain ⟨g, hg, rfl⟩ := Option.map_eq_some_iff.mp hf
      rw [hchange]
      exact h.base_le j g hj hle hg
    · exact h.base_le j f hj hle hf

theorem GrownFrom.advance (h : GrownFrom origin depth floor m)
    (hactive : depth < m.stack.activeIndex) :
    GrownFrom origin depth floor (Interpreter.advance m) :=
  h.modifyActive hactive fun _ => rfl

theorem GrownFrom.unwindTo (h : GrownFrom origin depth floor m) (index : Nat)
    (hindex : depth ≤ index) :
    GrownFrom origin depth floor (m.modifyStack (CallStack.unwindTo index)) where
  bytes_eq := h.bytes_eq
  frames_eq := h.frames_eq
  arenaCapacity_eq := h.arenaCapacity_eq
  stackCapacity_eq := h.stackCapacity_eq
  floor_le := h.floor_le
  depth_le := by
    have := h.depth_le
    simp only [stack_modifyStack, CallStack.activeIndex_unwindTo]
    omega
  base_le j f hj hle hf := by
    simp only [stack_modifyStack, CallStack.activeIndex_unwindTo] at hle
    exact h.base_le j f hj (by omega) hf

theorem GrownFrom.releaseFrame (h : GrownFrom origin depth floor m) {window : Window}
    (hbase : floor ≤ window.base) :
    GrownFrom origin depth floor (m.releaseFrame window) := by
  unfold Machine.releaseFrame
  split
  · exact
      { bytes_eq := h.bytes_eq
        frames_eq := h.frames_eq
        arenaCapacity_eq := h.arenaCapacity_eq
        stackCapacity_eq := h.stackCapacity_eq
        floor_le := by
          have := h.floor_le
          simp only [arena_modifyArena, Arena.stackPointer_releaseTo]
          omega
        depth_le := h.depth_le
        base_le := h.base_le }
  · exact h

/-- A new frame lies above `depth`, and its window above `floor`. -/
theorem GrownFrom.framed (h : GrownFrom origin depth floor m) (operator : UInt16)
    (size : UInt32) : GrownFrom origin depth floor (m.framed operator size) where
  bytes_eq k hk := by
    have := h.floor_le
    simp only [Machine.framed]
    rw [getElem?_overwrite, if_neg (by omega)]
    exact h.bytes_eq k hk
  frames_eq j hj := by
    have := h.depth_le
    simp only [Machine.framed]
    rw [Array.getElem?_setIfInBounds, if_neg (by omega)]
    exact h.frames_eq j hj
  arenaCapacity_eq := (size_overwrite ..).trans h.arenaCapacity_eq
  stackCapacity_eq := (Array.size_setIfInBounds ..).trans h.stackCapacity_eq
  floor_le := Nat.le_add_right_of_le h.floor_le
  depth_le := Nat.le_succ_of_le h.depth_le
  base_le j f hj hle hf := by
    simp only [Machine.framed] at hle hf
    rw [Array.getElem?_setIfInBounds] at hf
    split at hf
    · split at hf
      · simp only [Option.some.injEq] at hf
        subst hf
        exact h.floor_le
      · contradiction
    · exact h.base_le j f hj (by omega) hf

/-- Stores at and above `floor` keep a machine grown. -/
theorem GrownFrom.storeClosed (origin : Machine) (depth floor : Nat) :
    StoreClosed floor (GrownFrom origin depth floor) :=
  fun _ _ bytes hoffset h => h.store bytes hoffset

end Growth
end Machine

namespace Interpreter

open Machine

/-! ## Waiting runs -/

/-- Each of the runs waiting below frame `active` waits in a frame of its own
above `depth`, with windows above `floor`. -/
def Nested (depth floor : Nat) : (active : Nat) → List Suspension → Prop
  | active, [] => depth < active
  | active, s :: outer =>
      s.invocation.previous < active ∧ floor ≤ s.site.window.base ∧
        floor ≤ s.invocation.window.base ∧ Nested depth floor s.invocation.previous outer

section Nesting

variable {depth floor active : Nat} {suspended : List Suspension}

theorem Nested.mono {active' : Nat} (hle : active ≤ active')
    (h : Nested depth floor active suspended) : Nested depth floor active' suspended := by
  cases suspended with
  | nil => exact Nat.lt_of_lt_of_le h hle
  | cons s outer => exact ⟨Nat.lt_of_lt_of_le h.1 hle, h.2⟩

theorem Nested.depth_lt (h : Nested depth floor active suspended) : depth < active := by
  induction suspended generalizing active with
  | nil => exact h
  | cons s outer ih => exact Nat.lt_trans (ih h.2.2.2) h.1

/-- The innermost run ends in a frame between `depth` and the active one. -/
theorem Nested.innermostReturn_bounds (h : Nested depth floor active suspended) :
    depth ≤ innermostReturn depth suspended ∧ innermostReturn depth suspended < active := by
  cases suspended with
  | nil => exact ⟨Nat.le_refl _, h⟩
  | cons s outer => exact ⟨Nat.le_of_lt h.2.2.2.depth_lt, h.1⟩

/-- A frame above the one in which the innermost run ends keeps all waiting runs
below it. -/
theorem Nested.of_innermostReturn_lt {active' : Nat}
    (h : Nested depth floor active suspended)
    (hlt : innermostReturn depth suspended < active') :
    Nested depth floor active' suspended := by
  cases suspended with
  | nil => exact hlt
  | cons s outer => exact ⟨hlt, h.2⟩

end Nesting

/-! ## Instructions -/

/-- What an instruction leads to: the machine is still grown, and the runs that
then wait are nested above `depth`. -/
def GrownResult (origin : Machine) (depth floor : Nat) (suspended : List Suspension) :
    EStateM.Result Fault Machine Progress → Prop
  | .error _ m => GrownFrom origin depth floor m
  | .ok .running m =>
      GrownFrom origin depth floor m ∧ Nested depth floor m.stack.activeIndex suspended
  | .ok (.nested s) m =>
      GrownFrom origin depth floor m ∧ Nested depth floor m.stack.activeIndex (s :: suspended)
  | .ok .returned m =>
      GrownFrom origin depth floor m ∧ m.stack.activeIndex = innermostReturn depth suspended

section Instructions

variable {program : Program} {origin m : Machine} {depth floor : Nat}
  {suspended : List Suspension} {site : Site} {i : Instruction}

/-- Marshalling does not touch the call stack. -/
theorem storeClosed_stack_eq (s : CallStack) :
    StoreClosed 0 (fun m => m.stack = s) :=
  fun _ _ _ _ h => h

theorem grownResult_call (h : GrownFrom origin depth floor m)
    (hn : Nested depth floor m.stack.activeIndex suspended) (returnTo : Nat) (callee : Routine)
    (sources : List Address) :
    GrownResult origin depth floor suspended
      (carryOut program returnTo site i (.call callee sources) m) := by
  rw [carryOut_call, call_eq]
  cases m.shortage callee.descriptor.size.toNat with
  | some need => exact h
  | none =>
      have hgrown := keeps_passInputs (GrownFrom.storeClosed origin depth floor)
        (m.nextWindow callee.descriptor.size) h.floor_le
        (sources.zip callee.descriptor.inputs) _ (h.framed i.a callee.descriptor.size)
      have hstack := keeps_passInputs (storeClosed_stack_eq _)
        (m.nextWindow callee.descriptor.size) (Nat.zero_le _)
        (sources.zip callee.descriptor.inputs) (m.framed i.a callee.descriptor.size) rfl
      dsimp only
      generalize passInputs _ _ _ = result at hgrown hstack ⊢
      cases result with
      | error cause m' => exact hgrown
      | ok _ m' =>
          refine ⟨hgrown, ?_⟩
          simp only [after] at hstack
          rw [hstack]
          exact hn.mono (Nat.le_succ _)

theorem grownResult_callback (h : GrownFrom origin depth floor m)
    (hn : Nested depth floor m.stack.activeIndex suspended)
    (hsite : floor ≤ site.window.base) (returnTo : Nat) (inputs : List Bytes) :
    GrownResult origin depth floor suspended
      (carryOut program returnTo site i (.callback inputs) m) := by
  rw [carryOut_callback]
  have hstore : StoreClosed floor fun n => GrownFrom origin depth floor n ∧
      n.stack.activeIndex = m.stack.activeIndex + 1 :=
    fun n offset bytes hle hn =>
      ⟨GrownFrom.storeClosed origin depth floor n offset bytes hle hn.1, hn.2⟩
  have henter := enter_keeps program i.a inputs hstore h.floor_le
    fun routine _ _ => ⟨(h.framed i.a routine.descriptor.size).note _, rfl⟩
  cases hresult : enter program i.a inputs m with
  | ok call m' =>
      rw [hresult] at henter
      obtain ⟨⟨hgrown, hactive⟩, routine, -, rfl⟩ := henter
      refine ⟨hgrown, ?_, hsite, h.floor_le, hn⟩
      simp [hactive]
  | error e m' =>
      rw [hresult] at henter
      cases e with
      | rejected reason => exact henter.symm ▸ h
      | fault cause =>
          obtain ⟨n, ⟨hgrown, -⟩, rfl⟩ := henter
          exact hgrown.fail cause

/-- A return goes to a frame above `depth`, or ends the innermost run. -/
theorem grownResult_ret (h : GrownFrom origin depth floor m)
    (hn : Nested depth floor m.stack.activeIndex suspended)
    (hsite : floor ≤ site.window.base) :
    GrownResult origin depth floor suspended
      (carryOut program (innermostReturn depth suspended) site i .ret m) := by
  obtain ⟨hdepth, hactive⟩ := hn.innermostReturn_bounds
  obtain ⟨caller, hcaller⟩ : ∃ caller, m.stack.activeIndex = caller + 1 :=
    ⟨m.stack.activeIndex - 1, by omega⟩
  rw [carryOut_ret, ret_eq _ _ _ hcaller]
  by_cases heq : caller = innermostReturn depth suspended
  · rw [if_pos heq]
    refine ⟨h.unwindTo _ (by omega), ?_⟩
    simp only [stack_modifyStack, CallStack.activeIndex_unwindTo]
    omega
  · rw [if_neg heq]
    unfold completeCall
    cases hcall : suspendedCall program m caller with
    | error cause => exact h
    | ok found =>
        obtain ⟨callerSite, j⟩ := found
        obtain ⟨frame, hframe, hbase⟩ := exists_frame_of_suspendedCall hcall
        have hcallerBase : floor ≤ callerSite.window.base := by
          rw [hbase]
          exact h.base_le caller frame (by omega) (by omega) hframe
        cases site.callee program site.location.function with
        | error cause => exact h
        | ok callee =>
            have hgrown := keeps_passOutputs (GrownFrom.storeClosed origin depth floor)
              site.window callerSite hcallerBase
              (callee.descriptor.outputs.zip
                (backToBack j.c.toNat callee.descriptor.outputs)) m h
            have hstack := keeps_passOutputs (storeClosed_stack_eq m.stack) site.window
              callerSite (Nat.zero_le _)
              (callee.descriptor.outputs.zip
                (backToBack j.c.toNat callee.descriptor.outputs)) m rfl
            dsimp only
            generalize passOutputs _ _ _ _ = result at hgrown hstack ⊢
            cases result with
            | error cause m' => exact hgrown
            | ok _ m' =>
                simp only [after] at hgrown hstack
                have hindex : min caller m'.stack.activeIndex = caller := by
                  rw [hstack]
                  omega
                have hreleased := (hgrown.unwindTo caller (by omega)).releaseFrame
                  hsite
                refine ⟨(hreleased.advance ?_).note _, hn.of_innermostReturn_lt ?_⟩
                · simp only [stack_releaseFrame, stack_modifyStack,
                    CallStack.activeIndex_unwindTo, hindex]
                  omega
                · simp only [stack_note, Interpreter.advance, CallStack.advance,
                    stack_modifyStack, CallStack.activeIndex_modifyActive, stack_releaseFrame,
                    CallStack.activeIndex_unwindTo, hindex]
                  omega

/-- Executing an instruction above `depth` keeps the machine grown. -/
theorem grownResult_execute (h : GrownFrom origin depth floor m)
    (hn : Nested depth floor m.stack.activeIndex suspended)
    (hsite : floor ≤ site.window.base) :
    GrownResult origin depth floor suspended
      (execute program (innermostReturn depth suspended) site i m) := by
  unfold execute
  cases hplan : Plan.ofInstruction program m site i with
  | error cause => exact h
  | ok plan =>
      cases planned_of_ofInstruction hplan with
      | next => exact ⟨h.advance hn.depth_lt, hn⟩
      | goto target => exact ⟨h.modifyActive hn.depth_lt fun _ => rfl, hn⟩
      | store bytes hbase =>
          exact ⟨(h.store bytes (Nat.le_trans hsite hbase)).advance hn.depth_lt, hn⟩
      | call hcallee sources => exact grownResult_call h hn _ _ sources
      | callback inputs => exact grownResult_callback h hn hsite _ inputs
      | ret => exact grownResult_ret h hn hsite

/-- Collecting the outputs of an invocation whose caller lies above `depth`. -/
theorem grown_collect {call : Invocation} (h : GrownFrom origin depth floor m)
    (hprevious : depth < call.previous) (hbase : floor ≤ call.window.base) :
    GrownFrom origin depth floor (after (collect call m)) := by
  rw [collect_eq]
  split
  · rename_i hactive
    have hjump : GrownFrom origin depth floor
        (m.modifyStack (CallStack.jump call.resumeAt)) :=
      h.modifyActive (by omega) fun _ => rfl
    dsimp only
    split
    · exact hjump
    · exact (hjump.releaseFrame hbase).note _
  · exact h

end Instructions

/-! ## Steps and runs -/

/-- An execution above `depth` whose machine has grown from `origin`. -/
structure Grown (origin : Machine) (depth floor : Nat) (x : Execution) : Prop where
  machine : GrownFrom origin depth floor x.machine
  returnTo_eq : x.returnTo = depth
  nested : Nested depth floor x.machine.stack.activeIndex x.suspended

/-- The machine of a finished run has grown from `origin`; if the run ended
without a fault, the frame in which it had to end is active. -/
structure GrownBack (origin : Machine) (depth floor : Nat) (back : Comeback Interpreter) :
    Prop where
  machine : GrownFrom origin depth floor back.machine
  active_eq : back.verdict = .ok () → back.machine.stack.activeIndex = depth

section Runs

variable {program : Program} {origin m : Machine} {depth floor : Nat}
  {interpreter : Interpreter} {suspended : List Suspension}

theorem grown_stop (h : GrownFrom origin depth floor m) (cause : Fault) :
    (stop interpreter suspended cause m).Leads (Grown origin depth floor)
      (GrownBack origin depth floor) where
  machine := h.congr (abandon_arena ..) (abandon_stack ..)
  active_eq hok := by simp at hok

/-- A run that a nested invocation has come back to stays above `depth`. -/
theorem grown_resume {s : Suspension} {outer : List Suspension}
    (h : GrownFrom origin depth floor m) (hn : Nested depth floor (s.invocation.previous + 1)
      (s :: outer)) (hactive : m.stack.activeIndex = s.invocation.previous) :
    match resume s m with
    | .error _ m' => GrownFrom origin depth floor m'
    | .ok () m' =>
        GrownFrom origin depth floor m' ∧ Nested depth floor m'.stack.activeIndex outer := by
  obtain ⟨-, hsite, hwindow, houter⟩ := hn
  have hcollect := grown_collect h houter.depth_lt hwindow
  rw [resume_eq]
  cases hc : collect s.invocation m with
  | error cause m' =>
      rw [hc] at hcollect
      exact hcollect.fail _
  | ok outputs m' =>
      rw [hc] at hcollect
      have hactive' : m'.stack.activeIndex = s.invocation.previous := by
        rw [collect_eq, if_pos hactive] at hc
        dsimp only at hc
        split at hc
        · contradiction
        · cases hc
          simpa [CallStack.jump] using hactive
      have hgrown := keeps_deliver (GrownFrom.storeClosed origin depth floor) s.site hsite
        s.destination.toNat outputs m' hcollect
      have hstack := keeps_deliver (storeClosed_stack_eq m'.stack) s.site
        (Nat.zero_le _) s.destination.toNat outputs m' rfl
      dsimp only
      generalize deliver _ _ _ _ = result at hgrown hstack ⊢
      cases result with
      | error cause m'' => exact hgrown
      | ok _ m'' =>
          simp only [after] at hgrown hstack
          have hactive'' : m''.stack.activeIndex = s.invocation.previous := by
            rw [hstack, hactive']
          refine ⟨hgrown.advance (hactive'' ▸ houter.depth_lt), ?_⟩
          simpa [advance, CallStack.advance, hactive''] using houter

/-- Whatever an instruction has led to, the execution goes on or ends grown. -/
theorem grown_settle {result : EStateM.Result Fault Machine Progress}
    (hn : Nested depth floor m.stack.activeIndex suspended)
    (h : GrownResult origin depth floor suspended result) :
    (settle interpreter depth suspended result).Leads (Grown origin depth floor)
      (GrownBack origin depth floor) := by
  cases result with
  | error cause m' => exact grown_stop h cause
  | ok progress m' =>
      cases progress with
      | running => exact ⟨h.1, rfl, h.2⟩
      | nested s => exact ⟨h.1, rfl, h.2⟩
      | returned =>
          obtain ⟨hgrown, hactive⟩ := h
          cases suspended with
          | nil => exact ⟨hgrown, fun _ => hactive⟩
          | cons s outer =>
              have hresume := grown_resume hgrown ⟨Nat.lt_succ_self _, hn.2⟩ hactive
              simp only [settle]
              generalize resume s m' = resumed at hresume ⊢
              cases resumed with
              | error cause m'' => exact grown_stop hresume cause
              | ok _ m'' => exact ⟨hresume.1, rfl, hresume.2⟩

/-- One instruction, with all that it completes, keeps an execution grown. -/
theorem step_grown {x : Execution} (h : Grown origin depth floor x) :
    (step program x).Leads (Grown origin depth floor) (GrownBack origin depth floor) := by
  obtain ⟨interpreter, m, returnTo, suspended⟩ := x
  obtain ⟨hgrown, rfl, hn⟩ := h
  simp only at hgrown hn
  unfold step
  dsimp only
  cases hf : fetch program m with
  | error cause => exact grown_stop hgrown cause
  | ok found =>
      obtain ⟨site, i⟩ := found
      obtain ⟨frame, hframe, hbase⟩ := exists_frame_of_fetch hf
      have hsite : floor ≤ site.window.base := by
        rw [hbase]
        exact hgrown.base_le _ frame hn.depth_lt (Nat.le_refl _) hframe
      dsimp only
      split
      · exact grown_stop hgrown _
      · exact grown_settle hn (grownResult_execute (hgrown.note _) hn hsite)

/-- A run above `depth` leaves a grown machine behind, whatever its verdict. -/
theorem run_grown {start : Nat} {back : Comeback Interpreter}
    (h : GrownFrom origin depth floor m) (hstart : depth < start)
    (hrun : run program interpreter m start depth = some back) :
    GrownBack origin depth floor back := by
  unfold run at hrun
  split at hrun
  · rename_i hactive
    exact runFor_induct (fun x => step_grown) _ _ _ ⟨h, rfl, hactive ▸ hstart⟩
      (runFor_of_complete hrun)
  · cases hrun
    exact ⟨h, fun hok => by simp at hok⟩

end Runs
end Interpreter

namespace Machine

/-! ## Invocations -/

section Invocations

variable {program : Program} {function : UInt16} {inputs : List Bytes} {m m' : Machine}
  {call : Invocation}

/-- What an invocation keeps of the machine in which it starts. -/
def Sheltered (m m' : Machine) : Prop :=
  GrownFrom m m.stack.activeIndex m.arena.stackPointer m'

/-- Entering an invocation changes nothing below, whether it is refused or not;
an accepted one is to come back to the active frame. -/
theorem sheltered_enter (program : Program) (function : UInt16) (inputs : List Bytes)
    (m : Machine) :
    match enter program function inputs m with
    | .error _ m' => Sheltered m m'
    | .ok call m' =>
        Sheltered m m' ∧ call.previous = m.stack.activeIndex ∧
          call.resumeAt = m.stack.active.instructionPointer ∧
            call.window.base = m.arena.stackPointer := by
  have hrefl := GrownFrom.refl m
  have henter := enter_keeps program function inputs
    (GrownFrom.storeClosed m m.stack.activeIndex m.arena.stackPointer) (Nat.le_refl _)
    fun routine _ _ => (hrefl.framed function routine.descriptor.size).note _
  cases hresult : enter program function inputs m with
  | ok call m' =>
      rw [hresult] at henter
      obtain ⟨hgrown, routine, -, rfl⟩ := henter
      exact ⟨hgrown, rfl, rfl, rfl⟩
  | error e m' =>
      rw [hresult] at henter
      cases e with
      | rejected reason => exact henter.symm ▸ hrefl
      | fault cause =>
          obtain ⟨n, hgrown, rfl⟩ := henter
          exact hgrown.fail cause

/-- The caller's frame is as it was once it has its instruction pointer back. -/
theorem Sheltered.jump (h : Sheltered m m') (hactive : m'.stack.activeIndex = m.stack.activeIndex) :
    Sheltered m (m'.modifyStack (CallStack.jump m.stack.active.instructionPointer)) where
  bytes_eq := h.bytes_eq
  frames_eq j hj := by
    have hframe := h.frames_eq j hj
    simp only [stack_modifyStack, CallStack.jump, CallStack.frames_modifyActive,
      Array.getElem?_modify, hactive]
    split
    · subst j
      rw [hframe, CallStack.active]
      cases hf : m.stack.frames[m.stack.activeIndex]? with
      | none => rfl
      | some f => simp [Array.getD_eq_getD_getElem?, hf]
    · exact hframe
  arenaCapacity_eq := h.arenaCapacity_eq
  stackCapacity_eq := (CallStack.capacity_modifyActive ..).trans h.stackCapacity_eq
  floor_le := h.floor_le
  depth_le := h.depth_le
  base_le j f hj hle _ := by
    simp only [stack_modifyStack, CallStack.jump, CallStack.activeIndex_modifyActive] at hle
    omega

/-- Leaving an invocation gives the caller's frame its instruction pointer back
and changes nothing else below. -/
theorem sheltered_leave (h : Sheltered m m') (hprevious : call.previous = m.stack.activeIndex)
    (hresume : call.resumeAt = m.stack.active.instructionPointer)
    (hbase : call.window.base = m.arena.stackPointer) :
    Sheltered m (after (leave call m')) := by
  have hcollect : Sheltered m (after (collect call m')) := by
    rw [collect_eq]
    split
    · rename_i hactive
      have hjump := h.jump (hactive.trans hprevious)
      rw [← hresume] at hjump
      dsimp only
      split
      · exact hjump
      · exact (GrownFrom.releaseFrame hjump (Nat.le_of_eq hbase.symm)).note _
    · exact h
  unfold leave guarded
  cases hc : collect call m' <;> rw [hc] at hcollect
  · exact hcollect
  · exact hcollect.fail _

/-- An invocation shelters what was there before it. -/
theorem sheltered_invoke {interpreter : Interpreter} {reply : Reply Interpreter}
    (h : m.invoke program (Interpreter.run program) function inputs interpreter = some reply) :
    Sheltered m reply.machine := by
  have henter := sheltered_enter program function inputs m
  rcases invoke_cases h with ⟨e, m', he, rfl⟩ | ⟨call, m', back, he, hrun, rfl⟩
  · rw [he] at henter
    exact henter
  · rw [he] at henter
    obtain ⟨hm', hprevious, hresume, hbase⟩ := henter
    rw [hprevious] at hrun
    have hback := Interpreter.run_grown hm' (by simp [Invocation.start, hprevious]) hrun
    obtain ⟨verdict, interpreter', m''⟩ := back
    cases verdict with
    | error cause => exact hback.machine.fail cause
    | ok _ =>
        have hleave := sheltered_leave hback.machine hprevious hresume hbase
        rw [conclude_machine_of_ok]
        cases hl : leave call m'' <;> rw [hl] at hleave <;> exact hleave

/-- An invocation leaves alone what was there before it, whatever its outcome:
the arena bytes below the stack pointer, all frames up to the active one, and
the sizes of the arena and of the call stack.  Neither the stack pointer nor the
active frame ends below its old place. -/
theorem invoke_isolated {interpreter : Interpreter} {reply : Reply Interpreter}
    (h : m.invoke program (Interpreter.run program) function inputs interpreter = some reply) :
    (∀ k < m.arena.stackPointer, reply.machine.arena.cells[k]? = m.arena.cells[k]?) ∧
      (∀ j ≤ m.stack.activeIndex, reply.machine.stack.frame? j = m.stack.frame? j) ∧
      m.arena.stackPointer ≤ reply.machine.arena.stackPointer ∧
      m.stack.activeIndex ≤ reply.machine.stack.activeIndex ∧
      reply.machine.arena.capacity = m.arena.capacity ∧
      reply.machine.stack.capacity = m.stack.capacity := by
  have hsheltered := sheltered_invoke h
  exact ⟨hsheltered.bytes_eq, hsheltered.frames_eq, hsheltered.floor_le, hsheltered.depth_le,
    hsheltered.arenaCapacity_eq, hsheltered.stackCapacity_eq⟩

/-- Two nested calls over five bytes that a frame holds already. -/
theorem invoke_isolated_relay :
    ∃ reply, (busy .release).invoke relay (Interpreter.run relay) 0 [[42]] {} = some reply ∧
      reply.outcome = .ok [[42]] ∧
      (∀ k < (busy .release).arena.stackPointer,
        reply.machine.arena.cells[k]? = (busy .release).arena.cells[k]?) ∧
      (∀ j ≤ (busy .release).stack.activeIndex,
        reply.machine.stack.frame? j = (busy .release).stack.frame? j) ∧
      (busy .release).arena.stackPointer ≤ reply.machine.arena.stackPointer ∧
      (busy .release).stack.activeIndex ≤ reply.machine.stack.activeIndex ∧
      reply.machine.arena.capacity = (busy .release).arena.capacity ∧
      reply.machine.stack.capacity = (busy .release).stack.capacity := by
  have houtcome : ((busy .release).invoke relay (Interpreter.run relay) 0 [[42]] {}).map
      Reply.outcome = some (.ok [[42]]) := by decide +kernel
  rcases Option.map_eq_some_iff.mp houtcome with ⟨reply, hreply, hok⟩
  exact ⟨reply, hreply, hok, invoke_isolated hreply⟩

end Invocations
end Machine
end FrameMachine
