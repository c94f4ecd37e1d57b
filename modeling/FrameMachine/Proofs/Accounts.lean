import FrameMachine.Proofs.Resources
import Mathlib.Algebra.Ring.Nat

/-!
# Accounting for arena bytes

Where the stack pointer stands tells which frames have been allocated.  Under the retain
policy nothing is ever given back: the stack pointer has moved by the sizes of all frames
that have been pushed, of which the journal has a note each, however the invocation ends.
Under the release policy everything is given back in time: at every instruction the
windows of the live frames adjoin each other from the old stack pointer to the new one,
and after an invocation that brings its outputs the stack pointer is back where it was.

Main results:

- Theorems `growthClosed_accounts` and `accounts_run`: under the retain policy all changes
  keep account of the frames that are pushed, and so does a run.
- Theorem `Interpreter.step_tight`: under the release policy a step leaves no gap between
  live frames, and so does a run up to its end.
- Theorem `Machine.invoke_accounts`: where the stack pointer stands during and after an
  invocation.
-/

namespace FrameMachine

/-! ## Frames that are pushed -/

/-- The functions whose frames have been pushed, in order. -/
def Journal.pushes (journal : Journal) : List UInt16 := journal.toList.filterMap Event.pushed?

theorem Journal.pushes_push (journal : Journal) (e : Event) :
    Journal.pushes (journal.push e) = journal.pushes ++ e.pushed?.toList := by
  cases he : e.pushed? <;> simp [Journal.pushes, he]

/-- Total size of frames of some functions. -/
def Program.frameBytes (program : Program) (functions : List UInt16) : Nat :=
  (functions.map fun function =>
    match program.routine? function with
    | some routine => routine.descriptor.size.toNat
    | none => 0).sum

theorem Program.frameBytes_append (program : Program) (functions others : List UInt16) :
    program.frameBytes (functions ++ others) =
      program.frameBytes functions + program.frameBytes others := by
  rw [frameBytes, List.map_append, List.sum_append_nat]
  rfl

theorem Program.frameBytes_singleton {program : Program} {function : UInt16} {routine : Routine}
    (h : program.routine? function = some routine) :
    program.frameBytes [function] = routine.descriptor.size.toNat := by
  simp [frameBytes, h]

namespace Machine

/-! ## The retain policy -/

/-- Under the retain policy, the frames of some functions have been pushed since `origin`,
and the stack pointer has moved by the sizes of just these frames. -/
structure Accounts (program : Program) (origin m : Machine) (functions : List UInt16) :
    Prop where
  reclaim_eq : m.reclaim = .retain
  pushes_eq : m.journal.pushes = origin.journal.pushes ++ functions
  known : ∀ function ∈ functions, (program.routine? function).isSome
  stackPointer_eq : m.arena.stackPointer =
    origin.arena.stackPointer + program.frameBytes functions

section Retain

variable {program : Program} {origin m m' : Machine} {function : UInt16} {routine : Routine}
  {functions others : List UInt16} {inputs : List Bytes}

theorem accounts_refl (program : Program) (h : m.reclaim = .retain) :
    Accounts program m m [] where
  reclaim_eq := h
  pushes_eq := (List.append_nil _).symm
  known := nofun
  stackPointer_eq := rfl

theorem Accounts.trans (h : Accounts program origin m functions)
    (h' : Accounts program m m' others) :
    Accounts program origin m' (functions ++ others) where
  reclaim_eq := h'.reclaim_eq
  pushes_eq := by rw [h'.pushes_eq, h.pushes_eq, List.append_assoc]
  known := by
    intro function hmem
    rcases List.mem_append.mp hmem with hmem | hmem
    · exact h.known function hmem
    · exact h'.known function hmem
  stackPointer_eq := by
    rw [h'.stackPointer_eq, h.stackPointer_eq, Program.frameBytes_append, Nat.add_assoc]

theorem releaseFrame_of_retain (h : m.reclaim = .retain) (window : Window) :
    m.releaseFrame window = m := by
  apply if_neg
  intro hboth
  exact nomatch h.symm.trans hboth.1

/-- Nothing but the allocation of a frame changes the account. -/
theorem changeClosed_accounts (program : Program) (origin : Machine)
    (functions : List UInt16) :
    ChangeClosed fun m => Accounts program origin m functions where
  note {m e} he h :=
    { h with
      pushes_eq := by
        have hpushes : (m.note e).journal.pushes = m.journal.pushes ++ e.pushed?.toList :=
          Journal.pushes_push m.journal e
        rw [hpushes, he, Option.toList_none, List.append_nil]
        exact h.pushes_eq }
  store _ _ h := ⟨h.reclaim_eq, h.pushes_eq, h.known, h.stackPointer_eq⟩
  modifyActive _ h := ⟨h.reclaim_eq, h.pushes_eq, h.known, h.stackPointer_eq⟩
  unwindTo _ h := ⟨h.reclaim_eq, h.pushes_eq, h.known, h.stackPointer_eq⟩
  releaseFrame window h := (releaseFrame_of_retain h.reclaim_eq window).symm ▸ h

theorem Accounts.fail (h : Accounts program origin m functions) (cause : Fault) :
    Accounts program origin (m.fail cause) functions := by
  have hnote : Accounts program origin (m.note (.faulted cause)) functions :=
    (changeClosed_accounts program origin functions).note rfl h
  exact ⟨hnote.reclaim_eq, hnote.pushes_eq, hnote.known, hnote.stackPointer_eq⟩

/-- A new frame is entered into the account. -/
theorem accounts_framed (h : m.reclaim = .retain)
    (hroutine : program.routine? function = some routine) :
    Accounts program m (m.framed function routine.descriptor.size) [function] where
  reclaim_eq := h
  pushes_eq := Journal.pushes_push m.journal
    (.framePushed (m.stack.activeIndex + 1) function (m.nextWindow routine.descriptor.size))
  known := by simp [hroutine]
  stackPointer_eq := by
    rw [Program.frameBytes_singleton hroutine]
    rfl

/-- All changes keep account of the frames that are pushed. -/
theorem growthClosed_accounts (program : Program) (origin : Machine) :
    GrowthClosed program fun m => ∃ functions, Accounts program origin m functions where
  note he := fun ⟨functions, h⟩ =>
    ⟨functions, (changeClosed_accounts program origin functions).note he h⟩
  store offset bytes := fun ⟨functions, h⟩ =>
    ⟨functions, (changeClosed_accounts program origin functions).store offset bytes h⟩
  modifyActive change := fun ⟨functions, h⟩ =>
    ⟨functions, (changeClosed_accounts program origin functions).modifyActive change h⟩
  unwindTo index := fun ⟨functions, h⟩ =>
    ⟨functions, (changeClosed_accounts program origin functions).unwindTo index h⟩
  releaseFrame window := fun ⟨functions, h⟩ =>
    ⟨functions, (changeClosed_accounts program origin functions).releaseFrame window h⟩
  framed hroutine _ := fun ⟨_, h⟩ => ⟨_, h.trans (accounts_framed h.reclaim_eq hroutine)⟩

/-- A run keeps account of the frames that it pushes. -/
theorem accounts_run (h : m.reclaim = .retain) {interpreter : Interpreter}
    {start returnTo : Nat} {back : Comeback Interpreter}
    (hrun : Interpreter.run program interpreter m start returnTo = some back) :
    ∃ functions, Accounts program m back.machine functions :=
  (Interpreter.runClosed_of_growthClosed (growthClosed_accounts program m)
    fun cause ⟨functions, h⟩ => ⟨functions, h.fail cause⟩).run_keeps ⟨[], accounts_refl program h⟩
    hrun

/-- An invocation that is not rejected has pushed the frame of its function. -/
theorem accounts_enter (program : Program) (h : m.reclaim = .retain) (function : UInt16)
    (inputs : List Bytes) :
    match enter program function inputs m with
    | .ok _ m' | .error (.fault _) m' => Accounts program m m' [function]
    | .error (.rejected _) _ => True := by
  have hchanges := changeClosed_accounts program m [function]
  have henter := enter_keeps program function inputs hchanges.storeClosed
    (Nat.zero_le m.arena.stackPointer) fun _ hroutine _ =>
      hchanges.note rfl (accounts_framed h hroutine)
  cases hresult : enter program function inputs m with
  | ok call m' =>
      rw [hresult] at henter
      exact henter.1
  | error e m' =>
      rw [hresult] at henter
      cases e with
      | rejected reason => trivial
      | fault cause =>
          rcases henter with ⟨n, hn, rfl⟩
          exact Accounts.fail hn cause

/-- The end of an invocation pushes nothing. -/
theorem Accounts.conclude {back : Comeback Interpreter}
    (h : Accounts program origin back.machine functions) (call : Invocation) :
    Accounts program origin (conclude call back).machine functions := by
  rcases back with ⟨verdict, interpreter, m'⟩
  cases verdict with
  | error cause => exact Accounts.fail h cause
  | ok _ =>
      rw [conclude_machine_of_ok]
      exact (changeClosed_accounts program origin functions).keeps_leave
        (fun cause h => Accounts.fail h cause) call m' h

/-- An invocation that is not rejected keeps account of the frames that it pushes, that of
its function first. -/
theorem accounts_invoke (h : m.reclaim = .retain) {interpreter : Interpreter}
    {reply : Reply Interpreter}
    (hreply : m.invoke program (Interpreter.run program) function inputs interpreter = some reply)
    (hstarted : ∀ reason, reply.outcome ≠ .error (.rejected reason)) :
    ∃ called, Accounts program m reply.machine (function :: called) := by
  have henter := accounts_enter program h function inputs
  rcases invoke_cases hreply with ⟨e, m', he, rfl⟩ | ⟨call, m', back, he, hrun, rfl⟩
  · rw [he] at henter
    cases e with
    | rejected reason => exact absurd rfl (hstarted reason)
    | fault cause => exact ⟨[], henter⟩
  · rw [he] at henter
    rcases accounts_run henter.reclaim_eq hrun with ⟨called, hcalled⟩
    exact ⟨called, (henter.trans hcalled).conclude call⟩

end Retain

end Machine

/-! ## Windows that adjoin each other -/

/-- The first window begins at `floor`, each of the others where the one before it ends,
and the last one ends at `limit`. -/
def Adjoining (limit : Nat) : List Window → (floor : Nat) → Prop
  | [], floor => floor = limit
  | w :: rest, floor => w.base = floor ∧ Adjoining limit rest (w.base + w.size)

section Adjoining

variable {program : Program} {m : Machine} {depth floor limit : Nat} {function : UInt16}
  {live : List (Activation program)} {windows : List Window} {w : Window}

theorem Adjoining.concat (h : Adjoining w.base windows floor) :
    Adjoining (w.base + w.size) (windows ++ [w]) floor := by
  induction windows generalizing floor with
  | nil => exact ⟨h.symm, rfl⟩
  | cons v rest ih => exact ⟨h.1, ih h.2⟩

/-- Windows that adjoin each other take up all bytes between the first and the last. -/
theorem Adjoining.limit_eq (h : Adjoining limit windows floor) :
    limit = floor + (windows.map Window.size).sum := by
  induction windows generalizing floor with
  | nil => exact h.symm
  | cons w rest ih =>
      have hrest := ih h.2
      have hbase := h.1
      rw [List.map_cons, List.sum_cons]
      omega

/-- The windows of contiguous live frames adjoin each other from the first byte of the
bottom frame on. -/
theorem Called.adjoining (h : Called function floor live) (hcontiguous : Contiguous live limit) :
    Adjoining limit (live.map Activation.window).reverse floor := by
  have hpush {b : Activation program} {rest : List (Activation program)} {limit : Nat}
      (hstop : b.window.base + b.window.size = limit)
      (hrest : Adjoining b.base (rest.map Activation.window).reverse floor) :
      Adjoining limit ((b :: rest).map Activation.window).reverse floor := by
    subst hstop
    rw [List.map_cons, List.reverse_cons]
    exact Adjoining.concat (w := b.window) hrest
  induction h generalizing limit with
  | root _ hbase => exact hpush hcontiguous.1 hbase.symm
  | call _ _ _ _ ih => exact hpush hcontiguous.1 (ih hcontiguous.2)
  | callback _ _ _ _ _ ih => exact hpush hcontiguous.1 (ih hcontiguous.2)

end Adjoining

namespace Machine

/-- The windows of the frames above `depth`, the lowest first, if all these frames run
functions of the program. -/
def windowsAbove? (program : Program) (depth : Nat) (m : Machine) : Option (List Window) :=
  (List.range' (depth + 1) (m.stack.activeIndex - depth)).mapM (m.window? program)

section Windows

variable {program : Program} {m : Machine} {depth floor : Nat}
  {live : List (Activation program)}

theorem mapM_window?_of_occupies (h : Occupies m.stack.frames depth live) :
    (List.range' (depth + 1) live.length).mapM (m.window? program) =
      some (live.map Activation.window).reverse := by
  induction live with
  | nil => rfl
  | cons a below ih =>
      have hwindow : m.window? program (depth + 1 + below.length) = some a.window := by
        apply window?_eq
        rw [Nat.add_right_comm]
        exact h.1
      rw [List.length_cons, List.range'_1_concat, List.mapM_append, ih h.2]
      simp [hwindow]

theorem Layout.windowsAbove?_eq (h : m.Layout depth floor live) :
    m.windowsAbove? program depth = some (live.map Activation.window).reverse := by
  rw [windowsAbove?, h.active_eq, Nat.add_sub_cancel_left]
  exact mapM_window?_of_occupies h.occupies

end Windows

/-! ## The release policy -/

/-- The windows of the frames that are live in `m` and were not in `origin` adjoin each
other from the old stack pointer to the new one, which has moved by their total size. -/
def Gapless (program : Program) (origin m : Machine) : Prop :=
  ∃ windows, m.windowsAbove? program origin.stack.activeIndex = some windows ∧
    Adjoining m.arena.stackPointer windows origin.arena.stackPointer ∧
    m.arena.stackPointer = origin.arena.stackPointer + (windows.map Window.size).sum

end Machine

namespace Interpreter

open Machine

section Release

variable {program : Program} {function : UInt16} {depth floor clock : Nat} {policy : Reclaim}
  {x : Execution}

/-- An execution that is coherent along live frames between which there is no gap if the
reclaim policy is to release. -/
def Tight (program : Program) (function : UInt16) (depth floor : Nat) (policy : Reclaim)
    (x : Execution) : Prop :=
  x.machine.reclaim = policy ∧ ∃ live : List (Activation program),
    CoherentAlong function depth floor live x ∧ x.machine.Snug live

/-- A step leaves no gap. -/
theorem step_tight (h : Tight program function depth floor policy x) :
    (step program x).Leads (Tight program function depth floor policy) fun _ => True := by
  rcases h with ⟨hpolicy, live, halong, hsnug⟩
  cases hs : step program x with
  | ended back => trivial
  | more y =>
      rcases exists_deed_of_more halong hs with ⟨deed, hdoes, -, hdone⟩
      rcases parts_eq_of_clearJournal_eq hdone.machine_eq with ⟨harena, -, -⟩
      have hreclaim := reclaim_eq_of_clearJournal_eq hdone.machine_eq
      exact ⟨(hreclaim.trans (deed.reclaim_apply ..)).trans hpolicy, _, hdone.along,
        (hsnug.apply hdoes halong.coherent.layout).congr harena hreclaim⟩

/-- A run that ends well has left no gap when its first frame returns. -/
theorem exists_last_of_runFor {back : Comeback Interpreter}
    (h : Tight program function depth floor policy x)
    (hrun : runFor program clock x = some back) (hok : back.verdict = .ok ()) :
    ∃ (a : Activation program) (m : Machine),
      back = ⟨.ok (), back.engine, m.modifyStack (CallStack.unwindTo depth)⟩ ∧
        m.reclaim = policy ∧ Coherent function depth floor [a] m [] ∧ m.Snug [a] := by
  rcases runFor_eq_some_iff.mp hrun with ⟨count, -, y, hreach, hlast⟩
  rcases reach_induct (fun _ => step_tight) h hreach with ⟨hpolicy, live, halong, hsnug⟩
  rcases last_of_ended halong hlast hok with ⟨a, i, rfl, hinstruction, hret, hgoing⟩
  rcases step_of_last halong hinstruction hret hgoing with ⟨m, hend, hm, hcoherent⟩
  rcases parts_eq_of_clearJournal_eq hm with ⟨harena, -, -⟩
  have hback := hlast.symm.trans hend
  have hreclaim := reclaim_eq_of_clearJournal_eq hm
  cases hback
  exact ⟨a, m, rfl, hreclaim.trans hpolicy, hcoherent, hsnug.congr harena hreclaim⟩

end Release
end Interpreter

namespace Machine

section Release

variable {program : Program} {m : Machine} {function : UInt16} {inputs outputs : List Bytes}
  {interpreter : Interpreter} {x : Interpreter.Execution} {reply : Reply Interpreter}

theorem Sound.tight_started (h : m.Sound) (hpoisoned : m.poisoned = false) {routine : Routine}
    (hroutine : program.routine? function = some routine)
    (hroom : m.shortage routine.descriptor.size.toNat = none) (inputs : List Bytes)
    (interpreter : Interpreter) :
    Interpreter.Tight program function m.stack.activeIndex m.arena.stackPointer m.reclaim
      (m.started function routine.descriptor inputs interpreter) := by
  have hnone : m.Snug ([] : List (Activation program)) := fun _ => trivial
  exact ⟨rfl, _, h.along_started hpoisoned hroutine hroom inputs interpreter,
    (hnone.entering hroutine inputs).congr rfl rfl⟩

/-- Whatever an invocation visits has no gap between its live frames. -/
theorem Visits.gapless (hsound : m.Sound) (hrelease : m.reclaim = .release)
    (h : m.Visits program function inputs interpreter x) : Gapless program m x.machine := by
  rcases h with ⟨start, count, hstart, hreach⟩
  rcases exists_of_launch hsound hstart with ⟨routine, hroutine, haccept, hroom, rfl⟩
  have htight := hsound.tight_started (accept_eq_ok_iff.mp haccept).1 hroutine hroom inputs
    interpreter
  rcases Interpreter.reach_induct (fun _ => Interpreter.step_tight) htight hreach with
    ⟨hpolicy, live, halong, hsnug⟩
  have hadjoining := halong.coherent.called.adjoining (hsnug (hpolicy.trans hrelease))
  exact ⟨_, halong.coherent.layout.windowsAbove?_eq, hadjoining, hadjoining.limit_eq⟩

/-- An invocation that brings outputs gives back all that it has allocated. -/
theorem Sound.stackPointer_invoke (h : m.Sound) (hrelease : m.reclaim = .release)
    (hreply : m.invoke program (Interpreter.run program) function inputs interpreter = some reply)
    (hok : reply.outcome = .ok outputs) :
    reply.machine.arena.stackPointer = m.arena.stackPointer := by
  rcases h.exists_of_invoke_ok hreply hok with
    ⟨routine, hpoisoned, hroutine, hvalid, haccept, hroom, back, hrun, hverdict⟩
  have htight := h.tight_started hpoisoned hroutine hroom inputs interpreter
  rcases Interpreter.exists_last_of_runFor htight (Interpreter.runFor_of_complete hrun)
    hverdict with
    ⟨a, m', hback, hpolicy, hcoherent, hsnug⟩
  rw [h.invoke_started hpoisoned hroutine haccept hroom, hrun, hback] at hreply
  cases hreply
  have hconclude := congrArg (fun reply => reply.machine.arena.stackPointer)
    (conclude_eq hcoherent hroutine hvalid m.stack.active.instructionPointer back.engine)
  refine hconclude.trans ?_
  rw [arena_note, arena_leaving]
  refine (hsnug.stackPointer_release hcoherent.layout m.stack.activeIndex).trans ?_
  rw [hpolicy.trans hrelease]
  cases hcoherent.called with
  | root _ hbase => exact hbase

/-- Where the stack pointer stands.  Under the retain policy an invocation that is not
rejected has moved it by the sizes of all frames that it has pushed, that of its function
first, whether it brings outputs or ends in a fault.  Under the release policy the frames
that are live since the invocation has begun are at every instruction, at any depth of
reentrancy, all that the stack pointer has moved by, and an invocation that brings outputs
leaves it where it was. -/
theorem invoke_accounts (h : Reachable program m) :
    (m.reclaim = .retain → ∀ reply,
      m.invoke program (Interpreter.run program) function inputs interpreter = some reply →
      (∀ reason, reply.outcome ≠ .error (.rejected reason)) →
      ∃ called, Accounts program m reply.machine (function :: called)) ∧
    (m.reclaim = .release →
      (∀ x, m.Visits program function inputs interpreter x → Gapless program m x.machine) ∧
      ∀ reply outputs,
        m.invoke program (Interpreter.run program) function inputs interpreter = some reply →
        reply.outcome = .ok outputs →
        reply.machine.arena.stackPointer = m.arena.stackPointer) := by
  constructor
  · intro hretain reply hreply hstarted
    exact accounts_invoke hretain hreply hstarted
  · intro hrelease
    constructor
    · intro x hvisit
      exact hvisit.gapless h.sound hrelease
    · intro reply outputs hreply hok
      exact h.sound.stackPointer_invoke hrelease hreply hok

/-- Three nested functions with frames of four, three and two bytes, under each policy. -/
theorem invoke_accounts_relay :
    (∃ reply called, (busy .retain).invoke relay (Interpreter.run relay) 0 [[42]] {} =
        some reply ∧
      Accounts relay (busy .retain) reply.machine (0 :: called) ∧
      relay.frameBytes (0 :: called) = 9) ∧
    (∃ x, (busy .release).Visits relay 0 [[42]] {} x ∧ x.suspended.length = 1 ∧
      Gapless relay (busy .release) x.machine) ∧
    ∃ reply, (busy .release).invoke relay (Interpreter.run relay) 0 [[42]] {} = some reply ∧
      reply.machine.arena.stackPointer = 5 := by
  refine ⟨?_, ?_, ?_⟩
  · have hrun : ((busy .retain).invoke relay (Interpreter.run relay) 0 [[42]] {}).map
        (fun reply => (reply.outcome, reply.machine.arena.stackPointer)) =
          some (.ok [[42]], 14) := by
      decide +kernel
    rcases Option.map_eq_some_iff.mp hrun with ⟨reply, hreply, hboth⟩
    simp only [Prod.mk.injEq] at hboth
    rcases (invoke_accounts (reachable_busy .retain)).1 rfl reply hreply (by simp [hboth.1]) with
      ⟨called, haccounts⟩
    refine ⟨reply, called, hreply, haccounts, ?_⟩
    have hpointer := haccounts.stackPointer_eq
    rw [hboth.2] at hpointer
    exact (Nat.add_left_cancel (m := 9) (n := 5) hpointer).symm
  · have hreach : ((launch relay 0 [[42]] {} (busy .release)).bind fun start =>
        (Interpreter.reach relay 2 start).map fun x => x.suspended.length) = some 1 := by
      decide +kernel
    rcases Option.bind_eq_some_iff.mp hreach with ⟨start, hstart, hreach⟩
    rcases Option.map_eq_some_iff.mp hreach with ⟨x, hx, hlength⟩
    have hvisit : (busy .release).Visits relay 0 [[42]] {} x := ⟨start, 2, hstart, hx⟩
    exact ⟨x, hvisit, hlength, ((invoke_accounts (reachable_busy .release)).2 rfl).1 x hvisit⟩
  · have hrun : ((busy .release).invoke relay (Interpreter.run relay) 0 [[42]] {}).map
        (fun reply => reply.outcome) = some (.ok [[42]]) := by
      decide +kernel
    rcases Option.map_eq_some_iff.mp hrun with ⟨reply, hreply, hok⟩
    exact ⟨reply, hreply, ((invoke_accounts (reachable_busy .release)).2 rfl).2 reply _ hreply hok⟩

end Release
end Machine
end FrameMachine
