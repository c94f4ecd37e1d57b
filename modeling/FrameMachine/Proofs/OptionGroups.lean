import FrameMachine.CommandLine.Options

/-!
# Groups of arguments

The arguments of an invocation fall into groups: an option together with the argument
that it takes for its value, or a single argument.  Only the groups have to be looked at
to tell whether the arguments are accepted, what they ask for, and which complaint there
is: a group counts for itself, the last one of an option wins, and inputs are collected
in order.

Main results:

- Theorem `readOptions_eq_foldlM`: arguments are read group by group.
- Theorem `foldlM_takeGroup`: what accepted groups ask for.
- Theorem `readOptions_cases`: arguments are accepted, or the first group that is not
  accepted is complained about.
- Theorem `following_moved`: moving an option past inputs and other options changes
  nothing.
- Theorem `readOptions_grouped`: all of this about the arguments of an invocation.
-/

namespace FrameMachine
namespace CommandLine

/-! ## Reading from left to right -/

/-- Arguments that belong together. -/
inductive Group where
  /-- An option with the argument that it takes for its value, whatever it looks like. -/
  | setting (s : Setting) (value : String)
  /-- An option with a value that no argument is left for. -/
  | bare (s : Setting)
  /-- Any other argument. -/
  | plain (argument : String)
  deriving Repr, DecidableEq

/-- The arguments of a group. -/
def Group.arguments : Group → List String
  | setting s value => [s.flag, value]
  | bare s => [s.flag]
  | plain argument => [argument]

/-- The arguments of groups, one group behind the other. -/
def written (gs : List Group) : List String := gs.flatMap Group.arguments

/-- The groups of arguments, read from left to right. -/
def groups : List String → List Group
  | [] => []
  | argument :: rest =>
      match Setting.ofFlag? argument with
      | none => .plain argument :: groups rest
      | some s =>
          match rest with
          | [] => [.bare s]
          | value :: rest => .setting s value :: groups rest

theorem Setting.ofFlag?_eq_some_iff {argument : String} {s : Setting} :
    Setting.ofFlag? argument = some s ↔ argument = s.flag := by
  constructor
  · intro h
    have hflag := List.find?_some h
    exact (beq_iff_eq.mp hflag).symm
  · rintro rfl
    cases s <;> decide

theorem groups_cons_of_none {argument : String} (h : Setting.ofFlag? argument = none)
    (rest : List String) : groups (argument :: rest) = .plain argument :: groups rest := by
  cases rest <;> simp only [groups, h]

theorem groups_flag_cons (s : Setting) (value : String) (rest : List String) :
    groups (s.flag :: value :: rest) = .setting s value :: groups rest := by
  rw [groups, Setting.ofFlag?_eq_some_iff.mpr rfl]

/-- An option takes the next argument even if that names an option. -/
example : groups ["2a", "--fuel", "--reclaim", "--reclaim", "--fuel"] =
    [.plain "2a", .setting .fuel "--reclaim", .plain "--reclaim", .bare .fuel] := by
  decide

/-- Every argument belongs to a group. -/
theorem written_groups (arguments : List String) : written (groups arguments) = arguments := by
  induction arguments using groups.induct with
  | case1 => rfl
  | case2 argument rest hplain ih =>
      rw [groups_cons_of_none hplain]
      exact congrArg (argument :: ·) ih
  | case3 argument s hflag =>
      cases Setting.ofFlag?_eq_some_iff.mp hflag
      simp only [groups, hflag]
      rfl
  | case4 argument s hflag value rest ih =>
      cases Setting.ofFlag?_eq_some_iff.mp hflag
      rw [groups_flag_cons]
      exact congrArg (fun rest => s.flag :: value :: rest) ih

/-! ## What a group asks for -/

namespace Group

/-- Whether an option has a value that is a number, an argument that looks like an option
is one, and any other argument is a byte string. -/
def Accepted : Group → Prop
  | setting _ value => ∃ n, number? Word.count value = some n
  | bare _ => False
  | plain argument =>
      if argument.startsWith "--" then argument = reclaimFlag
      else ∃ input, Hex.decode argument = .ok input

/-- The value that a group gives to a setting. -/
def value? (s : Setting) : Group → Option Nat
  | setting s' value => if s' = s then number? Word.count value else none
  | bare _ | plain _ => none

/-- The text of an input: an argument that does not look like an option. -/
def text? : Group → Option String
  | setting .. | bare _ => none
  | plain argument => if argument.startsWith "--" then none else some argument

/-- The bytes of an input. -/
def input? (g : Group) : Option Bytes := g.text?.bind fun text => (Hex.decode text).toOption

/-- What groups are about. -/
inductive Kind where
  | setting (s : Setting)
  | reclaim
  | input
  deriving Repr, DecidableEq

/-- What a group is about. -/
def kind : Group → Kind
  | setting s _ | bare s => .setting s
  | plain argument => if argument = reclaimFlag then .reclaim else .input

end Group

/-- The value that the last group of a setting gives to it. -/
def lastValue? (s : Setting) (gs : List Group) : Option Nat :=
  (gs.filterMap (Group.value? s)).getLast?

theorem reclaimFlag_startsWith : reclaimFlag.startsWith "--" = true := by
  simp [reclaimFlag]

theorem flag_startsWith (s : Setting) : s.flag.startsWith "--" = true := by
  cases s <;> simp [Setting.flag]

section Groups

variable {g : Group} {gs moved : List Group} {o o' : Options} {c : Complaint} {s : Setting}

theorem value?_eq_none (h : g.kind ≠ .setting s) : g.value? s = none := by
  cases g with
  | setting s' value => exact if_neg fun heq => h (congrArg _ heq)
  | bare s' => rfl
  | plain argument => rfl

theorem text?_eq_none (h : g.kind ≠ .input) : g.text? = none := by
  cases g with
  | setting s' value => rfl
  | bare s' => rfl
  | plain argument =>
      by_cases hreclaim : argument = reclaimFlag
      · exact if_pos (hreclaim ▸ reclaimFlag_startsWith)
      · exact absurd (if_neg hreclaim) h

theorem input?_eq_none (h : g.kind ≠ .input) : g.input? = none := by
  rw [Group.input?, text?_eq_none h]
  rfl

/-- An accepted argument that takes no value names no option that does. -/
theorem ofFlag?_eq_none_of_accepted {argument : String} (h : (Group.plain argument).Accepted) :
    Setting.ofFlag? argument = none := by
  cases hflag : Setting.ofFlag? argument with
  | none => rfl
  | some s =>
      cases Setting.ofFlag?_eq_some_iff.mp hflag
      rw [Group.Accepted, if_pos (flag_startsWith s)] at h
      cases s <;> exact absurd h (by decide)

/-- The groups of accepted arguments can be told apart again. -/
theorem groups_written (h : ∀ g ∈ gs, g.Accepted) : groups (written gs) = gs := by
  induction gs with
  | nil => rfl
  | cons g gs ih =>
      have hrest := ih fun g' hg' => h g' (List.mem_cons_of_mem _ hg')
      have hg := h g (List.mem_cons_self ..)
      cases g with
      | setting s value => exact (groups_flag_cons s value _).trans (congrArg _ hrest)
      | bare s => exact hg.elim
      | plain argument =>
          exact (groups_cons_of_none (ofFlag?_eq_none_of_accepted hg) _).trans
            (congrArg _ hrest)

/-! ## Group by group -/

/-- Take the arguments of a group. -/
def Options.takeGroup (o : Options) : Group → Except Complaint Options
  | .setting s value => (s.read value).map fun n => s.assign n o
  | .bare s => .error (.missingValue s.flag)
  | .plain argument => o.take argument

/-- Arguments are read group by group. -/
theorem readOptions_eq_foldlM (o : Options) (arguments : List String) :
    readOptions o arguments = (groups arguments).foldlM Options.takeGroup o := by
  induction arguments using groups.induct generalizing o with
  | case1 => rfl
  | case2 argument rest hplain ih =>
      rw [groups_cons_of_none hplain, List.foldlM_cons, readOptions, hplain]
      simp only [Options.takeGroup]
      cases o.take argument with
      | error c => rfl
      | ok o => exact ih o
  | case3 argument s hflag =>
      simp only [groups, readOptions, hflag]
      rfl
  | case4 argument s hflag value rest ih =>
      simp only [groups, readOptions, hflag, List.foldlM_cons, Options.takeGroup]
      cases s.read value with
      | error c => rfl
      | ok n => exact ih _

/-- The options with all that some groups ask for. -/
def Options.following (o : Options) (gs : List Group) : Options where
  config :=
    { memorySize := (lastValue? .memorySize gs).getD o.config.memorySize
      callStackSize := (lastValue? .callDepth gs).getD o.config.callStackSize
      reclaim := if .plain reclaimFlag ∈ gs then .release else o.config.reclaim }
  fuel := (lastValue? .fuel gs).or o.fuel
  inputs := o.inputs ++ gs.filterMap Group.input?

@[simp]
theorem lastValue?_nil (s : Setting) : lastValue? s [] = none := rfl

/-- A later value counts, if there is one. -/
theorem lastValue?_cons (s : Setting) (g : Group) (gs : List Group) :
    lastValue? s (g :: gs) = (lastValue? s gs).or (g.value? s) := by
  unfold lastValue?
  rw [List.filterMap_cons]
  cases g.value? s with
  | none => simp
  | some n =>
      dsimp only
      rw [List.getLast?_cons]
      cases (gs.filterMap (Group.value? s)).getLast? <;> rfl

@[simp]
theorem following_nil (o : Options) : o.following [] = o := by
  simp [Options.following]

theorem following_cons (o : Options) (g : Group) (gs : List Group) :
    o.following (g :: gs) = (o.following [g]).following gs := by
  have hreclaim : (if .plain reclaimFlag ∈ g :: gs then Reclaim.release else o.config.reclaim) =
      if .plain reclaimFlag ∈ gs then .release
      else if .plain reclaimFlag ∈ [g] then .release else o.config.reclaim := by
    by_cases hg : Group.plain reclaimFlag = g <;>
      by_cases hgs : Group.plain reclaimFlag ∈ gs <;> simp [hg, hgs]
  have hinputs : (g :: gs).filterMap Group.input? =
      [g].filterMap Group.input? ++ gs.filterMap Group.input? := by
    rw [← List.filterMap_append]
    rfl
  simp only [Options.following, lastValue?_cons, lastValue?_nil, Option.none_or, Option.getD_or,
    Option.or_assoc, hreclaim, hinputs, List.append_assoc]

theorem ne_reclaimFlag {argument : String} (h : argument.startsWith "--" = false) :
    argument ≠ reclaimFlag := by
  rintro rfl
  exact absurd (h.symm.trans reclaimFlag_startsWith) (by decide)

/-- What does not look like an option is taken for an input. -/
theorem take_of_text {argument : String} (h : argument.startsWith "--" = false) :
    o.take argument =
      match Hex.decode argument with
      | .ok input => .ok { o with inputs := o.inputs ++ [input] }
      | .error e => .error (.badInput o.inputs.length e) := by
  rw [Options.take, if_neg (ne_reclaimFlag h), h]
  rfl

/-- An accepted group is taken for what it asks for. -/
theorem takeGroup_of_accepted (h : g.Accepted) : o.takeGroup g = .ok (o.following [g]) := by
  cases g with
  | setting s value =>
      rcases h with ⟨n, hn⟩
      have hread : s.read value = .ok n := by simp only [Setting.read, hn]
      rw [Options.takeGroup, hread]
      cases s <;> simp [Options.following, Setting.assign, lastValue?_cons, Group.value?,
        Group.input?, Group.text?, hn, Except.map]
  | bare s => exact h.elim
  | plain argument =>
      cases hoption : argument.startsWith "--" with
      | true =>
          rw [Group.Accepted, if_pos hoption] at h
          subst h
          simp [Options.takeGroup, Options.take, Options.following, lastValue?_cons,
            Group.value?, input?_eq_none (g := .plain reclaimFlag) (by decide)]
      | false =>
          rw [Group.Accepted, hoption] at h
          rcases h with ⟨input, hinput⟩
          rw [Options.takeGroup, take_of_text hoption, hinput]
          simp [Options.following, lastValue?_cons, Group.value?, Group.input?, Group.text?,
            (ne_reclaimFlag hoption).symm, hoption, hinput, Except.toOption]

/-- A group that is not accepted is complained about. -/
theorem exists_complaint (o : Options) (h : ¬g.Accepted) : ∃ c, o.takeGroup g = .error c := by
  cases g with
  | setting s value =>
      have hnone : number? Word.count value = none :=
        Option.eq_none_iff_forall_ne_some.mpr fun n hn => h ⟨n, hn⟩
      exact ⟨.badValue s.flag value, by simp only [Options.takeGroup, Setting.read, hnone]; rfl⟩
  | bare s => exact ⟨_, rfl⟩
  | plain argument =>
      cases hoption : argument.startsWith "--" with
      | true =>
          rw [Group.Accepted, if_pos hoption] at h
          exact ⟨_, by rw [Options.takeGroup, Options.take, if_neg h, if_pos hoption]⟩
      | false =>
          rw [Group.Accepted, hoption] at h
          rw [Options.takeGroup, take_of_text hoption]
          cases hinput : Hex.decode argument with
          | ok input => exact absurd ⟨input, hinput⟩ h
          | error reason => exact ⟨_, rfl⟩

/-- A complaint about an input is that of its text, and tells how many inputs there were
before. -/
theorem takeGroup_eq_badInput_iff {index : Nat} {reason : Hex.Error} :
    o.takeGroup g = .error (.badInput index reason) ↔
      ∃ text, g = .plain text ∧ text.startsWith "--" = false ∧
        Hex.decode text = .error reason ∧ index = o.inputs.length := by
  constructor
  · intro h
    cases g with
    | setting s value =>
        simp only [Options.takeGroup, Setting.read] at h
        cases hn : number? Word.count value <;> simp [hn, Except.map] at h
    | bare s => simp [Options.takeGroup] at h
    | plain text =>
        cases hoption : text.startsWith "--" with
        | true =>
            rw [Options.takeGroup, Options.take] at h
            by_cases hreclaim : text = reclaimFlag <;> simp [hreclaim, hoption] at h
        | false =>
            rw [Options.takeGroup, take_of_text hoption] at h
            cases hinput : Hex.decode text with
            | ok input => simp [hinput] at h
            | error e =>
                simp only [hinput, Except.error.injEq, Complaint.badInput.injEq] at h
                rcases h with ⟨rfl, rfl⟩
                exact ⟨text, rfl, hoption, hinput, rfl⟩
  · rintro ⟨text, rfl, hoption, hinput, rfl⟩
    rw [Options.takeGroup, take_of_text hoption, hinput]

/-- Accepted groups are taken for what they ask for. -/
theorem foldlM_takeGroup (h : ∀ g ∈ gs, g.Accepted) :
    gs.foldlM Options.takeGroup o = .ok (o.following gs) := by
  induction gs generalizing o with
  | nil => rw [following_nil]; rfl
  | cons g gs ih =>
      rw [List.foldlM_cons, takeGroup_of_accepted (h g (List.mem_cons_self ..)),
        following_cons o g gs]
      exact ih fun g' hg' => h g' (List.mem_cons_of_mem _ hg')

/-- The complaint is that about the first group that is not accepted. -/
theorem foldlM_takeGroup_eq_error {before after : List Group} (h : ∀ g ∈ before, g.Accepted)
    (hcomplaint : (o.following before).takeGroup g = .error c) :
    (before ++ g :: after).foldlM Options.takeGroup o = .error c := by
  rw [List.foldlM_append, foldlM_takeGroup h]
  simp only [bind, Except.bind, List.foldlM_cons, hcomplaint]

/-- Groups are accepted, or there is a first one that is not. -/
theorem accepted_cases (gs : List Group) :
    (∀ g ∈ gs, g.Accepted) ∨ ∃ before g after, gs = before ++ g :: after ∧
      (∀ g ∈ before, g.Accepted) ∧ ¬g.Accepted := by
  induction gs with
  | nil => exact Or.inl nofun
  | cons g gs ih =>
      by_cases hg : g.Accepted
      · rcases ih with hall | ⟨before, g', after, rfl, hbefore, hg'⟩
        · exact Or.inl (List.forall_mem_cons.mpr ⟨hg, hall⟩)
        · exact Or.inr ⟨g :: before, g', after, rfl, List.forall_mem_cons.mpr ⟨hg, hbefore⟩, hg'⟩
      · exact Or.inr ⟨[], g, gs, rfl, nofun, hg⟩

/-- Arguments are accepted, or the first group that is not accepted is complained
about. -/
theorem readOptions_cases (o : Options) (arguments : List String) :
    ((∀ g ∈ groups arguments, g.Accepted) ∧
      readOptions o arguments = .ok (o.following (groups arguments))) ∨
    ∃ before g after c, groups arguments = before ++ g :: after ∧
      (∀ g ∈ before, g.Accepted) ∧ ¬g.Accepted ∧
      (o.following before).takeGroup g = .error c ∧ readOptions o arguments = .error c := by
  rw [readOptions_eq_foldlM]
  rcases accepted_cases (groups arguments) with hall | ⟨before, g, after, hgroups, hbefore, hg⟩
  · exact Or.inl ⟨hall, foldlM_takeGroup hall⟩
  · rcases exists_complaint (o.following before) hg with ⟨c, hc⟩
    refine Or.inr ⟨before, g, after, c, hgroups, hbefore, hg, hc, ?_⟩
    rw [hgroups, foldlM_takeGroup_eq_error hbefore hc]

theorem readOptions_eq_ok_iff {arguments : List String} :
    readOptions o arguments = .ok o' ↔
      (∀ g ∈ groups arguments, g.Accepted) ∧ o' = o.following (groups arguments) := by
  rcases readOptions_cases o arguments with ⟨hall, hread⟩ |
    ⟨before, g, after, c, hgroups, -, hg, -, hread⟩
  · rw [hread, Except.ok.injEq]
    exact ⟨fun h => ⟨hall, h.symm⟩, fun h => h.2.symm⟩
  · constructor
    · intro hok
      exact absurd (hread.symm.trans hok) nofun
    · rintro ⟨hall, -⟩
      exact absurd (hall g (by simp [hgroups])) hg

/-! ## Inputs -/

theorem exists_input_of_accepted {text : String} (h : g.Accepted) (htext : g.text? = some text) :
    ∃ input, Hex.decode text = .ok input := by
  cases g with
  | setting s value => exact absurd htext nofun
  | bare s => exact absurd htext nofun
  | plain argument =>
      cases hoption : argument.startsWith "--" with
      | true => simp [Group.text?, hoption] at htext
      | false =>
          simp only [Group.text?, hoption, Bool.false_eq_true, if_false, Option.some.injEq] at htext
          rw [Group.Accepted, hoption] at h
          exact htext ▸ h

/-- Every accepted input has been read. -/
theorem map_decode_texts (h : ∀ g ∈ gs, g.Accepted) :
    (gs.filterMap Group.text?).map Hex.decode = (gs.filterMap Group.input?).map Except.ok := by
  induction gs with
  | nil => rfl
  | cons g gs ih =>
      have hrest := ih fun g' hg' => h g' (List.mem_cons_of_mem _ hg')
      cases htext : g.text? with
      | none => simpa [Group.input?, htext] using hrest
      | some text =>
          rcases exists_input_of_accepted (h g (List.mem_cons_self ..)) htext with ⟨input, hinput⟩
          simpa [Group.input?, htext, hinput, Except.toOption] using hrest

theorem length_inputs (h : ∀ g ∈ gs, g.Accepted) :
    (gs.filterMap Group.input?).length = (gs.filterMap Group.text?).length := by
  have hlength := congrArg List.length (map_decode_texts h)
  simpa using hlength.symm

/-! ## Moving options -/

/-- An option changes places with inputs and other options between which it stands. -/
inductive Moved : List Group → List Group → Prop
  | later {before between after : List Group} {g : Group} (hoption : g.kind ≠ .input)
      (hbetween : ∀ h ∈ between, h.kind ≠ g.kind) :
      Moved (before ++ g :: between ++ after) (before ++ between ++ g :: after)
  | earlier {before between after : List Group} {g : Group} (hoption : g.kind ≠ .input)
      (hbetween : ∀ h ∈ between, h.kind ≠ g.kind) :
      Moved (before ++ between ++ g :: after) (before ++ g :: between ++ after)

theorem Moved.mem_iff (h : Moved gs moved) : g ∈ gs ↔ g ∈ moved := by
  cases h <;> simp only [List.mem_append, List.mem_cons, or_assoc, or_left_comm]

/-- A selection from the groups sees nothing of the move if it takes no notice of the
option, or of all groups that the option passes. -/
theorem filterMap_move {α : Type} {f : Group → Option α} {before between after : List Group}
    (h : f g = none ∨ ∀ g' ∈ between, f g' = none) :
    (before ++ g :: between ++ after).filterMap f =
      (before ++ between ++ g :: after).filterMap f := by
  rcases h with hg | hbetween
  · simp [hg]
  · have hnil : between.filterMap f = [] := List.filterMap_eq_nil_iff.mpr hbetween
    simp [List.filterMap_cons, hnil]

theorem filterMap_value?_moved (s : Setting) (h : Moved gs moved) :
    gs.filterMap (Group.value? s) = moved.filterMap (Group.value? s) := by
  have hmove {g : Group} {between : List Group} (hbetween : ∀ h ∈ between, h.kind ≠ g.kind) :
      g.value? s = none ∨ ∀ g' ∈ between, g'.value? s = none := by
    by_cases hg : g.kind = .setting s
    · exact Or.inr fun g' hg' => value?_eq_none (hg ▸ hbetween g' hg')
    · exact Or.inl (value?_eq_none hg)
  cases h with
  | later _ hbetween => exact filterMap_move (hmove hbetween)
  | earlier _ hbetween => exact (filterMap_move (hmove hbetween)).symm

theorem filterMap_input?_moved (h : Moved gs moved) :
    gs.filterMap Group.input? = moved.filterMap Group.input? := by
  cases h with
  | later hoption _ => exact filterMap_move (Or.inl (input?_eq_none hoption))
  | earlier hoption _ => exact (filterMap_move (Or.inl (input?_eq_none hoption))).symm

/-- Moving an option past inputs and other options changes nothing of what the groups
ask for. -/
theorem following_moved (h : Moved gs moved) : o.following gs = o.following moved := by
  simp only [Options.following, lastValue?, filterMap_value?_moved _ h, filterMap_input?_moved h,
    h.mem_iff]

/-! ## The arguments of an invocation -/

/-- Options are what some groups ask for. -/
structure Options.Follows (o : Options) (gs : List Group) : Prop where
  memorySize_eq : o.config.memorySize = (lastValue? .memorySize gs).getD ({} : Config).memorySize
  callStackSize_eq :
    o.config.callStackSize = (lastValue? .callDepth gs).getD ({} : Config).callStackSize
  fuel_eq : o.fuel = lastValue? .fuel gs
  reclaim_iff : o.config.reclaim = .release ↔ .plain reclaimFlag ∈ gs
  inputs_eq : (gs.filterMap Group.text?).map Hex.decode = o.inputs.map Except.ok

theorem follows_following (h : ∀ g ∈ gs, g.Accepted) :
    (({} : Options).following gs).Follows gs where
  memorySize_eq := rfl
  callStackSize_eq := rfl
  fuel_eq := Option.or_none
  reclaim_iff := by
    by_cases hmem : .plain reclaimFlag ∈ gs <;> simp [Options.following, hmem]
  inputs_eq := map_decode_texts h

/-- The arguments of an invocation are read group by group. -/
structure ReadInGroups (arguments : List String) : Prop where
  written_eq : written (groups arguments) = arguments
  accepted_iff :
    (∃ o, readOptions {} arguments = .ok o) ↔ ∀ g ∈ groups arguments, g.Accepted
  follows : ∀ o, readOptions {} arguments = .ok o → o.Follows (groups arguments)
  moved : ∀ moved o, Moved (groups arguments) moved → readOptions {} arguments = .ok o →
    groups (written moved) = moved ∧ readOptions {} (written moved) = .ok o
  badInput_iff : ∀ index reason, readOptions {} arguments = .error (.badInput index reason) ↔
    ∃ before text after, groups arguments = before ++ .plain text :: after ∧
      (∀ g ∈ before, g.Accepted) ∧ text.startsWith "--" = false ∧
      Hex.decode text = .error reason ∧ index = (before.filterMap Group.text?).length

/-- Arguments are accepted if all of their groups are, and ask for what the groups ask
for, wherever the options stand among the inputs and each other.  What is wrong with an
input is reported with the number of inputs before it. -/
theorem readOptions_grouped (arguments : List String) : ReadInGroups arguments where
  written_eq := written_groups arguments
  accepted_iff := by
    constructor
    · rintro ⟨o, hread⟩
      exact (readOptions_eq_ok_iff.mp hread).1
    · intro hall
      exact ⟨_, readOptions_eq_ok_iff.mpr ⟨hall, rfl⟩⟩
  follows := by
    intro o hread
    rcases readOptions_eq_ok_iff.mp hread with ⟨hall, rfl⟩
    exact follows_following hall
  moved := by
    intro moved o hmoved hread
    rcases readOptions_eq_ok_iff.mp hread with ⟨hall, rfl⟩
    have haccepted : ∀ g ∈ moved, g.Accepted := fun g hg => hall g (hmoved.mem_iff.mpr hg)
    have hgroups := groups_written haccepted
    refine ⟨hgroups, readOptions_eq_ok_iff.mpr ?_⟩
    rw [hgroups]
    exact ⟨haccepted, following_moved hmoved⟩
  badInput_iff := by
    intro index reason
    constructor
    · intro hread
      rcases readOptions_cases {} arguments with ⟨-, hok⟩ |
        ⟨before, g, after, c, hgroups, hbefore, -, hcomplaint, herror⟩
      · exact absurd (hread.symm.trans hok) nofun
      · cases hread.symm.trans herror
        rcases takeGroup_eq_badInput_iff.mp hcomplaint with ⟨text, rfl, hoption, hinput, rfl⟩
        exact ⟨before, text, after, hgroups, hbefore, hoption, hinput,
          length_inputs hbefore⟩
    · rintro ⟨before, text, after, hgroups, hbefore, hoption, hinput, rfl⟩
      rw [readOptions_eq_foldlM, hgroups]
      refine foldlM_takeGroup_eq_error hbefore (takeGroup_eq_badInput_iff.mpr ?_)
      exact ⟨text, rfl, hoption, hinput, (length_inputs hbefore).symm⟩

end Groups
end CommandLine
end FrameMachine
