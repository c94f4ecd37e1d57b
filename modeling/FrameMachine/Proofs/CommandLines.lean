import FrameMachine.CommandLine.Run
import FrameMachine.Container.Encode
import FrameMachine.Proofs.Refusals
import FrameMachine.Proofs.Texts

/-!
# The command line and the machine

Invoking a function from the command line is invoking it on a fresh machine, for which
the host has to have room.  The arguments and the file make up a request, or there is
something wrong with them; the exit status tells which, and how the request has been
answered.  Outputs are printed for a request that has been answered with outputs, and for
no other one.

Main results:

- Theorem `run_invoke_cases`: a run without a request is a complaint, and a run with
  one reports the answer.
- Theorem `run_of_louder`: verbosity changes nothing but the lines that are shown.
- Theorem `run_agrees`: the exit status and the printed lines tell the answer.
-/

namespace FrameMachine
namespace CommandLine

/-! ## Requests -/

/-- An invocation that is ready to be made. -/
structure Request where
  program : Program
  function : UInt16
  options : Options
  machine : Machine

/-- The answer to a request, if the function comes back. -/
def Request.answer? (r : Request) : Option (Reply Interpreter) :=
  r.machine.invoke r.program (Interpreter.run r.program) r.function r.options.inputs
    ⟨r.options.fuel, 0⟩

section Requests

variable {host : Host} {read : String → Except FileError Bytes} {arguments operands : List String}
  {r r' : Request}

/-- The operands of an invocation make up a request: they name a file that holds a
program and a function, and options with which a machine can be created. -/
inductive Requests (host : Host) (read : String → Except FileError Bytes) :
    List String → Request → Prop
  | intro {path index : String} {rest : List String} {contents : Bytes} {r : Request}
      (hindex : number? UInt16.size index = some r.function.toNat)
      (hoptions : readOptions {} rest = .ok r.options)
      (hread : read path = .ok contents)
      (hprogram : Container.decode contents = .ok r.program)
      (hmachine : Machine.create host r.options.config = .ok r.machine) :
      Requests host read (path :: index :: rest) r

/-- Operands make up one request at most. -/
theorem Requests.unique (h : Requests host read operands r)
    (h' : Requests host read operands r') : r = r' := by
  rcases r with ⟨program, function, options, m⟩
  rcases r' with ⟨program', function', options', m'⟩
  cases h with
  | intro hindex hoptions hread hprogram hmachine =>
      cases h' with
      | intro hindex' hoptions' hread' hprogram' hmachine' =>
          cases hread.symm.trans hread'
          cases hprogram.symm.trans hprogram'
          cases hoptions.symm.trans hoptions'
          cases hmachine.symm.trans hmachine'
          have hfunction := UInt16.toNat_inj.mp (Option.some.inj (hindex.symm.trans hindex'))
          rw [show function = function' from hfunction]

/-- A fresh machine is not poisoned. -/
theorem unpoisoned_of_create {c : Config} {m : Machine} (h : Machine.create host c = .ok m) :
    m.poisoned = false := by
  obtain ⟨_, _, h⟩ := Interpreter.exists_of_bind_eq_ok h
  obtain ⟨_, _, h⟩ := Interpreter.exists_of_bind_eq_ok h
  obtain ⟨_, _, h⟩ := Interpreter.exists_of_bind_eq_ok h
  cases h
  rfl

/-- A fresh machine has nothing to say against the request for being poisoned. -/
theorem Requests.ne_poisoned (h : Requests host read operands r) {reply : Reply Interpreter}
    (hanswer : r.answer? = some reply) : reply.outcome ≠ .error (.rejected .poisoned) := by
  intro hrejected
  cases h with
  | intro hindex hoptions hread hprogram hmachine =>
      have hrefusal := (Machine.invoke_eq_rejected _ _ hanswer hrejected).1
      have hspec := Machine.refusal?_spec r.program r.machine r.function r.options.inputs
      rw [hrefusal] at hspec
      exact hspec.objection.stage_ne_of_unpoisoned (unpoisoned_of_create hmachine) rfl

end Requests

/-! ## Runs -/

section Runs

variable {host : Host} {read : String → Except FileError Bytes} {arguments operands : List String}
  {r : Request} {report : Report} {reply : Reply Interpreter}

/-- A number is below the bound of its field. -/
theorem lt_of_number? {bound n : Nat} {text : String} (h : number? bound text = some n) :
    n < bound := by
  unfold number? at h
  split at h
  · contradiction
  · exact of_decide_eq_true (Option.filter_eq_some_iff.mp h).2

/-- Of the file and the options either a machine that holds a program is made, or there
is a complaint. -/
theorem perform_invoke_cases (host : Host) (read : String → Except FileError Bytes) (path : String)
    (function : UInt16) (options : Options) :
    (∃ contents program m, read path = .ok contents ∧ Container.decode contents = .ok program ∧
      Machine.create host options.config = .ok m ∧
      perform host read (.invoke path function options) =
        (Request.answer? ⟨program, function, options, m⟩).map (Report.ofReply function)) ∨
    (∀ contents program m, read path = .ok contents → Container.decode contents = .ok program →
      Machine.create host options.config ≠ .ok m) ∧
      ∃ complaint, perform host read (.invoke path function options) =
        some (.ofComplaint complaint) := by
  simp only [perform, load, CommandLine.invoke]
  cases hread : read path with
  | error e => exact Or.inr ⟨nofun, _, rfl⟩
  | ok contents =>
      dsimp only
      cases hprogram : Container.decode contents with
      | error e =>
          refine Or.inr ⟨?_, .invalidProgram e, rfl⟩
          rintro _ _ m ⟨⟩ hprogram'
          exact absurd (hprogram.symm.trans hprogram') nofun
      | ok program =>
          cases hmachine : Machine.create host options.config with
          | error e => exact Or.inr ⟨nofun, .configuration e, rfl⟩
          | ok m => exact Or.inl ⟨contents, program, m, rfl, hprogram, rfl, rfl⟩

variable (host read) in
/-- A run without a request is a complaint, and a run with one reports the answer. -/
theorem run_invoke_cases (h : dropVerbosity arguments = "invoke" :: operands) :
    (∃ r, Requests host read operands r ∧
      run host read arguments = r.answer?.map (Report.ofReply r.function)) ∨
    (∀ r, ¬Requests host read operands r) ∧
      ∃ complaint, run host read arguments = some (.ofComplaint complaint) := by
  have hcommand : commandOf arguments = readInvoke operands := by
    simp only [commandOf, h, readCommand, if_pos]
  unfold run
  rw [hcommand]
  match operands with
  | [] => exact Or.inr ⟨nofun, _, rfl⟩
  | [path] => exact Or.inr ⟨nofun, _, rfl⟩
  | path :: index :: rest =>
      simp only [readInvoke]
      cases hindex : number? UInt16.size index with
      | none =>
          refine Or.inr ⟨?_, _, rfl⟩
          rintro r ⟨hindex', -, -, -, -⟩
          exact absurd (hindex.symm.trans hindex') nofun
      | some n =>
          have hfunction : (UInt16.ofNat n).toNat = n := by
            rw [UInt16.toNat_ofNat']
            exact Nat.mod_eq_of_lt (lt_of_number? hindex)
          cases hoptions : readOptions {} rest with
          | error e =>
              refine Or.inr ⟨?_, _, rfl⟩
              rintro r ⟨-, hoptions', -, -, -⟩
              exact absurd (hoptions.symm.trans hoptions') nofun
          | ok options =>
              rcases perform_invoke_cases host read path (UInt16.ofNat n) options with
                ⟨contents, program, m, hread, hprogram, hmachine, hrun⟩ | ⟨hnone, hcomplaint⟩
              · exact Or.inl ⟨⟨program, UInt16.ofNat n, options, m⟩,
                  ⟨hindex.trans (congrArg some hfunction.symm), hoptions, hread, hprogram,
                    hmachine⟩, hrun⟩
              · refine Or.inr ⟨?_, hcomplaint⟩
                rintro r ⟨-, hoptions', hread, hprogram, hmachine⟩
                cases hoptions.symm.trans hoptions'
                exact hnone _ _ _ hread hprogram hmachine

/-! ## Answers -/

/-- A run ends with an exit status. -/
def Exits (host : Host) (read : String → Except FileError Bytes) (arguments : List String)
    (code : Nat) : Prop :=
  ∃ report, run host read arguments = some report ∧ report.code = code

/-- The request of an invocation is answered. -/
def Answers (host : Host) (read : String → Except FileError Bytes) (operands : List String)
    (reply : Reply Interpreter) : Prop :=
  ∃ r, Requests host read operands r ∧ r.answer? = some reply

theorem code_ofReply_eq_zero_iff {function : UInt16} :
    (Report.ofReply function reply).code = 0 ↔ ∃ outputs, reply.outcome = .ok outputs := by
  unfold Report.ofReply
  cases reply.outcome with
  | ok outputs => simp
  | error e => cases hkind : e.kind <;> simp [hkind]

theorem code_ofReply_eq_three_iff {function : UInt16}
    (h : reply.outcome ≠ .error (.rejected .poisoned)) :
    (Report.ofReply function reply).code = 3 ↔
      ∃ cause, reply.outcome = .error (.fault cause) := by
  unfold Report.ofReply
  cases houtcome : reply.outcome with
  | ok outputs => simp
  | error e =>
      cases e with
      | fault cause => simp [InvokeError.kind]
      | rejected reason =>
          cases reason with
          | poisoned => exact absurd houtcome h
          | _ => simp [InvokeError.kind]

theorem code_ofReply_eq_two_iff {function : UInt16} :
    (Report.ofReply function reply).code = 2 ↔
      ∃ reason, reply.outcome = .error (.rejected reason) ∧
        ((InvokeError.rejected reason).kind = .callerContract ∨
          (InvokeError.rejected reason).kind = .resourceExhaustion) := by
  unfold Report.ofReply
  cases reply.outcome with
  | ok outputs => simp
  | error e =>
      cases e with
      | fault cause => simp [InvokeError.kind]
      | rejected reason => cases reason <;> simp [InvokeError.kind]

theorem code_ofReply_cases (function : UInt16) (reply : Reply Interpreter) :
    (Report.ofReply function reply).code = 0 ∨ (Report.ofReply function reply).code = 2 ∨
      (Report.ofReply function reply).code = 3 := by
  unfold Report.ofReply
  cases reply.outcome with
  | ok outputs => simp
  | error e => cases hkind : e.kind <;> simp [hkind]

/-- An exit status other than that of a complaint tells of an answer. -/
theorem exits_iff (h : dropVerbosity arguments = "invoke" :: operands) {code : Nat}
    (hcode : code ≠ 1) {P : Reply Interpreter → Prop}
    (hP : ∀ r reply, Requests host read operands r → r.answer? = some reply →
      ((Report.ofReply r.function reply).code = code ↔ P reply)) :
    Exits host read arguments code ↔ ∃ reply, Answers host read operands reply ∧ P reply := by
  rcases run_invoke_cases host read h with ⟨r, hr, hrun⟩ | ⟨hnone, complaint, hrun⟩
  · constructor
    · rintro ⟨report, hreport, hreportCode⟩
      rw [hrun] at hreport
      rcases Option.map_eq_some_iff.mp hreport with ⟨reply, hanswer, rfl⟩
      exact ⟨reply, ⟨r, hr, hanswer⟩, (hP r reply hr hanswer).mp hreportCode⟩
    · rintro ⟨reply, ⟨r', hr', hanswer⟩, hreply⟩
      cases hr.unique hr'
      refine ⟨_, ?_, (hP r reply hr hanswer).mpr hreply⟩
      rw [hrun, hanswer]
      rfl
  · constructor
    · rintro ⟨report, hreport, hreportCode⟩
      cases hrun.symm.trans hreport
      exact absurd hreportCode.symm hcode
    · rintro ⟨reply, ⟨r, hr, -⟩, -⟩
      exact absurd hr (hnone r)

/-- The exit status of a complaint tells that there is no request. -/
theorem exits_one_iff (h : dropVerbosity arguments = "invoke" :: operands) :
    Exits host read arguments 1 ↔ ∀ r, ¬Requests host read operands r := by
  rcases run_invoke_cases host read h with ⟨r, hr, hrun⟩ | ⟨hnone, complaint, hrun⟩
  · constructor
    · rintro ⟨report, hreport, hreportCode⟩
      rw [hrun] at hreport
      rcases Option.map_eq_some_iff.mp hreport with ⟨reply, -, rfl⟩
      have hcodes := code_ofReply_cases r.function reply
      omega
    · intro hnone
      exact absurd hr (hnone r)
  · exact ⟨fun _ => hnone, fun _ => ⟨_, hrun, rfl⟩⟩

/-- A run comes to no end if the function of its request does not come back. -/
theorem run_eq_none_iff (h : dropVerbosity arguments = "invoke" :: operands) :
    run host read arguments = none ↔ ∃ r, Requests host read operands r ∧ r.answer? = none := by
  rcases run_invoke_cases host read h with ⟨r, hr, hrun⟩ | ⟨hnone, complaint, hrun⟩
  · rw [hrun, Option.map_eq_none_iff]
    constructor
    · intro hanswer
      exact ⟨r, hr, hanswer⟩
    · rintro ⟨r', hr', hanswer⟩
      cases hr.unique hr'
      exact hanswer
  · rw [hrun]
    constructor
    · intro hcontra
      contradiction
    · rintro ⟨r, hr, -⟩
      exact absurd hr (hnone r)

/-! ## Printed text -/

/-- Output is printed on success only. -/
theorem output_eq_nil (hrun : run host read arguments = some report) (hcode : report.code ≠ 0) :
    report.output = [] := by
  unfold run at hrun
  split at hrun
  · cases hrun
    rfl
  · rename_i command hcommand
    cases command with
    | help =>
        cases hrun
        exact absurd rfl hcode
    | inspect path =>
        simp only [perform] at hrun
        split at hrun
        · cases hrun
          rfl
        · cases hrun
          exact absurd rfl hcode
    | invoke path function options =>
        rcases perform_invoke_cases host read path function options with
          ⟨_, _, _, _, _, _, hanswered⟩ | ⟨-, complaint, hcomplaint⟩
        · rw [hanswered] at hrun
          rcases Option.map_eq_some_iff.mp hrun with ⟨reply, -, rfl⟩
          unfold Report.ofReply at hcode ⊢
          cases houtcome : reply.outcome with
          | ok outputs => simp [houtcome] at hcode
          | error e => cases hkind : e.kind <;> simp [hkind]
        · cases hcomplaint.symm.trans hrun
          rfl

/-- A text consists of newline-terminated lines, and however it is cut into such lines,
they are the byte strings in hexadecimal digits, one each, in order. -/
structure Shows (text : String) (outputs : List Bytes) : Prop where
  exists_lines : ∃ lines, (∀ line ∈ lines, '\n' ∉ line.toList) ∧ printed lines = text
  decoded : ∀ lines, (∀ line ∈ lines, '\n' ∉ line.toList) → printed lines = text →
    lines.map Hex.decode = outputs.map Except.ok

theorem shows_printed (outputs : List Bytes) :
    Shows (printed (outputs.map Hex.encode)) outputs := by
  have hline : ∀ line ∈ outputs.map Hex.encode, '\n' ∉ line.toList := by
    intro line hmem
    rcases List.mem_map.mp hmem with ⟨bytes, -, rfl⟩
    exact Hex.newline_notMem_encode bytes
  refine ⟨⟨_, hline, rfl⟩, ?_⟩
  intro lines hlines htext
  rw [eq_of_printed_eq hlines hline htext, List.map_map]
  exact List.map_congr_left fun bytes _ => Hex.decode_encode bytes

/-! ## Verbosity -/

/-- The second list is the first one with arguments about verbosity put in anywhere. -/
inductive Louder : List String → List String → Prop
  | nil : Louder [] []
  | keep {arguments louder : List String} (argument : String) (h : Louder arguments louder) :
      Louder (argument :: arguments) (argument :: louder)
  | add {arguments louder : List String} {flag : String} (hflag : flag = "-v" ∨ flag = "-vv")
      (h : Louder arguments louder) : Louder arguments (flag :: louder)

theorem dropVerbosity_of_louder {louder : List String} (h : Louder arguments louder) :
    dropVerbosity louder = dropVerbosity arguments := by
  induction h with
  | nil => rfl
  | keep argument h ih =>
      unfold dropVerbosity at ih ⊢
      rw [List.filter_cons, List.filter_cons, ih]
  | @add arguments louder flag hflag h ih =>
      have habout : (verbosity? flag).isNone = false := by
        rcases hflag with rfl | rfl <;> rfl
      rw [← ih]
      unfold dropVerbosity
      rw [List.filter_cons, habout]
      rfl

/-- Verbosity changes nothing but the lines of the journal that are shown. -/
theorem run_of_louder {louder : List String} (h : Louder arguments louder) :
    run host read louder = run host read arguments := by
  simp only [run, commandOf, dropVerbosity_of_louder h]

/-! ## Agreement -/

/-- The command line reports how the machine answers the request of its operands. -/
structure Agrees (host : Host) (read : String → Except FileError Bytes)
    (arguments operands : List String) : Prop where
  exits_zero_iff : Exits host read arguments 0 ↔
    ∃ reply, Answers host read operands reply ∧ ∃ outputs, reply.outcome = .ok outputs
  exits_three_iff : Exits host read arguments 3 ↔
    ∃ reply, Answers host read operands reply ∧ ∃ cause, reply.outcome = .error (.fault cause)
  exits_two_iff : Exits host read arguments 2 ↔
    ∃ reply, Answers host read operands reply ∧
      ∃ reason, reply.outcome = .error (.rejected reason) ∧
        ((InvokeError.rejected reason).kind = .callerContract ∨
          (InvokeError.rejected reason).kind = .resourceExhaustion)
  exits_one_iff : Exits host read arguments 1 ↔ ∀ r, ¬Requests host read operands r
  code_le : ∀ code, Exits host read arguments code → code ≤ 3
  run_eq_none_iff : run host read arguments = none ↔
    ∃ r, Requests host read operands r ∧ r.answer? = none
  shows_outputs : ∀ report reply outputs, run host read arguments = some report →
    Answers host read operands reply → reply.outcome = .ok outputs →
      Shows (printed report.output) outputs
  quiet : ∀ report, run host read arguments = some report → report.code ≠ 0 →
    printed report.output = ""
  louder : ∀ louder, Louder arguments louder → run host read louder = run host read arguments

/-- Whatever the host, the arguments and the file, an invocation from the command line agrees with
the invocation of a fresh machine. -/
theorem run_agrees (h : dropVerbosity arguments = "invoke" :: operands) :
    Agrees host read arguments operands where
  exits_zero_iff := exits_iff h (by decide) fun _ _ _ _ => code_ofReply_eq_zero_iff
  exits_three_iff := exits_iff h (by decide) fun _ _ hr hanswer =>
    code_ofReply_eq_three_iff (hr.ne_poisoned hanswer)
  exits_two_iff := exits_iff h (by decide) fun _ _ _ _ => code_ofReply_eq_two_iff
  exits_one_iff := exits_one_iff h
  code_le := by
    rintro code ⟨report, hrun, rfl⟩
    rcases run_invoke_cases host read h with ⟨r, hr, hanswered⟩ | ⟨-, complaint, hcomplaint⟩
    · rw [hanswered] at hrun
      rcases Option.map_eq_some_iff.mp hrun with ⟨reply, -, rfl⟩
      have hcodes := code_ofReply_cases r.function reply
      omega
    · cases hcomplaint.symm.trans hrun
      exact (by decide : 1 ≤ 3)
  run_eq_none_iff := run_eq_none_iff h
  shows_outputs := by
    rintro report reply outputs hrun ⟨r, hr, hanswer⟩ houtcome
    rcases run_invoke_cases host read h with ⟨r', hr', hanswered⟩ | ⟨hnone, -⟩
    · cases hr.unique hr'
      rw [hanswered, hanswer] at hrun
      cases hrun
      have houtput : (Report.ofReply r.function reply).output = outputs.map Hex.encode := by
        simp only [Report.ofReply, houtcome]
      rw [houtput]
      exact shows_printed outputs
    · exact absurd hr (hnone r)
  quiet := by
    intro report hrun hcode
    rw [output_eq_nil hrun hcode]
    rfl
  louder _ := run_of_louder

end Runs

/-- A run that prints one output, with verbosity in front of the command and between an
option and its value, on a host that has room for small machines. -/
theorem run_agrees_relay :
    let host : Host := fun _ bytes => bytes ≤ 65536
    let read : String → Except FileError Bytes := fun _ => .ok (Container.encode relay)
    let arguments :=
      ["-v", "invoke", "relay.rbc", "0", "2a", "--memory-size", "-vv", "24"]
    let operands := ["relay.rbc", "0", "2a", "--memory-size", "24"]
    (run host read arguments).map (fun report => (report.code, printed report.output)) =
        some (0, "2a\n") ∧
      dropVerbosity arguments = "invoke" :: operands ∧ Agrees host read arguments operands ∧
      ∃ reply, Answers host read operands reply ∧ ∃ outputs, reply.outcome = .ok outputs := by
  intro host read arguments operands
  have hprints :
      (run host read arguments).map (fun report => (report.code, printed report.output)) =
        some (0, "2a\n") := by decide +kernel
  have harguments : dropVerbosity arguments = "invoke" :: operands := by decide
  have hagrees : Agrees host read arguments operands := run_agrees harguments
  refine ⟨hprints, harguments, hagrees, hagrees.exits_zero_iff.mp ?_⟩
  rcases Option.map_eq_some_iff.mp hprints with ⟨report, hrun, hreport⟩
  exact ⟨report, hrun, congrArg Prod.fst hreport⟩

end CommandLine
end FrameMachine
