/-
Module: Crosswire.Proofs.CommandAgreement
Purpose: The command does what the library does. A command line that asks for a run leaves behind the
  exit code and the standard output that loading the file and running it into a capturing sink predict:
  the run of the command and the captured run keep step, and a terminal that takes everything holds the
  bytes of the captured text as long as nothing is printed with a look, which is always so if looks are
  turned off. Options for the log, for statistics and for finding partners have no part in this.
Imports: Crosswire.CommandLine.Session, Crosswire.Proofs.LimitedOutput, Crosswire.Proofs.Lockstep,
  Crosswire.Proofs.StylingIndependence
Main exports: Mirrors, keptByPrints_mirrors, Machine.Reports.plain_of_disallowed,
  CommandLine.Launch.Completes, CommandLine.Completion.Matches, CommandLine.Options.PrintsPlain,
  CommandLine.completes_iff_reports, CommandLine.agreement, CommandLine.command_agrees_with_library
-/
import Crosswire.CommandLine.Session
import Crosswire.Proofs.LimitedOutput
import Crosswire.Proofs.Lockstep
import Crosswire.Proofs.StylingIndependence

namespace Crosswire

/-! ### A terminal that takes everything -/

/-- A terminal that takes everything has been sent the text that was captured, as far as that text has no
looks. -/
structure Mirrors (renderer : Renderer) (captured : Captured) (other : Renderer)
    (terminal : Terminal) : Prop where
  allowStyling : other.allowStyling = renderer.allowStyling
  capacity : terminal.capacity = none
  failing : terminal.failingFlushes = []
  accepted : captured.Plain → terminal.accepted.toList = utf8Bytes captured.text

theorem keptByPrints_mirrors : KeptByPrints Mirrors := by
  intro renderer captured other terminal mirrors value styled
  have sent := Terminal.write_eq_send (other.render value styled).1 terminal
  rw [Terminal.send_of_unlimited mirrors.capacity] at sent
  refine ⟨Captured.accepting _ _, ?_, ?_⟩
  · rw [sent, Writing.flush_ok_iff, Terminal.failingFlushes_taking, mirrors.failing]
    exact List.not_mem_nil
  · rw [sent, Writing.flush_snd]
    refine ⟨?_, mirrors.capacity, mirrors.failing, ?_⟩
    · rw [Renderer.allowStyling_render, Renderer.allowStyling_render, mirrors.allowStyling]
    · intro plain
      have before : captured.Plain := by
        intro printed member
        exact plain printed ((Captured.prefix_writeAll [_] captured).subset member)
      have unstyled := Renderer.unstyled_of_render plain.of_write
      rw [← mirrors.allowStyling] at unstyled
      rw [Terminal.toList_accepted_taking, mirrors.accepted before, Captured.utf8Bytes_write,
        Renderer.map_character_render, Renderer.render_of_plain unstyled value]

/-! ### Looks that are turned off -/

/-- Where looks are not allowed, no captured character has one. -/
theorem Machine.Reports.plain_of_disallowed {program : Program} {config : Config} {words : Words}
    (disallowed : config.allowStyling = false) {report : Report Captured}
    (reports : (Machine.create program Captured.empty config words).Reports report) :
    report.sink.Plain := by
  obtain ⟨turns, final, ends, same⟩ := reports.endsAfter
  let machine := Machine.create program Captured.empty config words
  have fresh : machine.PlainFirst := ⟨0, 0, rfl, fun _ => rfl⟩
  obtain ⟨plain, styled, looks, unstyled⟩ := Machine.plainFirst_later fresh (turns + 1)
  have allowStyling := (machine.printed_later (turns + 1)).allowStyling.trans disallowed
  rw [ends.later_eq] at looks unstyled allowStyling
  have none : styled = 0 := by
    apply unstyled
    rw [allowStyling, Bool.and_false]
  rw [none, List.replicate_zero, List.append_nil, Captured.map_snd_shapes] at looks
  rw [← same]
  intro printed member
  have look : printed.style.isSome ∈ List.replicate plain false := by
    rw [← looks]
    exact List.mem_map_of_mem member
  exact Option.isNone_iff_eq_none.1 (Option.isSome_eq_false_iff.1 (List.eq_of_mem_replicate look))

namespace CommandLine

/-! ### What a process leaves behind -/

/-- The process runs to its end and leaves this behind. -/
def Launch.Completes (launched : Launch) (timing : Timing) (completion : Completion) : Prop :=
  match launched with
  | .finished left => left = completion
  | .running session => ∃ turns, (session.advance turns).completion? timing = some completion

/-- A process agrees with a captured run: it succeeds exactly if the run halted, and a text without looks
is on its standard output. -/
structure Completion.Matches (completion : Completion) (report : Report Captured) : Prop where
  exitCode : completion.exitCode = Session.exitCode report.result
  stdout : report.sink.Plain → completion.stdout.toList = utf8Bytes report.sink.text

section Running

variable {options : Options} {filter : LogFilter} {loaded : Event} {machine : Machine Terminal}
  {timing : Timing} {completion : Completion}

/-- A process that completes has a run that returned. -/
theorem exists_endsAfter_of_completes
    (completes : (Launch.running ⟨options, filter, loaded, Run.start machine⟩).Completes timing
      completion) :
    ∃ turns result final, machine.EndsAfter turns result final ∧
      completion.exitCode = Session.exitCode result ∧ completion.stdout = final.sink.accepted := by
  obtain ⟨turns, left⟩ := completes
  unfold Session.completion? at left
  split at left
  · cases left
  · next result returned =>
    cases left
    obtain ⟨before, ends⟩ := Machine.endsAfter_of_advance
      (show (Run.start machine).advance turns = ⟨_, _, some result⟩ from
        congrArg (Run.mk _ _) returned)
    exact ⟨before, result, _, ends, rfl, rfl⟩

/-- A run that returns lets its process complete. -/
theorem exists_completes_of_endsAfter {turns : Nat} {result : RunResult} {final : Machine Terminal}
    (ends : machine.EndsAfter turns result final) :
    ∃ completion, (Launch.running ⟨options, filter, loaded, Run.start machine⟩).Completes timing
        completion ∧
      completion.exitCode = Session.exitCode result ∧ completion.stdout = final.sink.accepted := by
  obtain ⟨events, advanced⟩ := ends.advance #[machine.startedEvent]
  have returned : (Run.start machine).advance (turns + 1) = ⟨final, events, some result⟩ := advanced
  let session : Session := ⟨options, filter, loaded, ⟨final, events, some result⟩⟩
  have stands : Session.advance ⟨options, filter, loaded, Run.start machine⟩ (turns + 1) = session := by
    rw [Session.advance, returned]
  exact ⟨⟨Session.exitCode result, final.sink.accepted,
      logLines filter (session.events result) ++ session.closing timing result⟩,
    ⟨turns + 1, congrArg (Session.completion? · timing) stands⟩, rfl, rfl⟩

end Running

/-! ### The run of the command and the captured run -/

section Agreement

variable {program : Program} {options : Options} {config : Config}

/-- The machine of the command and one of the library keep step, if they have the same limit and give
looks alike. -/
theorem lockstep_create (limit : config.maxSteps = options.maxSteps)
    (styling : config.allowStyling = !options.plain) (words others : Words) :
    Machine.Lockstep Mirrors (Machine.create program Captured.empty config others)
      (Machine.create program Terminal.unlimited options.config words) := by
  have nothing : utf8Bytes Captured.empty.text = [] := utf8Bytes_eq_flatMap _
  exact ⟨rfl, limit.symm, rfl, rfl, rfl, styling.symm, rfl, rfl, fun _ => nothing.symm⟩

variable {filter : LogFilter} {loaded : Event} {words : Words} {timing : Timing}

/-- A terminal in step with a captured run holds what the process left. -/
theorem Completion.Matches.of_lockstep {completion : Completion} {result : RunResult}
    {final : Machine Captured} {after : Machine Terminal}
    (still : Machine.Lockstep Mirrors final after)
    (exitCode : completion.exitCode = Session.exitCode result)
    (stdout : completion.stdout = after.sink.accepted) :
    completion.Matches (final.report result) := by
  refine ⟨exitCode, ?_⟩
  intro plain
  rw [stdout]
  exact still.output.accepted plain

/-- What a loaded program leaves behind is what the library reports of it. -/
theorem exists_report_of_completes (config : Config) (others : Words)
    (limit : config.maxSteps = options.maxSteps)
    (styling : config.allowStyling = !options.plain) {completion : Completion}
    (completes : (Launch.running ⟨options, filter, loaded,
      Run.start (Machine.create program .unlimited options.config words)⟩).Completes timing completion) :
    ∃ report, (Machine.create program Captured.empty config others).Reports report ∧
      completion.Matches report := by
  obtain ⟨turns, result, after, ends, exitCode, stdout⟩ := exists_endsAfter_of_completes completes
  obtain ⟨final, endsToo, still⟩ :=
    (lockstep_create limit styling words others).swap.endsAfter keptByPrints_mirrors.swap ends
  exact ⟨final.report result, Machine.reports_of_endsAfter endsToo,
    .of_lockstep still.swap exitCode stdout⟩

/-- What the library reports of a loaded program, the process leaves behind. -/
theorem exists_completes_of_reports {others : Words} (limit : config.maxSteps = options.maxSteps)
    (styling : config.allowStyling = !options.plain) {report : Report Captured}
    (reports : (Machine.create program Captured.empty config others).Reports report) :
    ∃ completion, (Launch.running ⟨options, filter, loaded,
        Run.start (Machine.create program .unlimited options.config words)⟩).Completes timing
        completion ∧
      completion.Matches report := by
  obtain ⟨turns, final, ends, same⟩ := reports.endsAfter
  obtain ⟨after, endsToo, still⟩ :=
    (lockstep_create limit styling words others).endsAfter keptByPrints_mirrors ends
  obtain ⟨completion, completes, exitCode, stdout⟩ := exists_completes_of_endsAfter endsToo
  refine ⟨completion, completes, ?_⟩
  rw [← same]
  exact .of_lockstep still exitCode stdout

/-- Captured runs of one program under one limit end in the same result and the same text. -/
theorem exists_report_of_same_limit {another : Config} (others : Words)
    (limit : another.maxSteps = config.maxSteps) {report : Report Captured}
    (reports : (Machine.create program Captured.empty config words).Reports report) :
    ∃ other, (Machine.create program Captured.empty another others).Reports other ∧
      other.result = report.result ∧ other.sink.text = report.sink.text := by
  obtain ⟨turns, final, ends, same⟩ := reports.endsAfter
  have alike : Machine.Alike (Machine.create program Captured.empty config words)
      (Machine.create program Captured.empty another others) :=
    ⟨rfl, limit, rfl, rfl, rfl, rfl, rfl⟩
  obtain ⟨after, endsToo, still⟩ := alike.endsAfter ends
  refine ⟨after.report report.result, Machine.reports_of_endsAfter endsToo, rfl, ?_⟩
  rw [← same]
  exact still.text

end Agreement

/-! ### Command lines -/

/-- The run that the options ask for, under their limit and with looks unless they turn looks off, prints no
character with a look. -/
def Options.PrintsPlain (options : Options) (files : Files) (words : Words) : Prop :=
  ∀ program report, Program.loadFile files options.file = .ok program →
    (Machine.create program Captured.empty
      { maxSteps := options.maxSteps, allowStyling := !options.plain } words).Reports report →
    report.sink.Plain

/-- Options that turn looks off are such options for every program. -/
theorem Options.printsPlain_of_plain {options : Options} (off : options.plain = true) (files : Files)
    (words : Words) : options.PrintsPlain files words := by
  intro program report _ reports
  have disallowed : (!options.plain) = false := by rw [off, Bool.not_true]
  exact reports.plain_of_disallowed disallowed

theorem Session.exitCode_cases (result : RunResult) :
    (Session.exitCode result = 0 ∧ ∃ halt, result = .ok halt) ∨
      (Session.exitCode result = 1 ∧ ∃ error, result = .error error) := by
  cases result with
  | ok halt => exact .inl ⟨rfl, halt, rfl⟩
  | error error => exact .inr ⟨rfl, error, rfl⟩

section Launching

variable {arguments : List String} {options : Options} {environment : Option String} {files : Files}
  {words : Words} {timing : Timing} {program : Program} {completion : Completion}

theorem completes_iff_of_unloadable (parses : Request.parse arguments = .ok (.run options))
    {error : LoadError} (unloadable : Program.loadFile files options.file = .error error) :
    (launch arguments environment files .unlimited words).Completes timing completion ↔
      completion = ⟨1, #[], errorLines s!"Failed to load {options.file}" error.causes⟩ := by
  simp only [launch, parses, start, unloadable, Launch.Completes]
  exact eq_comm

theorem launch_of_loaded (parses : Request.parse arguments = .ok (.run options))
    (loads : Program.loadFile files options.file = .ok program) :
    launch arguments environment files .unlimited words =
      .running ⟨options, chooseFilter environment options, program.loadedEvent,
        Run.start (Machine.create program .unlimited options.config words)⟩ := by
  simp only [launch, parses, start, loads]

/-- The process comes to an end exactly if the run of the library does. -/
theorem completes_iff_reports (parses : Request.parse arguments = .ok (.run options))
    (loads : Program.loadFile files options.file = .ok program) {config : Config} {others : Words}
    (limit : config.maxSteps = options.maxSteps) :
    (∃ completion, (launch arguments environment files .unlimited words).Completes timing completion) ↔
      ∃ report, (Machine.create program Captured.empty config others).Reports report := by
  rw [launch_of_loaded parses loads]
  -- the captured run with the configuration and the words of the command stands between the two
  have same : options.config.maxSteps = config.maxSteps := limit.symm
  constructor
  · rintro ⟨completion, completes⟩
    obtain ⟨seen, sees, -⟩ := exists_report_of_completes options.config words rfl rfl completes
    obtain ⟨report, reports, -⟩ := exists_report_of_same_limit others same.symm sees
    exact ⟨report, reports⟩
  · rintro ⟨report, reports⟩
    obtain ⟨seen, sees, -⟩ := exists_report_of_same_limit words same reports
    obtain ⟨completion, completes, -⟩ := exists_completes_of_reports rfl rfl sees
    exact ⟨completion, completes⟩

/-- What the process leaves behind is what the library reports under the same limit, whatever the library
does about looks, tracing and partners. -/
theorem agreement (parses : Request.parse arguments = .ok (.run options))
    (loads : Program.loadFile files options.file = .ok program) {config : Config} {others : Words}
    (limit : config.maxSteps = options.maxSteps)
    (completes : (launch arguments environment files .unlimited words).Completes timing completion)
    {report : Report Captured}
    (reports : (Machine.create program Captured.empty config others).Reports report) :
    completion.exitCode = Session.exitCode report.result ∧
      (options.PrintsPlain files words →
        completion.stdout.toList = utf8Bytes report.sink.text) := by
  rw [launch_of_loaded parses loads] at completes
  obtain ⟨seen, sees, agrees⟩ := exists_report_of_completes
    { maxSteps := options.maxSteps, allowStyling := !options.plain } words rfl rfl completes
  obtain ⟨other, reportsToo, result, text⟩ := exists_report_of_same_limit others limit sees
  obtain rfl := reports.unique reportsToo
  rw [result, text]
  exact ⟨agrees.exitCode, fun plain => agrees.stdout (plain program seen loads sees)⟩

/-- Two command lines for the same file, limit and looks leave the same behind. -/
theorem agreement_of_same_run (parses : Request.parse arguments = .ok (.run options))
    {rearranged : List String} {other : Options} {elsewhere : Option String} {others : Words}
    {later : Timing} (reparses : Request.parse rearranged = .ok (.run other))
    (file : other.file = options.file) (limit : other.maxSteps = options.maxSteps)
    (styling : other.plain = options.plain) {second : Completion}
    (completes : (launch arguments environment files .unlimited words).Completes timing completion)
    (again : (launch rearranged elsewhere files .unlimited others).Completes later second) :
    second.exitCode = completion.exitCode ∧
      (options.PrintsPlain files words → second.stdout = completion.stdout) := by
  cases loads : Program.loadFile files options.file with
  | error error =>
    rw [completes_iff_of_unloadable parses loads] at completes
    rw [completes_iff_of_unloadable reparses (file ▸ loads)] at again
    rw [completes, again]
    exact ⟨rfl, fun _ => rfl⟩
  | ok program =>
    rw [launch_of_loaded parses loads] at completes
    rw [launch_of_loaded reparses (file ▸ loads)] at again
    -- one captured run answers for both processes
    obtain ⟨report, reports, agrees⟩ := exists_report_of_completes
      { maxSteps := options.maxSteps, allowStyling := !options.plain } words rfl rfl completes
    obtain ⟨same, reportsToo, agreesToo⟩ := exists_report_of_completes
      { maxSteps := options.maxSteps, allowStyling := !options.plain } words limit.symm
      (congrArg (! ·) styling.symm) again
    obtain rfl := reports.unique reportsToo
    refine ⟨agreesToo.exitCode.trans agrees.exitCode.symm, ?_⟩
    intro plain
    have unstyled := plain program report loads reports
    exact Array.toList_inj.1 ((agreesToo.stdout unstyled).trans (agrees.stdout unstyled).symm)

end Launching

/-- A process that is asked for a run does what the library does.

If the program in the file cannot be loaded, it ends with exit code 1 and an empty standard output. If it
can, the process ends exactly if a captured run of the program under the same limit returns, whatever that
run does about looks, tracing and partners and whatever words it draws. The exit code is 0 if the run
halted and 1 if it failed. The standard output is the text that was captured, if looks are turned off or
none comes up in a captured run under the same limit and with looks as the options ask for. So command
lines for the same file, limit and looks end alike. -/
theorem command_agrees_with_library {arguments : List String} {options : Options}
    (parses : Request.parse arguments = .ok (.run options)) (environment : Option String)
    (files : Files) (words : Words) (timing : Timing) :
    let launched := launch arguments environment files .unlimited words
    (∀ error, Program.loadFile files options.file = .error error →
      ∃ stderr, ∀ completion, launched.Completes timing completion ↔
        completion = ⟨1, #[], stderr⟩) ∧
    (∀ program config others, Program.loadFile files options.file = .ok program →
      config.maxSteps = options.maxSteps →
      let library := Machine.create program Captured.empty config others
      ((∃ completion, launched.Completes timing completion) ↔ ∃ report, library.Reports report) ∧
      ∀ completion report, launched.Completes timing completion → library.Reports report →
        ((completion.exitCode = 0 ∧ ∃ halt, report.result = .ok halt) ∨
          (completion.exitCode = 1 ∧ ∃ error, report.result = .error error)) ∧
        (options.plain = true → completion.stdout.toList = utf8Bytes report.sink.text) ∧
        (options.PrintsPlain files words →
          completion.stdout.toList = utf8Bytes report.sink.text)) ∧
    ∀ rearranged other elsewhere others later,
      Request.parse rearranged = .ok (.run other) → other.file = options.file →
      other.maxSteps = options.maxSteps → other.plain = options.plain →
      let relaunched := launch rearranged elsewhere files .unlimited others
      ((∃ completion, launched.Completes timing completion) ↔
        ∃ completion, relaunched.Completes later completion) ∧
      ∀ first second, launched.Completes timing first → relaunched.Completes later second →
        second.exitCode = first.exitCode ∧
        (options.PrintsPlain files words → second.stdout = first.stdout) := by
  intro launched
  refine ⟨?_, ?_, ?_⟩
  · intro error unloadable
    exact ⟨_, fun completion => completes_iff_of_unloadable parses unloadable⟩
  · intro program config others loads limit library
    refine ⟨completes_iff_reports parses loads limit, ?_⟩
    intro completion report completes reports
    obtain ⟨exitCode, stdout⟩ := agreement parses loads limit completes reports
    rw [exitCode]
    exact ⟨Session.exitCode_cases report.result,
      fun off => stdout (Options.printsPlain_of_plain off files words), stdout⟩
  · intro rearranged other elsewhere others later reparses file limit styling relaunched
    refine ⟨?_, fun first second => agreement_of_same_run parses reparses file limit styling⟩
    cases loads : Program.loadFile files options.file with
    | error error =>
      constructor
      · rintro -
        exact ⟨_, (completes_iff_of_unloadable reparses (file ▸ loads)).2 rfl⟩
      · rintro -
        exact ⟨_, (completes_iff_of_unloadable parses loads).2 rfl⟩
    | ok program =>
      have first : (∃ completion, launched.Completes timing completion) ↔
          ∃ report, (Machine.create program Captured.empty options.config words).Reports report :=
        completes_iff_reports parses loads rfl
      have second : (∃ completion, relaunched.Completes later completion) ↔
          ∃ report, (Machine.create program Captured.empty options.config words).Reports report :=
        completes_iff_reports reparses (file ▸ loads) limit.symm
      exact first.trans second.symm

/-- A program that asks for looks and prints before it fails: with looks turned off, the exit code is 1 and
the bytes of the text are on standard output, whether or not every option for the log, for statistics and
for finding partners is set. -/
theorem command_agrees_with_library_faulting :
    ∃ first second,
      (launch ["-vv", "--trace", "--cache-jumps", "--plain", "--stats", "prog.vg"] none
        (fun _ => .ok "*-!+".toUTF8) .unlimited (.cyclic [])).Completes (.ofNanoseconds 2 1000)
        first ∧
      first.exitCode = 1 ∧ first.stdout.toList = [0xef, 0xbf, 0xbf] ∧
      (launch ["--plain", "prog.vg"] none (fun _ => .ok "*-!+".toUTF8) .unlimited
        (.cyclic [])).Completes (.ofNanoseconds 2 1000) second ∧
      second.exitCode = first.exitCode ∧ second.stdout = first.stdout := by
  let program : Program := ⟨[.discourage, .decrement, .print, .add], rfl⟩
  let options : Options := ⟨"prog.vg", none, true, true, true, true, 2⟩
  let config : Config := { maxSteps := options.maxSteps, allowStyling := !options.plain }
  let fault : RunError := .faulted (.stackUnderflow 3 .inner)
  let machine := Machine.create program Captured.empty config (.cyclic [])
  obtain ⟨-, agrees, again⟩ := command_agrees_with_library
    (show Request.parse ["-vv", "--trace", "--cache-jumps", "--plain", "--stats", "prog.vg"] =
      .ok (.run options) from rfl) none (fun _ => .ok "*-!+".toUTF8) (.cyclic [])
    (.ofNanoseconds 2 1000)
  obtain ⟨ends, alike⟩ := agrees program config (.cyclic []) rfl rfl
  have returns : Run.Returns machine (.error fault) _ _ := ⟨5, rfl⟩
  have reports : machine.Reports (Machine.report _ (.error fault)) := ⟨_, _, returns, rfl⟩
  obtain ⟨first, completes⟩ := ends.2 ⟨_, reports⟩
  obtain ⟨exitCode, stdout, -⟩ := alike first _ completes reports
  obtain ⟨endsToo, same⟩ := again ["--plain", "prog.vg"]
    ⟨"prog.vg", none, false, false, true, false, 0⟩ none (.cyclic []) (.ofNanoseconds 2 1000)
    rfl rfl rfl rfl
  obtain ⟨second, completesToo⟩ := endsToo.1 ⟨first, completes⟩
  obtain ⟨sameCode, sameOutput⟩ := same first second completes completesToo
  refine ⟨first, second, completes, ?_, ?_, completesToo, sameCode, ?_⟩
  · rcases exitCode with ⟨-, halt, halted⟩ | ⟨failed, -⟩
    · cases halted
    · exact failed
  · rw [stdout rfl, utf8Bytes_eq_flatMap]
    decide
  · apply sameOutput
    intro loaded report loads reportsToo
    cases loads
    rw [← reports.unique reportsToo]
    unfold Captured.Plain
    decide

end CommandLine

end Crosswire
