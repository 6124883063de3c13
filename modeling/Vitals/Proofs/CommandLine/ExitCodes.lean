import Vitals.Proofs.CommandLine.Programs

/-!
# Exit codes

Where a run ends is told here without running anything: what the words say, whether the
configuration, the journal, the probes and the address are there, and what a check finds then. The
exit code follows from it. Zero is for a run that did what it should, one for a run that met an
error, and two for a check that found the service unhealthy; but the code two is also that of a
command line that cannot be used.
-/

namespace Vitals.Status

theorem exitCode_eq_two_iff (status : Status) : status.exitCode = 2 ↔ status = .unhealthy := by
  cases status <;> decide

theorem exitCode_eq_zero_iff (status : Status) : status.exitCode = 0 ↔ status ≠ .unhealthy := by
  cases status <;> decide

theorem exitCode_ne_one (status : Status) : status.exitCode ≠ 1 := by
  cases status <;> decide

end Vitals.Status

namespace Vitals.CommandLine

open Program

/-- What a check has to tell. -/
structure Finding where
  status : Status
  /-- The texts that the check prints. -/
  texts : List String

/-- What a check finds out about one probe, or about all. -/
def Finding.ofRegistry (registry : Registry) (system : Snapshot) (format : OutputFormat) :
    Option String → Finding
  | some name =>
      let result := (registry.inquiry (.one name)).resultFor name
      ⟨result.status, resultTexts format result⟩
  | none =>
      let report := registry.report system (registry.inquiry .all)
      ⟨report.status, reportTexts format report⟩

/-- How a command ends. -/
inductive Fate where
  /-- It met an error. -/
  | failed (error : Error)
  /-- It was a check and came to its end. -/
  | reported (finding : Finding)
  /-- It was any other command and came to its end. -/
  | finished

namespace Fate

/-- The fate of a command that comes to its end unless it meets an error. -/
def ofAttempt {α : Type} : Except Error α → Fate
  | .ok _ => .finished
  | .error error => .failed error

/-- The outcome of a command with some fate. -/
def outcome : Fate → Except Error Nat
  | .failed error => .error error
  | .reported finding => .ok finding.status.exitCode
  | .finished => .ok 0

/-- What a command has come to is what its fate tells. -/
structure Describes (fate : Fate) (ending : Except Error Nat × Console) : Prop where
  outcome : ending.1 = fate.outcome
  texts : ∀ finding, fate = .reported finding → ending.2.output = finding.texts

end Fate

namespace Arguments

variable (arguments : Arguments) (surroundings : Surroundings) (files : FileTree)

/-- The address of a service in the end, or what stands in the way of the service. -/
def served (bind : Option String) (port : Option UInt16) : Except Error Web.Address :=
  match arguments.equipped surroundings files true with
  | .error error => .error error
  | .ok (config, _) => Service.listen surroundings (Service.webSection config.web bind port)

/-- The configuration of a run that only looks at it, or what is wrong with it. -/
def validated : Except Error Config :=
  match arguments.journaled none files with
  | .error error => .error error
  | .ok _ => surroundings.loaded files (arguments.configPath surroundings.environment files)

/-- How the command of a command line ends. -/
def fate : Fate :=
  match arguments.command with
  | .serve bind port => .ofAttempt (arguments.served surroundings files bind port)
  | .check format probe =>
      match arguments.equipped surroundings files false with
      | .error error => .failed error
      | .ok (_, registry) => .reported (.ofRegistry registry surroundings.snapshot format probe)
  | .validate _ => .ofAttempt (arguments.validated surroundings files)
  | .version _ => .finished

end Arguments

/-- How a run ends that is started with some words: with the fate of a command, or without one. -/
def fateOfWords (grammar : Grammar) (surroundings : Surroundings) (files : FileTree)
    (words : List String) : Except Refusal Fate :=
  (grammar surroundings.environment words).map (·.fate surroundings files)

/-- The words ask for a check that finds the service, or the probe that they name, unhealthy. -/
def FindsUnhealthy (grammar : Grammar) (surroundings : Surroundings) (files : FileTree)
    (words : List String) : Prop :=
  ∃ finding, fateOfWords grammar surroundings files words = .ok (.reported finding) ∧
    finding.status = .unhealthy

/-- The words are no command line, and do not ask for help or the version either. -/
def IsUnusable (grammar : Grammar) (environment : Environment) (words : List String) : Prop :=
  ∃ refusal, grammar environment words = .error refusal ∧ refusal ≠ .help ∧ refusal ≠ .version

/-! ## What commands come to -/

section Commands

variable (surroundings : Surroundings) (arguments : Arguments) (console : Console)

theorem eval_checkOne (registry : Registry) (format : OutputFormat) (name : String) :
    let finding := Finding.ofRegistry registry surroundings.snapshot format (some name)
    ∃ later journal, (checkOne registry format name).eval surroundings console =
      (.ok (later, finding.status),
        { console with output := console.output ++ finding.texts, journal := journal }) := by
  intro finding
  rcases eval_inquire surroundings console registry (.one name) with ⟨journal, inquired⟩
  rw [checkOne, eval_bind_of_ok surroundings console inquired]
  simp only [eval_bind, eval_tell, eval_print, eval_pure]
  exact ⟨_, _, rfl⟩

theorem eval_checkAll (registry : Registry) (format : OutputFormat) :
    let finding := Finding.ofRegistry registry surroundings.snapshot format none
    ∃ later journal, (checkAll registry format).eval surroundings console =
      (.ok (later, finding.status),
        { console with output := console.output ++ finding.texts, journal := journal }) := by
  intro finding
  rcases eval_inquire surroundings console registry .all with ⟨journal, inquired⟩
  rw [checkAll, eval_bind_of_ok surroundings console inquired]
  simp only [eval_bind, eval_read, eval_tell, eval_print, eval_pure]
  exact ⟨_, _, rfl⟩

/-- The part of a command in front of its work: the configuration, the journal and the probes. -/
theorem eval_equipped (idle : console.journal = .idle) (polling : Bool) :
    ∃ journal files count, ∀ {α : Type} (work : Config → Registry × Nat → Program α),
      (do
        let config ← configuration arguments
        setUpJournal arguments (some config.global)
        let enrolled ← enrol config polling
        work config enrolled : Program α).eval surroundings console =
      match arguments.equipped surroundings console.files polling with
      | .error error => (.error error, { console with journal := journal, files := files })
      | .ok (config, registry) =>
          (work config (registry, count)).eval surroundings
            { console with journal := journal, files := files } := by
  have configured := eval_configuration surroundings arguments console idle
  cases loaded : arguments.configured surroundings console.files with
  | error error =>
      have stopped : arguments.equipped surroundings console.files polling = .error error := by
        simp only [Arguments.equipped, loaded]
      rw [loaded] at configured
      refine ⟨console.journal, console.files, 0, fun work => ?_⟩
      rw [eval_bind_of_error surroundings console configured, stopped]
  | ok config =>
      rw [loaded] at configured
      rcases eval_setUpJournal surroundings arguments console idle (some config.global) with
        ⟨journal, journaled⟩
      cases created : arguments.journaled (some config.global) console.files with
      | error error =>
          have stopped : arguments.equipped surroundings console.files polling = .error error := by
            simp only [Arguments.equipped, loaded, created]
          rw [created] at journaled
          refine ⟨journal, console.files, 0, fun work => ?_⟩
          rw [eval_bind_of_ok surroundings console configured,
            eval_bind_of_error surroundings console journaled, stopped]
          rfl
      | ok files =>
          rw [created] at journaled
          rcases eval_enrol surroundings { console with journal := journal, files := files }
            config polling with ⟨later, enrolled⟩
          cases outcome : (surroundings.enrolment config polling).outcome with
          | error error =>
              have stopped :
                  arguments.equipped surroundings console.files polling = .error error := by
                simp only [Arguments.equipped, loaded, created, outcome]
              rw [outcome] at enrolled
              refine ⟨later, files, 0, fun work => ?_⟩
              rw [eval_bind_of_ok surroundings console configured,
                eval_bind_of_ok surroundings console journaled, stopped]
              exact eval_bind_of_error surroundings _ enrolled
          | ok count =>
              have equipped : arguments.equipped surroundings console.files polling =
                  .ok (config, (surroundings.enrolment config polling).registry) := by
                simp only [Arguments.equipped, loaded, created, outcome]
              rw [outcome] at enrolled
              refine ⟨later, files, count, fun work => ?_⟩
              rw [eval_bind_of_ok surroundings console configured,
                eval_bind_of_ok surroundings console journaled, equipped]
              exact eval_bind_of_ok surroundings _ enrolled

/-- What a check does with its result. -/
theorem eval_verdict {checked : Program (Registry × Status)} {finding : Finding}
    {later : Registry} {journal : Logging.Journal}
    (ends : checked.eval surroundings console = (.ok (later, finding.status),
      { console with output := console.output ++ finding.texts, journal := journal })) :
    ∃ journal,
      (do
        let (registry, status) ← checked
        tell registry.destroyEvents
        tell (verdictEvents status)
        return status.exitCode : Program Nat).eval surroundings console =
      (.ok finding.status.exitCode,
        { console with output := console.output ++ finding.texts, journal := journal }) := by
  rw [eval_bind_of_ok surroundings console ends]
  simp only [eval_bind, eval_tell, eval_pure]
  exact ⟨_, rfl⟩

theorem eval_check (idle : console.journal = .idle) (format : OutputFormat)
    (probe : Option String) :
    ∃ journal files, (check arguments format probe).eval surroundings console =
      match arguments.equipped surroundings console.files false with
      | .error error => (.error error, { console with journal := journal, files := files })
      | .ok (_, registry) =>
          let finding := Finding.ofRegistry registry surroundings.snapshot format probe
          (.ok finding.status.exitCode,
            ⟨console.output ++ finding.texts, journal, files⟩) := by
  rcases eval_equipped surroundings arguments console idle false with
    ⟨journal, files, count, equipped⟩
  rw [check, equipped]
  cases arguments.equipped surroundings console.files false with
  | error error => exact ⟨journal, files, rfl⟩
  | ok outcome =>
      rcases outcome with ⟨config, registry⟩
      cases probe with
      | none =>
          rcases eval_checkAll surroundings ⟨console.output, journal, files⟩ registry format with
            ⟨later, _, checked⟩
          rcases eval_verdict surroundings _ checked with ⟨last, ends⟩
          exact ⟨last, files, ends⟩
      | some name =>
          rcases eval_checkOne surroundings ⟨console.output, journal, files⟩ registry format
            name with ⟨later, _, checked⟩
          rcases eval_verdict surroundings _ checked with ⟨last, ends⟩
          exact ⟨last, files, ends⟩

theorem eval_start (idle : console.journal = .idle) (bind : Option String)
    (port : Option UInt16) :
    ∃ (service : Web.Address → Service) (journal : _) (files : _),
      (Service.start arguments bind port).eval surroundings console =
        ((arguments.served surroundings console.files bind port).map service,
          { console with journal := journal, files := files }) := by
  rcases eval_equipped surroundings arguments console idle true with
    ⟨journal, files, count, equipped⟩
  rw [Service.start, equipped]
  simp only [Arguments.served]
  cases arguments.equipped surroundings console.files true with
  | error error => exact ⟨fun address => ⟨.create "" 0, address, false⟩, journal, files, rfl⟩
  | ok outcome =>
      rcases outcome with ⟨config, registry⟩
      simp only [eval_bind, eval_tell, eval_read]
      cases Service.listen surroundings (Service.webSection config.web bind port) with
      | error error =>
          simp only [eval_bind, eval_tell, eval_throw]
          exact ⟨fun address => ⟨registry, address, false⟩, _, files, rfl⟩
      | ok address =>
          simp only [eval_bind, eval_tell, eval_pure]
          exact ⟨fun address => ⟨registry, address, config.web.exposeCached⟩, _, files, rfl⟩

theorem eval_serve (idle : console.journal = .idle) (bind : Option String)
    (port : Option UInt16) (stay : Stay) :
    ∃ (responses : List Web.Response) (journal : _) (files : _),
      (serve arguments bind port stay).eval surroundings console =
        ((arguments.served surroundings console.files bind port).map fun _ => responses,
          { console with journal := journal, files := files }) := by
  rcases eval_start surroundings arguments console idle bind port with
    ⟨service, journal, files, started⟩
  rw [serve]
  cases served : arguments.served surroundings console.files bind port with
  | error error =>
      rw [served] at started
      rw [eval_bind_of_error surroundings console started]
      exact ⟨[], journal, files, rfl⟩
  | ok address =>
      rw [served] at started
      rw [eval_bind_of_ok surroundings console started]
      rcases eval_answerAll surroundings (service address)
        ⟨console.output, journal, files⟩ stay.visits with ⟨⟨last, responses⟩, second, answered⟩
      rw [eval_bind_of_ok surroundings _ answered]
      rcases eval_wait surroundings last ⟨console.output, second, files⟩ stay.endsAt with
        ⟨third, waited⟩
      rw [eval_bind_of_ok surroundings _ waited]
      simp only [Service.stop, eval_bind, eval_tell, eval_pure]
      exact ⟨responses, _, files, rfl⟩

theorem eval_validate (idle : console.journal = .idle) (verbose : Bool) :
    ∃ texts journal, (validate arguments verbose).eval surroundings console =
      ((arguments.validated surroundings console.files).map fun _ => 0,
        { console with output := console.output ++ texts, journal := journal }) := by
  rcases eval_setUpJournal surroundings arguments console idle none with ⟨journal, journaled⟩
  rw [validate]
  simp only [Arguments.validated]
  cases created : arguments.journaled none console.files with
  | error error =>
      rw [created] at journaled
      rw [eval_bind_of_error surroundings console journaled]
      exact ⟨[], journal, by rw [List.append_nil]; rfl⟩
  | ok files =>
      obtain rfl : files = console.files := eq_of_journaled_none arguments created
      rw [created] at journaled
      rw [eval_bind_of_ok surroundings console journaled]
      simp only [eval_bind, eval_read, eval_get, eval_print, Except.toOption, Option.getD_some]
      let path := arguments.configPath surroundings.environment console.files
      rcases eval_loadFrom surroundings
        ⟨console.output ++ ["验证配置文件: " ++ path], journal, console.files⟩ path with
        ⟨last, -, loaded⟩
      rw [loaded]
      cases surroundings.loaded console.files path with
      | error error => exact ⟨_, last, rfl⟩
      | ok config =>
          simp only [eval_pure, List.append_assoc]
          exact ⟨_, last, rfl⟩

end Commands

/-! ## What a run comes to -/

section Runs

variable (grammar : Grammar) (surroundings : Surroundings) (files : FileTree) (stay : Stay)

theorem describes_ofAttempt {α : Type} (attempt : Except Error α) (console : Console) :
    (Fate.ofAttempt attempt).Describes (attempt.map fun _ => 0, console) := by
  cases attempt with
  | error error => exact ⟨rfl, fun _ reported => by cases reported⟩
  | ok value => exact ⟨rfl, fun _ reported => by cases reported⟩

/-- The fate of a command tells what its program comes to. -/
theorem describes_fate (arguments : Arguments) :
    (arguments.fate surroundings files).Describes
      ((program stay arguments).eval surroundings ⟨[], .idle, files⟩) := by
  rw [Arguments.fate, program]
  cases arguments.command with
  | serve bind port =>
      rcases eval_serve surroundings arguments ⟨[], .idle, files⟩ rfl bind port stay with
        ⟨responses, journal, later, served⟩
      have discarded :
          (do
            discard <| serve arguments bind port stay
            return 0 : Program Nat).eval surroundings ⟨[], .idle, files⟩ =
          ((arguments.served surroundings files bind port).map fun _ => 0,
            ⟨[], journal, later⟩) := by
        rw [eval_bind, eval_discard, served]
        cases arguments.served surroundings files bind port <;> rfl
      rw [discarded]
      exact describes_ofAttempt _ _
  | check format probe =>
      rcases eval_check surroundings arguments ⟨[], .idle, files⟩ rfl format probe with
        ⟨journal, later, checked⟩
      rw [checked]
      cases arguments.equipped surroundings files false with
      | error error => exact ⟨rfl, fun _ reported => by cases reported⟩
      | ok equipped => exact ⟨rfl, fun _ reported => by cases reported; rfl⟩
  | validate verbose =>
      rcases eval_validate surroundings arguments ⟨[], .idle, files⟩ rfl verbose with
        ⟨texts, journal, validated⟩
      rw [validated]
      exact describes_ofAttempt _ _
  | version format => exact ⟨rfl, fun _ reported => by cases reported⟩

theorem describes_run (arguments : Arguments) :
    let ending := (program stay arguments).run surroundings files
    (arguments.fate surroundings files).Describes (ending.outcome, ending.console) := by
  intro ending
  rcases outcome_run surroundings (program stay arguments) files with ⟨outcome, output⟩
  have describes := describes_fate surroundings files stay arguments
  exact ⟨outcome.trans describes.outcome,
    fun finding reported => output.trans (describes.texts finding reported)⟩

theorem exitCode_eq (words : List String) :
    exitCode grammar surroundings files stay words =
      match fateOfWords grammar surroundings files words with
      | .error refusal => refusal.exitCode
      | .ok fate => exitCodeOf fate.outcome := by
  rw [exitCode, fateOfWords]
  cases grammar surroundings.environment words with
  | error refusal => rfl
  | ok arguments =>
      exact congrArg exitCodeOf (describes_run surroundings files stay arguments).outcome

end Runs

/-! ## What exit codes tell -/

section Codes

variable (grammar : Grammar) (surroundings : Surroundings) (files : FileTree) (stay : Stay)
  (words : List String)

theorem exitCode_eq_two_iff :
    exitCode grammar surroundings files stay words = 2 ↔
      FindsUnhealthy grammar surroundings files words ∨
        IsUnusable grammar surroundings.environment words := by
  rw [exitCode_eq, FindsUnhealthy, IsUnusable, fateOfWords]
  cases grammar surroundings.environment words with
  | error refusal => cases refusal <;> simp [Refusal.exitCode, Except.map]
  | ok arguments =>
      simp only [Except.map, Except.ok.injEq, reduceCtorEq, false_and, exists_false, or_false]
      cases arguments.fate surroundings files with
      | failed error => simp [Fate.outcome, exitCodeOf]
      | reported finding =>
          simp [Fate.outcome, exitCodeOf, Status.exitCode_eq_two_iff]
      | finished => simp [Fate.outcome, exitCodeOf]

/-- No command line is refused that a check is carried out for. -/
theorem not_isUnusable_of_findsUnhealthy (finds : FindsUnhealthy grammar surroundings files words) :
    ¬IsUnusable grammar surroundings.environment words := by
  rcases finds with ⟨finding, fate, -⟩
  rintro ⟨refusal, refused, -⟩
  rw [fateOfWords, refused] at fate
  cases fate

theorem exitCode_eq_one_iff :
    exitCode grammar surroundings files stay words = 1 ↔
      ∃ error, fateOfWords grammar surroundings files words = .ok (.failed error) := by
  rw [exitCode_eq]
  cases fateOfWords grammar surroundings files words with
  | error refusal => cases refusal <;> simp [Refusal.exitCode]
  | ok fate =>
      cases fate with
      | failed error => simp [Fate.outcome, exitCodeOf]
      | reported finding => simp [Fate.outcome, exitCodeOf, Status.exitCode_ne_one]
      | finished => simp [Fate.outcome, exitCodeOf]

theorem exitCode_eq_zero_iff :
    exitCode grammar surroundings files stay words = 0 ↔
      fateOfWords grammar surroundings files words = .error .help ∨
      fateOfWords grammar surroundings files words = .error .version ∨
      fateOfWords grammar surroundings files words = .ok .finished ∨
      ∃ finding, fateOfWords grammar surroundings files words = .ok (.reported finding) ∧
        finding.status ≠ .unhealthy := by
  rw [exitCode_eq]
  cases fateOfWords grammar surroundings files words with
  | error refusal => cases refusal <;> simp [Refusal.exitCode]
  | ok fate =>
      cases fate with
      | failed error => simp [Fate.outcome, exitCodeOf]
      | reported finding => simp [Fate.outcome, exitCodeOf, Status.exitCode_eq_zero_iff]
      | finished => simp [Fate.outcome, exitCodeOf]

end Codes

/-- What the exit code of a run tells, however command lines are written. It is two exactly if a
check finds the service unhealthy or the command line cannot be used; so it tells an unhealthy
service exactly if the command line can be used. It is one exactly if a command meets an error, and
zero in all other cases: help, the version, a check with any other verdict, a command without one.
The fate of a command is what its run comes to, and a check that comes to its end has printed what
it found. -/
theorem exitCode_of_words (grammar : Grammar) (surroundings : Surroundings) (files : FileTree)
    (stay : Stay) (words : List String) :
    let code := exitCode grammar surroundings files stay words
    let fate := fateOfWords grammar surroundings files words
    let unusable := IsUnusable grammar surroundings.environment words
    let unhealthy := FindsUnhealthy grammar surroundings files words
    (code = 2 ↔ unhealthy ∨ unusable) ∧
    ((code = 2 ↔ unhealthy) ↔ ¬unusable) ∧
    (code = 1 ↔ ∃ error, fate = .ok (.failed error)) ∧
    (code = 0 ↔ fate = .error .help ∨ fate = .error .version ∨ fate = .ok .finished ∨
      ∃ finding, fate = .ok (.reported finding) ∧ finding.status ≠ .unhealthy) ∧
    ∀ arguments, grammar surroundings.environment words = .ok arguments →
      let ending := (program stay arguments).run surroundings files
      ∃ command, fate = .ok command ∧ ending.outcome = command.outcome ∧
        ∀ finding, command = .reported finding → ending.console.output = finding.texts := by
  intro code fate unusable unhealthy
  have two : code = 2 ↔ unhealthy ∨ unusable :=
    exitCode_eq_two_iff grammar surroundings files stay words
  refine ⟨two, ?_, exitCode_eq_one_iff grammar surroundings files stay words,
    exitCode_eq_zero_iff grammar surroundings files stay words, ?_⟩
  · constructor
    · intro tells unusableWords
      have finds := tells.mp (two.mpr (Or.inr unusableWords))
      exact not_isUnusable_of_findsUnhealthy grammar surroundings files words finds unusableWords
    · intro usable
      rw [two]
      exact or_iff_left usable
  · intro arguments read ending
    have describes := describes_run surroundings files stay arguments
    refine ⟨arguments.fate surroundings files, ?_, describes.outcome, describes.texts⟩
    simp only [fate, fateOfWords, read, Except.map]

/-- A check of a probe that nobody has configured. -/
theorem exitCode_of_absent_probe :
    let surroundings : Surroundings :=
      ⟨⟨[], "/root"⟩, ⟨.offline, Inhabited.default⟩, Inhabited.default, 0, .ok⟩
    let stay : Stay := ⟨[], 0, .interrupt⟩
    let words := ["check", "--probe", "db"]
    let arguments : Arguments := ⟨none, none, .check .text (some "db")⟩
    Arguments.ofWords surroundings.environment words = .ok arguments ∧
      FindsUnhealthy Arguments.ofWords surroundings .empty words ∧
      exitCode Arguments.ofWords surroundings .empty stay words = 2 ∧
      ((program stay arguments).run surroundings .empty).console.output =
        ["✗ db - unhealthy - 0ms - probe 'db' not found"] := by
  intro surroundings stay words arguments
  have read : Arguments.ofWords surroundings.environment words = .ok arguments := rfl
  have journaled :
      (arguments.journaled (some Config.default.global) .empty).toOption.isSome = true := by
    decide +kernel
  have equipped : arguments.equipped surroundings .empty false =
      .ok (.default, .create Config.default.global.serviceVersion 0) := by
    have configured : arguments.configured surroundings .empty = .ok .default := by
      rw [Arguments.configured, if_pos]
      decide +kernel
    cases created : arguments.journaled (some Config.default.global) .empty with
    | error error =>
        rw [created] at journaled
        cases journaled
    | ok files =>
        simp only [Arguments.equipped, configured, created]
        rfl
  have found (version : String) :
      Finding.ofRegistry (.create version 0) surroundings.snapshot .text (some "db") =
        ⟨.unhealthy, ["✗ db - unhealthy - 0ms - probe 'db' not found"]⟩ := by
    let result : Result := { Execution.notFound "db" with timestamp := .ofClock 0 }
    have absent : ((Registry.create version 0).inquiry (.one "db")).resultFor "db" = result := rfl
    have line : result.line = "✗ db - unhealthy - 0ms - probe 'db' not found" := by
      decide +kernel
    simp only [Finding.ofRegistry, resultTexts, absent, line]
    rfl
  have reported : fateOfWords Arguments.ofWords surroundings .empty words =
      .ok (.reported ⟨.unhealthy, ["✗ db - unhealthy - 0ms - probe 'db' not found"]⟩) := by
    simp only [fateOfWords, read, Except.map, Arguments.fate, arguments]
    rw [equipped]
    simp only [found]
  have finds : FindsUnhealthy Arguments.ofWords surroundings .empty words := ⟨_, reported, rfl⟩
  have told := exitCode_of_words Arguments.ofWords surroundings .empty stay words
  rcases told.2.2.2.2 arguments read with ⟨command, same, -, printed⟩
  obtain rfl := Except.ok.inj (reported.symm.trans same)
  exact ⟨read, finds, told.1.mpr (Or.inl finds), printed _ rfl⟩

/-- The code of a command line that cannot be used is the one of an unhealthy service. -/
theorem exitCode_of_unknown_format :
    ¬∀ (surroundings : Surroundings) (files : FileTree) (stay : Stay) (words : List String),
      exitCode Arguments.ofWords surroundings files stay words = 2 ↔
        FindsUnhealthy Arguments.ofWords surroundings files words := by
  intro claim
  let surroundings : Surroundings :=
    ⟨⟨[], "/root"⟩, ⟨.offline, Inhabited.default⟩, Inhabited.default, 0, .ok⟩
  have refused : Arguments.ofWords surroundings.environment ["check", "--format", "yaml"] =
      .error .impossibleValue := rfl
  have code :
      exitCode Arguments.ofWords surroundings .empty ⟨[], 0, .interrupt⟩
        ["check", "--format", "yaml"] = 2 := by
    rw [exitCode, refused]
    rfl
  rcases (claim _ _ _ _).mp code with ⟨finding, reported, -⟩
  rw [fateOfWords, refused] at reported
  cases reported

end Vitals.CommandLine
