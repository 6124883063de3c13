import Vitals.CommandLine.Run

/-!
# What programs come to

A program comes to a value or to an error, and leaves a console. One equation for each construct
tells which, and one for each part that the commands have in common. As long as the journal is not
set up, events leave no trace.
-/

namespace Vitals.CommandLine

namespace Program

variable {α β : Type} (surroundings : Surroundings) (console : Console)

/-- What a program comes to, and the console that it leaves. -/
def eval (program : Program α) (surroundings : Surroundings) (console : Console) :
    Except Error α × Console :=
  (ReaderT.run program surroundings).run.run console

@[simp]
theorem eval_pure (value : α) :
    (pure value : Program α).eval surroundings console = (.ok value, console) := rfl

theorem eval_bind (program : Program α) (next : α → Program β) :
    (program >>= next).eval surroundings console =
      match program.eval surroundings console with
      | (.ok value, later) => (next value).eval surroundings later
      | (.error error, later) => (.error error, later) := by
  unfold eval
  simp only [bind, ReaderT.bind, ExceptT.bind, ExceptT.mk, ExceptT.bindCont, StateT.bind,
    ReaderT.run, ExceptT.run, StateT.run]
  rcases program surroundings console with ⟨outcome, later⟩
  cases outcome <;> rfl

theorem eval_bind_of_ok {program : Program α} {next : α → Program β} {value : α}
    {later : Console} (ends : program.eval surroundings console = (.ok value, later)) :
    (program >>= next).eval surroundings console = (next value).eval surroundings later := by
  rw [eval_bind, ends]

theorem eval_bind_of_error {program : Program α} {next : α → Program β} {error : Error}
    {later : Console} (ends : program.eval surroundings console = (.error error, later)) :
    (program >>= next).eval surroundings console = (.error error, later) := by
  rw [eval_bind, ends]

@[simp]
theorem eval_throw (error : Error) :
    (throw error : Program α).eval surroundings console = (.error error, console) := rfl

@[simp]
theorem eval_read :
    (read : Program Surroundings).eval surroundings console = (.ok surroundings, console) := rfl

@[simp]
theorem eval_get : (get : Program Console).eval surroundings console = (.ok console, console) := rfl

@[simp]
theorem eval_set (next : Console) :
    (set next : Program PUnit).eval surroundings console = (.ok ⟨⟩, next) := rfl

@[simp]
theorem eval_print (texts : List String) :
    (print texts).eval surroundings console =
      (.ok (), { console with output := console.output ++ texts }) := rfl

@[simp]
theorem eval_tell (events : List Logging.Event) :
    (tell events).eval surroundings console =
      (.ok (), { console with journal := events.foldl .write console.journal }) := rfl

@[simp]
theorem eval_attempt (result : Except Error α) :
    (attempt result).eval surroundings console = (result, console) := by
  cases result <;> rfl

theorem eval_tryCatch (program : Program α) (handler : Error → Program α) :
    (tryCatch program handler).eval surroundings console =
      match program.eval surroundings console with
      | (.ok value, later) => (.ok value, later)
      | (.error error, later) => (handler error).eval surroundings later := by
  unfold eval
  simp only [tryCatch, tryCatchThe, MonadExceptOf.tryCatch, ExceptT.tryCatch, ExceptT.mk, bind,
    StateT.bind, ReaderT.run, ExceptT.run, StateT.run]
  rcases program surroundings console with ⟨outcome, later⟩
  cases outcome <;> rfl

theorem eval_discard (program : Program α) :
    (discard program).eval surroundings console =
      ((program.eval surroundings console).1.map fun _ => ⟨⟩,
        (program.eval surroundings console).2) := by
  have unfolded : discard program = program >>= fun _ => pure ⟨⟩ := rfl
  rw [unfolded, eval_bind]
  rcases program.eval surroundings console with ⟨outcome, later⟩
  cases outcome <;> rfl

/-- To report an error changes nothing but the journal. -/
theorem eval_reporting (program : Program α) :
    ∃ journal, program.reporting.eval surroundings console =
      ((program.eval surroundings console).1,
        { (program.eval surroundings console).2 with journal := journal }) := by
  rw [reporting, eval_tryCatch]
  rcases program.eval surroundings console with ⟨outcome, later⟩
  cases outcome with
  | ok value => exact ⟨later.journal, rfl⟩
  | error error =>
      simp only [eval_bind, eval_tell, eval_throw]
      exact ⟨_, rfl⟩

theorem outcome_run (program : Program α) (files : FileTree) :
    (program.run surroundings files).outcome =
        (program.eval surroundings ⟨[], .idle, files⟩).1 ∧
      (program.run surroundings files).console.output =
        (program.eval surroundings ⟨[], .idle, files⟩).2.output := by
  have unfolded : program.run surroundings files =
      ⟨(program.reporting.eval surroundings ⟨[], .idle, files⟩).1,
        (program.reporting.eval surroundings ⟨[], .idle, files⟩).2⟩ := rfl
  rcases eval_reporting surroundings ⟨[], .idle, files⟩ program with ⟨journal, reported⟩
  rw [unfolded, reported]
  exact ⟨rfl, rfl⟩

end Program

open Program

section Parts

variable (surroundings : Surroundings) (arguments : Arguments) (console : Console)

/-- The configuration in a file, or why there is none. -/
def Surroundings.loaded (surroundings : Surroundings) (files : FileTree) (path : String) :
    Except Error Config :=
  (Config.loadFile .enabled surroundings.environment files path).mapError .config

/-- The configuration that a run uses, or why there is none. -/
def Arguments.configured (arguments : Arguments) (surroundings : Surroundings)
    (files : FileTree) : Except Error Config :=
  let path := arguments.configPath surroundings.environment files
  if arguments.config.isNone && !files.has path then .ok .default
  else surroundings.loaded files path

/-- The files of a run when its journal is set up, or why it cannot be. -/
def Arguments.journaled (arguments : Arguments) (global : Option Config.Global)
    (files : FileTree) : Except Error FileTree := do
  let settings ← arguments.settings global
  (Logging.Journal.createFile settings files).mapError fun error =>
    .other ("创建日志文件失败: " ++ error.message)

/-- A configuration alone tells of a file for the journal. -/
theorem eq_of_journaled_none {files created : FileTree}
    (journaled : arguments.journaled none files = .ok created) : created = files := by
  simp only [Arguments.journaled, Arguments.settings] at journaled
  generalize Logging.Settings.ofLevelName _ _ = settings at journaled
  cases settings with
  | error reason => cases journaled
  | ok settings =>
      cases journaled
      rfl

theorem foldl_write_idle (events : List Logging.Event) :
    events.foldl Logging.Journal.write .idle = .idle := by
  induction events with
  | nil => rfl
  | cons event rest ih => exact ih

/-- To load a configuration leaves a journal alone that is not set up. -/
theorem eval_loadFrom (path : String) :
    ∃ journal, (console.journal = .idle → journal = .idle) ∧
      (loadFrom path).eval surroundings console =
        (surroundings.loaded console.files path, { console with journal := journal }) := by
  simp only [loadFrom, eval_bind, eval_read, eval_get, eval_attempt, Surroundings.loaded]
  cases (Config.loadFile .enabled surroundings.environment console.files path).mapError
    Error.config with
  | error error => exact ⟨console.journal, id, rfl⟩
  | ok config =>
      simp only [eval_tell, eval_pure]
      refine ⟨_, ?_, rfl⟩
      intro idle
      rw [idle, foldl_write_idle]

theorem eval_configuration (idle : console.journal = .idle) :
    (configuration arguments).eval surroundings console =
      (arguments.configured surroundings console.files, console) := by
  simp only [configuration, eval_bind, eval_read, eval_get, Arguments.configured]
  split
  · rfl
  · rcases eval_loadFrom surroundings console
      (arguments.configPath surroundings.environment console.files) with
      ⟨journal, unchanged, loaded⟩
    rw [loaded, unchanged idle, ← idle]

theorem eval_setUpJournal (idle : console.journal = .idle) (global : Option Config.Global) :
    ∃ journal, (setUpJournal arguments global).eval surroundings console =
      ((arguments.journaled global console.files).map fun _ => ⟨⟩,
        { console with
          journal := journal
          files := (arguments.journaled global console.files).toOption.getD console.files }) := by
  rcases console with ⟨output, journal, files⟩
  subst idle
  simp only [setUpJournal, eval_bind, eval_attempt, Arguments.journaled]
  cases arguments.settings global with
  | error error => exact ⟨.idle, rfl⟩
  | ok settings =>
      simp only [eval_get, eval_read, Logging.Journal.setUp, eval_set, bind, Except.bind]
      cases Logging.Journal.createFile settings files with
      | error error => exact ⟨_, rfl⟩
      | ok created => exact ⟨_, rfl⟩

/-- The registration of the configured probes in a run. -/
def Surroundings.enrolment (surroundings : Surroundings) (config : Config) (polling : Bool) :
    Enrolment :=
  Enrolment.ofConfig config surroundings.world polling
    (Registry.create config.global.serviceVersion surroundings.now)

theorem eval_enrol (config : Config) (polling : Bool) :
    ∃ journal, (enrol config polling).eval surroundings console =
      ((surroundings.enrolment config polling).outcome.map fun count =>
          ((surroundings.enrolment config polling).registry, count),
        { console with journal := journal }) := by
  refine ⟨(surroundings.enrolment config polling).events.foldl .write console.journal, ?_⟩
  simp only [enrol, eval_bind, eval_read, eval_tell, eval_attempt, Surroundings.enrolment]
  cases (Enrolment.ofConfig config surroundings.world polling
    (Registry.create config.global.serviceVersion surroundings.now)).outcome <;> rfl

theorem eval_waitUntil (registry : Registry) (instant : Nat) :
    ∃ journal, (waitUntil registry instant).eval surroundings console =
      (.ok (registry.advanceTo (max registry.now instant)),
        { console with journal := journal }) := by
  simp only [waitUntil, eval_bind, eval_tell, eval_pure]
  exact ⟨_, rfl⟩

/-- Whoever asks a question gets its inquiry, and time has passed until it was over. -/
theorem eval_inquire (registry : Registry) (question : Question) :
    let asked := registry.ask question
    let inquiry := registry.inquiry question
    ∃ journal, (inquire registry question).eval surroundings console =
      (.ok (asked.advanceTo (max asked.now inquiry.endsAt), inquiry),
        { console with journal := journal }) := by
  intro asked inquiry
  rcases eval_waitUntil surroundings console asked inquiry.endsAt with ⟨journal, waited⟩
  rw [inquire, eval_bind_of_ok surroundings console waited]
  simp only [eval_bind, eval_tell, eval_pure]
  exact ⟨_, rfl⟩

/-- The configuration of a run and its registry with the configured probes. What stands in the way
is the configuration, the journal or a probe. -/
def Arguments.equipped (arguments : Arguments) (surroundings : Surroundings) (files : FileTree)
    (polling : Bool) : Except Error (Config × Registry) :=
  match arguments.configured surroundings files with
  | .error error => .error error
  | .ok config =>
      match arguments.journaled (some config.global) files,
        (surroundings.enrolment config polling).outcome with
      | .error error, _ | .ok _, .error error => .error error
      | .ok _, .ok _ => .ok (config, (surroundings.enrolment config polling).registry)

end Parts

/-! ## Services -/

section Services

variable (surroundings : Surroundings) (service : Service) (console : Console)

/-- A service that has answered a request, and its answer. -/
def Service.answered (service : Service) (system : Snapshot) (request : Web.Request) :
    Service × Web.Response :=
  match Web.Plan.ofRoute service.registry (Web.Route.ofRequest service.exposeCached request) with
  | .respond response => (service, response)
  | .inquire question respond =>
      let asked := service.registry.ask question
      let inquiry := service.registry.inquiry question
      ({ service with registry := asked.advanceTo (max asked.now inquiry.endsAt) },
        respond (service.registry.report system inquiry))

theorem eval_answer (request : Web.Request) :
    ∃ journal, (service.answer request).eval surroundings console =
      (.ok (service.answered surroundings.snapshot request),
        { console with journal := journal }) := by
  simp only [Service.answer, Service.answered]
  cases Web.Plan.ofRoute service.registry
    (Web.Route.ofRequest service.exposeCached request) with
  | respond response => exact ⟨console.journal, rfl⟩
  | inquire question respond =>
      rcases eval_inquire surroundings console service.registry question with ⟨journal, inquired⟩
      rw [eval_bind_of_ok surroundings console inquired]
      simp only [eval_bind, eval_read, eval_tell, eval_pure]
      exact ⟨_, rfl⟩

theorem eval_wait (instant : Nat) :
    ∃ journal, (service.wait instant).eval surroundings console =
      (.ok { service with
          registry := service.registry.advanceTo (max service.registry.now instant) },
        { console with journal := journal }) := by
  rcases eval_waitUntil surroundings console service.registry instant with ⟨journal, waited⟩
  rw [Service.wait, eval_bind_of_ok surroundings console waited]
  exact ⟨journal, rfl⟩

/-- Requests never stop a service. -/
theorem eval_answerAll (visits : List Service.Visit) :
    ∃ answered journal, (service.answerAll visits).eval surroundings console =
      (.ok answered, { console with journal := journal }) := by
  induction visits generalizing service console with
  | nil => exact ⟨(service, []), console.journal, rfl⟩
  | cons visit later ih =>
      rcases eval_wait surroundings service console visit.instant with ⟨first, waited⟩
      rw [Service.answerAll, eval_bind_of_ok surroundings console waited]
      rcases eval_answer surroundings _ _ visit.request with ⟨second, answered⟩
      rw [eval_bind_of_ok surroundings _ answered]
      rcases ih _ _ with ⟨rest, third, others⟩
      rw [eval_bind_of_ok surroundings _ others]
      exact ⟨_, third, rfl⟩

end Services

end Vitals.CommandLine
