import Vitals.Proofs.CommandLine.Programs
import Vitals.Proofs.Registry.OnDemand
import Vitals.Proofs.Registry.Verdict

/-!
# The HTTP view of a registry

Whether a request asks for a report can be told from its method and its path. If it does, the
registry is asked a question, and the verdict of the report decides the code of the answer; a
reader finds the verdict and the names of all registrations in the body again. Any other request is
answered out of what is there, without an error of the server, and leaves no trace. Neither kind
touches what is registered, what is polled, or what is cached.
-/

namespace Vitals

namespace Status

theorem httpCode_eq_503_iff (status : Status) : status.httpCode = 503 ↔ status = .unhealthy := by
  cases status <;> decide

theorem httpCode_eq (status : Status) : status.httpCode = 200 ∨ status.httpCode = 503 := by
  cases status <;> decide

end Status

namespace Web

/-- Whether a request is to read a report. -/
def Request.ReadsReport (request : Request) : Prop :=
  (request.method = "GET" ∨ request.method = "HEAD") ∧
    (request.path = "/health" ∨ request.path = "/health/ready")

/-- The verdict in the body of an answer. -/
def Response.status? (response : Response) : Option Status :=
  response.body.bind fun body => (body.get? "status").bind Status.ofValue?

/-- The names in the body of an answer that has a list of checks. -/
def Response.checkNames? (response : Response) : Option (List String) :=
  response.body.bind fun body => (body.get? "checks").bind <|
    Value.toList? fun check => (check.get? "name").bind Value.toText?

/-- The answer of a plan, if it is known which report a question leads to. -/
def Plan.answer (plan : Plan) (reportOn : Question → Report) : Response :=
  match plan with
  | .respond response => response
  | .inquire question response => response (reportOn question)

theorem mapM_name_toValue (checks : List Result) :
    (checks.map Result.toValue).mapM (fun check => (check.get? "name").bind Value.toText?) =
      some (checks.map (·.name)) := by
  induction checks with
  | nil => rfl
  | cons check rest ih =>
      have named : (check.toValue.get? "name").bind Value.toText? = some check.name := rfl
      simp only [List.map_cons, List.mapM_cons, named, ih]
      rfl

section Reading

variable (report : Report)

theorem status?_ofReport : (Plan.ofReport true report).status? = some report.status := by
  simp [Response.status?, Plan.ofReport, Response.json, Report.toValue, Value.get?]

theorem checkNames?_ofReport :
    (Plan.ofReport true report).checkNames? = some (report.checks.map (·.name)) := by
  exact mapM_name_toValue report.checks

end Reading

section Planning

variable {registry : Registry} {exposeCached : Bool} {request : Request}

theorem path_of_ofPath? {path : String} {resource : Resource}
    (found : Resource.ofPath? exposeCached path = some resource) : path = resource.path := by
  unfold Resource.ofPath? at found
  split at found
  · next same => cases found; exact same
  · split at found
    · next same => cases found; exact same
    · split at found
      · next same => cases found; exact same
      · split at found
        · next same => cases found; exact same.1
        · cases found

/-- A resource is read at its path, by one of two methods. -/
theorem of_read {resource : Resource} {withBody : Bool}
    (read : Route.ofRequest exposeCached request = .read resource withBody) :
    request.path = resource.path ∧ (request.method = "GET" ∨ request.method = "HEAD") := by
  unfold Route.ofRequest at read
  split at read
  · cases read
  · cases found : Resource.ofPath? exposeCached request.path with
    | none =>
        rw [found] at read
        cases read
    | some known =>
        rw [found] at read
        simp only at read
        split at read
        · next get =>
            cases read
            exact ⟨path_of_ofPath? found, Or.inl get⟩
        · split at read
          · next head =>
              cases read
              exact ⟨path_of_ofPath? found, Or.inr head⟩
          · cases read

variable (registry exposeCached)

/-- A request that reads a report has the registry asked for everything. -/
theorem plan_of_readsReport (reads : request.ReadsReport) :
    Plan.ofRoute registry (Route.ofRequest exposeCached request) =
      .inquire .all (Plan.ofReport (request.method == "GET")) := by
  rcases reads with ⟨get | head, health | ready⟩
  · simp [Route.ofRequest, Resource.ofPath?, get, health, Plan.ofRoute]
  · simp [Route.ofRequest, Resource.ofPath?, get, ready, Plan.ofRoute]
  · simp [Route.ofRequest, Resource.ofPath?, head, health, Plan.ofRoute]
  · simp [Route.ofRequest, Resource.ofPath?, head, ready, Plan.ofRoute]

/-- Any other request is answered at once, and not with an error of the server. -/
theorem plan_of_not_readsReport (other : ¬request.ReadsReport) :
    ∃ response, Plan.ofRoute registry (Route.ofRequest exposeCached request) =
      .respond response ∧ response.code < 500 := by
  cases route : Route.ofRequest exposeCached request with
  | preflight resource => exact ⟨_, rfl, by simp⟩
  | refused => exact ⟨_, rfl, by decide⟩
  | missing => exact ⟨_, rfl, by decide⟩
  | read resource withBody =>
      rcases of_read route with ⟨path, method⟩
      cases resource with
      | health => exact absurd ⟨method, Or.inl path⟩ other
      | ready => exact absurd ⟨method, Or.inr path⟩ other
      | live => exact ⟨_, rfl, by simp [Response.json]⟩
      | cached => exact ⟨_, rfl, by simp [Response.json]⟩

/-- The sign of life is there to be read at any time. -/
theorem plan_of_live (get : request.method = "GET") (live : request.path = "/health/live") :
    Plan.ofRoute registry (Route.ofRequest exposeCached request) =
      .respond (.json 200 true registry.liveness.toValue) := by
  simp [Route.ofRequest, Resource.ofPath?, get, live, Plan.ofRoute]

end Planning

end Web

namespace Registry

open Web

/-- What is registered, what is polled and what is cached is still the same. -/
structure Untouched (registry later : Registry) : Prop where
  registrations : later.registrations = registry.registrations
  destroyed : later.destroyed = registry.destroyed
  timers : later.scheduler.timers = registry.scheduler.timers
  latest : later.scheduler.latest = registry.scheduler.latest
  now : later.now = registry.now

/-- What is to be read in the answer to a request, if there is a report to be had. -/
structure Answers (registry : Registry) (report : Report) (request : Request)
    (response : Response) : Prop where
  unavailable : response.code = 503 ↔ request.ReadsReport ∧ report.status = .unhealthy
  noOtherError : response.code < 500 ∨ response.code = 503
  /-- The verdict in the body is the one that the code stands for. -/
  body : request.ReadsReport → request.method = "GET" →
    (response.code = 200 ∨ response.code = 503) ∧ response.code = report.status.httpCode ∧
      response.status? = some report.status ∧ response.checkNames? = some registry.names
  alive : request.method = "GET" → request.path = "/health/live" →
    response.code = 200 ∧ response.status? = some .healthy

theorem checks_report {registry later : Registry} (system : Snapshot) :
    (later.report system (registry.inquiry .all)).checks.map (·.name) = registry.names := by
  have checks : (later.report system (registry.inquiry .all)).checks =
      registry.registrations.map fun registration =>
        (registry.executionOf registration).result := results_inquiry
  rw [checks, List.map_map, names]
  apply List.map_congr_left
  intro registration _
  exact Execution.name_result _

section Requests

variable (registry : Registry) (exposeCached : Bool) (request : Request)

/-- The registry when it has done what a request starts. -/
def requested : Registry := registry.run ((Demand.http exposeCached request).actions registry)

/-- The answer to a request, sent when a later registry has reported. -/
def response (later : Registry) (system : Snapshot) : Response :=
  (Plan.ofRoute registry (Route.ofRequest exposeCached request)).answer fun question =>
    later.report system (registry.inquiry question)

variable {request}

theorem requested_of_readsReport (reads : request.ReadsReport) :
    registry.requested exposeCached request = registry.ask .all := by
  simp only [requested, Demand.actions, plan_of_readsReport registry exposeCached reads]
  rfl

theorem requested_of_not_readsReport (other : ¬request.ReadsReport) :
    registry.requested exposeCached request = registry := by
  rcases plan_of_not_readsReport registry exposeCached other with ⟨response, plan, -⟩
  simp only [requested, Demand.actions, plan]
  rfl

theorem response_of_readsReport (reads : request.ReadsReport) (later : Registry)
    (system : Snapshot) :
    registry.response exposeCached request later system =
      Plan.ofReport (request.method == "GET") (later.report system (registry.inquiry .all)) := by
  simp only [response, plan_of_readsReport registry exposeCached reads, Plan.answer]

/-- No request touches more than the record of executions, nor does giving one up. -/
theorem untouched_requested : registry.Untouched (registry.requested exposeCached request) := by
  by_cases reads : request.ReadsReport
  · rw [requested_of_readsReport registry exposeCached reads]
    exact ⟨rfl, rfl, rfl, rfl, rfl⟩
  · rw [requested_of_not_readsReport registry exposeCached reads]
    exact ⟨rfl, rfl, rfl, rfl, rfl⟩

theorem Untouched.abandon {later : Registry} (untouched : registry.Untouched later)
    (ticket : Nat) : registry.Untouched (later.abandon ticket) :=
  ⟨untouched.registrations, untouched.destroyed, untouched.timers, untouched.latest,
    untouched.now⟩

theorem answers_of_readsReport (reads : request.ReadsReport) (later : Registry)
    (system : Snapshot) :
    registry.Answers (later.report system (registry.inquiry .all)) request
      (registry.response exposeCached request later system) := by
  have answer := registry.response_of_readsReport exposeCached reads later system
  have code : (registry.response exposeCached request later system).code =
      (later.report system (registry.inquiry .all)).status.httpCode := by
    rw [answer]
    rfl
  constructor
  · rw [code, Status.httpCode_eq_503_iff]
    exact (and_iff_right reads).symm
  · rw [code]
    rcases Status.httpCode_eq _ with available | unavailable
    · exact Or.inl (by rw [available]; decide)
    · exact Or.inr unavailable
  · intro _ get
    have withBody : (request.method == "GET") = true := by rw [get, beq_self_eq_true]
    rw [answer, withBody]
    exact ⟨Status.httpCode_eq _, rfl, status?_ofReport _,
      (checkNames?_ofReport _).trans (congrArg some (checks_report system))⟩
  · intro _ live
    rcases reads.2 with health | ready
    · exact absurd (live.symm.trans health) (by decide)
    · exact absurd (live.symm.trans ready) (by decide)

theorem answers_of_not_readsReport (other : ¬request.ReadsReport) (later : Registry)
    (system : Snapshot) (report : Report) :
    registry.Answers report request (registry.response exposeCached request later system) := by
  rcases plan_of_not_readsReport registry exposeCached other with ⟨answer, plan, below⟩
  have code : (registry.response exposeCached request later system).code = answer.code := by
    rw [response, plan]
    rfl
  constructor
  · constructor
    · intro unavailable
      rw [← code, unavailable] at below
      exact absurd below (by decide)
    · intro unhealthy
      exact absurd unhealthy.1 other
  · rw [code]
    exact Or.inl below
  · intro reads _
    exact absurd reads other
  · intro get live
    rw [response, plan_of_live registry exposeCached get live]
    exact ⟨rfl, rfl⟩

end Requests

/-- A report tells of the registry what never changes. -/
theorem report_run (registry : Registry) (actions : List Action) (system : Snapshot)
    (inquiry : Inquiry) :
    (registry.run actions).report system inquiry = registry.report system inquiry := by
  have fixed : (registry.run actions).version = registry.version ∧
      (registry.run actions).createdAt = registry.createdAt := by
    apply run_induction (fun later => later.version = registry.version ∧
      later.createdAt = registry.createdAt) ⟨rfl, rfl⟩
    intro later action still
    cases action with
    | register options probe =>
        rw [step_register]
        split <;> exact still
    | destroy =>
        rw [step, destroy]
        split <;> exact still
    | _ => exact still
  rw [report, report, fixed.1, fixed.2]

/-- A run with a request in it has the background of the run without. -/
theorem sameBackground_of_requested (version : String) (created : Nat)
    (actions during : List Action) (exposeCached : Bool) (request : Request)
    (steady : ∀ options probe, .register options probe ∈ actions ++ during →
      Probe.IsSteady probe) :
    let registry := (create version created).run actions
    ((registry.requested exposeCached request).run during).SameBackground
      (registry.run during) := by
  intro registry
  let demand := Demand.http exposeCached request
  have sameBackground : background (actions ++ demand.actions registry ++ during) =
      background (actions ++ during) := by
    simp only [background, List.filter_append, filter_actions, List.append_nil]
  have steadyWith : ∀ options probe,
      .register options probe ∈ actions ++ demand.actions registry ++ during →
        Probe.IsSteady probe := by
    intro options probe registered
    rcases List.mem_append.mp registered with early | late
    · rcases List.mem_append.mp early with known | demanded
      · exact steady options probe (List.mem_append_left _ known)
      · cases isOnDemand_of_mem_actions demanded
    · exact steady options probe (List.mem_append_right _ late)
  have withRequest := sameBackground_of_run version created _ steadyWith
  have without := sameBackground_of_run version created _ steady
  rw [sameBackground, run_append, run_append] at withRequest
  rw [run_append] at without
  exact withRequest.trans without.symm

/-- A service sends the answer that its registry has for a request. -/
theorem answered_eq (registry : Registry) (address : Address) (exposeCached : Bool)
    (request : Request) (during : List Action) (system : Snapshot) :
    ((⟨registry, address, exposeCached⟩ : CommandLine.Service).answered system request).2 =
      registry.response exposeCached request
        ((registry.requested exposeCached request).run during) system := by
  simp only [requested, CommandLine.Service.answered, response, report_run]
  cases Plan.ofRoute registry (Route.ofRequest exposeCached request) with
  | respond answer => rfl
  | inquire question answer => rfl

/-- What a request gets and what it does, after every run and whatever happens until it is answered.
The answer says what a report of that instant says, and there is no other error of the server: the
service is unhealthy exactly if a critical registration is, and no name is listed twice. Nobody but
the one who gives it up disturbs the inquiry. Only the reports start calls, and no request touches
what is registered, polled or cached, neither at once nor, as long as the probes are steady, at any
later time. A service that runs sends this answer. -/
theorem response_to_request (version : String) (created : Nat) (actions during : List Action)
    (system : Snapshot) (exposeCached : Bool) (request : Request) :
    let registry := (create version created).run actions
    let asked := registry.requested exposeCached request
    let later := asked.run during
    let inquiry := registry.inquiry .all
    let report := later.report system inquiry
    let response := registry.response exposeCached request later system
    registry.Answers report request response ∧ registry.names.Nodup ∧
    (report.status = .unhealthy ↔ ∃ registration ∈ registry.registrations,
      registration.options.critical = true ∧ registry.verdictOf registration = .unhealthy) ∧
    (¬request.ReadsReport → asked = registry) ∧
    (request.ReadsReport →
      asked.scheduler.ledger.runs = registry.scheduler.ledger.runs ++ inquiry.runs ∧
      (.abandon inquiry.ticket ∉ during → later.Undisturbed inquiry)) ∧
    registry.Untouched asked ∧ (∀ ticket, registry.Untouched (asked.abandon ticket)) ∧
    ((∀ options probe, .register options probe ∈ actions ++ during → Probe.IsSteady probe) →
      later.SameBackground (registry.run during)) ∧
    ∀ surroundings address console, surroundings.snapshot = system →
      ∃ service journal,
        ((⟨registry, address, exposeCached⟩ : CommandLine.Service).answer request).eval
            surroundings console =
          (.ok (service, response), { console with journal := journal }) := by
  intro registry asked later inquiry report response
  have coherent : registry.Coherent := coherent_run version created actions
  have ticketed : registry.Ticketed := ticketed_run version created actions
  refine ⟨?_, coherent.names_nodup, status_eq_unhealthy coherent.names_nodup,
    requested_of_not_readsReport registry exposeCached, ?_,
    untouched_requested registry exposeCached,
    fun ticket => (untouched_requested registry exposeCached).abandon registry ticket,
    sameBackground_of_requested version created actions during exposeCached request, ?_⟩
  · by_cases reads : request.ReadsReport
    · exact registry.answers_of_readsReport exposeCached reads later system
    · exact registry.answers_of_not_readsReport exposeCached reads later system report
  · intro reads
    have asked_eq : asked = registry.ask .all :=
      requested_of_readsReport registry exposeCached reads
    refine ⟨?_, ?_⟩
    · rw [asked_eq]
      rfl
    · intro kept
      have undisturbed := (Undisturbed.ask ticketed .all).run kept
      rw [← asked_eq] at undisturbed
      exact undisturbed
  · rintro surroundings address console rfl
    let service : CommandLine.Service := ⟨registry, address, exposeCached⟩
    have sent : (service.answered surroundings.snapshot request).2 = response :=
      answered_eq registry address exposeCached request during surroundings.snapshot
    rcases CommandLine.eval_answer surroundings service console request with ⟨journal, answered⟩
    refine ⟨(service.answered surroundings.snapshot request).1, journal, ?_⟩
    rw [← sent]
    exact answered

/-- The probe hangs in the middle of a tick, and the request has a query behind its path. -/
theorem response_to_request_of_hanging_probe :
    let probe : Probe := fun _ => .hangs
    let actions : List Action := [.register ⟨"db", 5, true, some 10⟩ probe, .advance 12]
    let during : List Action := [.unregister "db", .advance 5]
    let registry := (create "1.0.0" 0).run actions
    let request : Request := ⟨"GET", "/health/ready?verbose=1"⟩
    let later := (registry.requested true request).run during
    let response := registry.response true request later default
    registry.scheduler.timers.any (·.running.isSome) = true ∧ request.ReadsReport ∧
      response.code = 503 ∧ response.status? = some .unhealthy ∧
      response.checkNames? = some ["db"] ∧ later.Undisturbed (registry.inquiry .all) ∧
      later.SameBackground (registry.run during) := by
  intro probe actions during registry request later response
  have reads : request.ReadsReport := ⟨Or.inl rfl, Or.inr (by decide +kernel)⟩
  have steady : ∀ options other, .register options other ∈ actions ++ during →
      Probe.IsSteady other := by
    intro options other registered
    have known : options = ⟨"db", 5, true, some 10⟩ ∧ other = probe := by
      simpa [actions, during] using registered
    rw [known.2]
    exact fun _ => rfl
  rcases response_to_request "1.0.0" 0 actions during default true request with
    ⟨answers, -, verdict, -, asked, -, -, background, -⟩
  have registrations : registry.registrations = [⟨0, ⟨"db", 5, true, some 10⟩, probe⟩] := rfl
  have registration_mem : ⟨0, ⟨"db", 5, true, some 10⟩, probe⟩ ∈ registry.registrations := by
    simp [registrations]
  have unhealthy := verdict.mpr ⟨_, registration_mem, rfl, rfl⟩
  rcases answers.body reads rfl with ⟨-, -, status, checkNames⟩
  have status_eq : response.status? = some .unhealthy := status.trans (congrArg some unhealthy)
  have unavailable := answers.unavailable.mpr ⟨reads, unhealthy⟩
  exact ⟨by decide +kernel, reads, unavailable, status_eq, checkNames,
    (asked reads).2 (by simp [during]), background steady⟩

end Registry

end Vitals
