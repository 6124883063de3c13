import Vitals.Data.Attempt
import Vitals.Proofs.CommandLine.ExitCodes
import Vitals.Proofs.Config.Enrolment
import Vitals.Proofs.Web.Addresses

/-!
# Binding what is configured

Two parts of the program look at the section on serving. The validation asks for a port and for
some text to bind; whoever listens asks for the text of a host. Both report a fault of the
configuration, but they do not ask for the same: names, IPv6 addresses without brackets and texts
with blanks around them are accepted by the one and refused by the other.

In everything else they agree. A run that serves a file loads it like a run that validates it, and
all probes of a configuration that was accepted are registered. So of a file that was accepted only
the journal and the address are left to fail, and a fault of the configuration is met exactly if
what it binds is not the text of a host.
-/

namespace Vitals

open Attempt

namespace Config

/-! ## Sections on serving -/

namespace Web

/-- What a section on serving binds is the text of a host. -/
def NamesHost (web : Web) : Prop :=
  ∃ host, Vitals.Web.Host.Denotes web.bindAddress.toList host

variable {web : Web}

theorem address_of_denotes {host : Vitals.Web.Host}
    (denotes : Vitals.Web.Host.Denotes web.bindAddress.toList host) :
    web.address = .ok ⟨host, web.port.toNat⟩ := by
  have read : Vitals.Web.Address.read? web.addressText = some ⟨host, web.port.toNat⟩ :=
    (Vitals.Web.Address.read?_append_port web.port.toNat_lt).mpr ⟨denotes, rfl⟩
  simp only [address, read]

theorem namesHost_of_address {address : Vitals.Web.Address} (bound : web.address = .ok address) :
    web.NamesHost := by
  rw [Web.address] at bound
  cases read : Vitals.Web.Address.read? web.addressText with
  | none => simp [read] at bound
  | some other =>
      exact ⟨other.host, ((Vitals.Web.Address.read?_append_port web.port.toNat_lt).mp read).1⟩

theorem exists_address_iff : (∃ address, web.address = .ok address) ↔ web.NamesHost := by
  constructor
  · rintro ⟨address, bound⟩
    exact namesHost_of_address bound
  · rintro ⟨host, denotes⟩
    exact ⟨_, address_of_denotes denotes⟩

instance : Decidable web.NamesHost :=
  decidable_of_iff (web.address.toOption.isSome = true) <| by
    simp only [Option.isSome_iff_exists, toOption_eq_some_iff, exists_address_iff]

example : ∀ text ∈ ["localhost", "::1", "127.0.0.1 ", "127.0.0.1:80"],
    violation? ⟨text, 8080, true⟩ = none ∧ ¬NamesHost ⟨text, 8080, true⟩ := by decide +kernel

theorem port_ne_zero (valid : web.violation? = none) : web.port ≠ 0 := by
  intro zero
  simp [violation?, zero] at valid

end Web

/-! ## Files -/

section Loading

variable {substituting : Substituting} {environment : Environment} {files : FileTree}
  {path : String} {config valid : Config}

theorem violation?_of_validate (kept : config.validate = .ok valid) :
    valid.violation? = none := by
  unfold validate at kept
  cases violation : config.violation? with
  | some violation =>
      rw [violation] at kept
      cases kept
  | none =>
      rw [violation] at kept
      exact Except.ok.inj kept ▸ violation

/-- A file that gives a configuration is there, and the configuration keeps all rules. -/
theorem accepted_of_loadFile
    (loaded : loadFile substituting environment files path = .ok config) :
    files.has path = true ∧ config.violation? = none := by
  unfold loadFile at loaded
  cases there : files.has path with
  | false =>
      rw [there] at loaded
      cases loaded
  | true =>
      rw [there] at loaded
      rcases bind_eq_ok_iff.mp loaded with ⟨content, -, read⟩
      rcases bind_eq_ok_iff.mp read with ⟨written, -, kept⟩
      exact ⟨rfl, violation?_of_validate kept⟩

end Loading

end Config

namespace CommandLine

/-! ## Listening -/

section Listening

variable {web : Config.Web}

theorem listen_of_address (surroundings : Surroundings) {address : Web.Address}
    (bound : web.address = .ok address) :
    Service.listen surroundings web = (surroundings.listen address).mapError .io := by
  simp only [Service.listen, bound]
  rfl

theorem listen_of_reason (surroundings : Surroundings) {reason : String}
    (unbound : web.address = .error reason) :
    Service.listen surroundings web = .error (.config (.invalid reason)) := by
  simp only [Service.listen, unbound]
  rfl

/-- Whoever listens finds a section invalid exactly if it does not name a host. -/
theorem listen_eq_invalid_iff (surroundings : Surroundings) :
    (∃ reason, Service.listen surroundings web = .error (.config (.invalid reason))) ↔
      ¬web.NamesHost := by
  rw [← Config.Web.exists_address_iff]
  cases bound : web.address with
  | error reason =>
      rw [listen_of_reason surroundings bound]
      simp
  | ok address =>
      rw [listen_of_address surroundings bound]
      cases surroundings.listen address <;> simp [Except.mapError]

end Listening

/-! ## What stands in the way of a run -/

section Obstacles

variable {surroundings : Surroundings} {files created : FileTree} {arguments : Arguments}
  {config : Config} {error : Error}

theorem accepted_of_loaded {path : String} (loaded : surroundings.loaded files path = .ok config) :
    files.has path = true ∧ config.violation? = none :=
  Config.accepted_of_loadFile (mapError_eq_ok_iff.mp loaded)

/-- A run does without a file only if its arguments name none and there is none. -/
theorem configured_eq_loaded
    (there : arguments.config = none →
      files.has (arguments.configPath surroundings.environment files) = true) :
    arguments.configured surroundings files =
      surroundings.loaded files (arguments.configPath surroundings.environment files) := by
  rw [Arguments.configured, if_neg]
  cases named : arguments.config with
  | none => simp [there named]
  | some path => simp

theorem enrolment_of_accepted (surroundings : Surroundings) (polling : Bool)
    (accepted : config.violation? = none) :
    (surroundings.enrolment config polling).outcome = .ok config.probes.length := by
  have unobstructed := (Config.accepted_of_valid polling accepted).2
  exact (Config.ofProbes_of_accepted surroundings.world rfl unobstructed).2

/-- Behind a file that gives a configuration, and a journal, only the address is left to fail. -/
theorem served_of_loaded (bind : Option String) (port : Option UInt16)
    (loaded : surroundings.loaded files
      (arguments.configPath surroundings.environment files) = .ok config)
    (journaled : arguments.journaled (some config.global) files = .ok created) :
    arguments.served surroundings files bind port =
      Service.listen surroundings (Service.webSection config.web bind port) := by
  -- That the file was accepted is what rules out a failing registration.
  rcases accepted_of_loaded loaded with ⟨there, accepted⟩
  have configured : arguments.configured surroundings files = .ok config :=
    (configured_eq_loaded fun _ => there).trans loaded
  have equipped : arguments.equipped surroundings files true =
      .ok (config, (surroundings.enrolment config true).registry) := by
    simp only [Arguments.equipped, configured, journaled,
      enrolment_of_accepted surroundings true accepted]
  simp only [Arguments.served, equipped]

theorem served_of_unloaded (bind : Option String) (port : Option UInt16)
    (there : arguments.config = none →
      files.has (arguments.configPath surroundings.environment files) = true)
    (unloaded : surroundings.loaded files
      (arguments.configPath surroundings.environment files) = .error error) :
    arguments.served surroundings files bind port = .error error := by
  have unconfigured := (configured_eq_loaded there).trans unloaded
  simp only [Arguments.served, Arguments.equipped, unconfigured]

theorem mapError_other_ne {ε α : Type} (attempt : Except ε α) (wording : ε → String)
    (fault : ConfigError) :
    attempt.mapError (fun reason => Error.other (wording reason)) ≠ .error (.config fault) := by
  cases attempt <;> simp [Except.mapError]

/-- Where a journal cannot be set up, that is no fault of the configuration. -/
theorem journaled_ne_config (global : Option Config.Global) (fault : ConfigError) :
    arguments.journaled global files ≠ .error (.config fault) := by
  intro failed
  rcases bind_eq_error failed with unsettled | ⟨settings, uncreated⟩
  · rcases bind_eq_error unsettled with unknown | ⟨settings, completed⟩
    · exact mapError_other_ne _ id fault unknown
    · cases completed
  · exact mapError_other_ne _ _ fault uncreated

/-- A fault of the configuration that a run which validates meets is one of its file. -/
theorem loaded_of_validated {fault : ConfigError}
    (refused : arguments.validated surroundings files = .error (.config fault)) :
    surroundings.loaded files (arguments.configPath surroundings.environment files) =
      .error (.config fault) := by
  unfold Arguments.validated at refused
  cases journaled : arguments.journaled none files with
  | error own =>
      rw [journaled] at refused
      exact absurd (journaled.trans (congrArg Except.error (Except.error.inj refused)))
        (journaled_ne_config none fault)
  | ok created =>
      rw [journaled] at refused
      exact refused

end Obstacles

/-! ## Runs that validate and runs that serve -/

/-- A run ends because it finds its configuration invalid. -/
def Ending.FindsInvalid (ending : Ending Nat) : Prop :=
  ∃ reason, ending.outcome = .error (.config (.invalid reason))

section Runs

variable (surroundings : Surroundings) (files : FileTree) (stay : Stay) (arguments : Arguments)

theorem outcome_ofAttempt {α : Type} (attempt : Except Error α) :
    (Fate.ofAttempt attempt).outcome = attempt.map fun _ => 0 := by
  cases attempt <;> rfl

theorem outcome_serving (bind : Option String) (port : Option UInt16) :
    let serving : Arguments := { arguments with command := .serve bind port }
    ((program stay serving).run surroundings files).outcome =
      (arguments.served surroundings files bind port).map fun _ => 0 := by
  intro serving
  exact (describes_run surroundings files stay serving).outcome.trans (outcome_ofAttempt _)

theorem outcome_validating (verbose : Bool) :
    let validating : Arguments := { arguments with command := .validate verbose }
    ((program stay validating).run surroundings files).outcome =
      (arguments.validated surroundings files).map fun _ => 0 := by
  intro validating
  exact (describes_run surroundings files stay validating).outcome.trans (outcome_ofAttempt _)

end Runs

/-- A configuration that is accepted has an address exactly if what it binds is the text of a host.
The port of the address is not zero then, and whoever listens finds the section invalid exactly if
there is no address. So two runs with the same file, one that validates it and one that serves it,
agree on what is accepted exactly if it binds the text of a host: the first does not find it
invalid, and the second does exactly if it binds anything else. On what is refused they agree
always, with the same error. -/
theorem binding_of_config (config : Config) (surroundings : Surroundings) (files : FileTree)
    (stay : Stay) (arguments : Arguments) (verbose : Bool) :
    let path := arguments.configPath surroundings.environment files
    let validating :=
      (program stay { arguments with command := .validate verbose }).run surroundings files
    let serving :=
      (program stay { arguments with command := .serve none none }).run surroundings files
    (config.violation? = none →
      ((∃ address, config.web.address = .ok address) ↔ config.web.NamesHost) ∧
      (∀ address, config.web.address = .ok address → address.port ≠ 0) ∧
      ((∃ reason, Service.listen surroundings config.web = .error (.config (.invalid reason))) ↔
        ¬config.web.NamesHost)) ∧
    (∀ created, surroundings.loaded files path = .ok config →
      arguments.journaled (some config.global) files = .ok created →
        ¬validating.FindsInvalid ∧ (serving.FindsInvalid ↔ ¬config.web.NamesHost)) ∧
    ((arguments.config = none → files.has path = true) →
      ∀ fault, validating.outcome = .error (.config fault) →
        serving.outcome = .error (.config fault)) := by
  intro path validating serving
  have validated := outcome_validating surroundings files stay arguments verbose
  have served := outcome_serving surroundings files stay arguments none none
  refine ⟨?_, ?_, ?_⟩
  · intro accepted
    refine ⟨Config.Web.exists_address_iff, ?_, listen_eq_invalid_iff surroundings⟩
    intro address bound
    rcases Config.Web.namesHost_of_address bound with ⟨host, denotes⟩
    obtain rfl := Except.ok.inj (bound.symm.trans (Config.Web.address_of_denotes denotes))
    have port := Config.Web.port_ne_zero (Config.violation?_eq_none_iff.mp accepted).2.1
    exact fun zero => port (UInt16.toNat_inj.mp zero)
  · intro created loaded journaled
    refine ⟨?_, ?_⟩
    · rintro ⟨reason, invalid⟩
      have refused := loaded_of_validated (map_eq_error_iff.mp (validated.symm.trans invalid))
      cases loaded.symm.trans refused
    · rw [served_of_loaded none none loaded journaled] at served
      rw [← listen_eq_invalid_iff surroundings, Ending.FindsInvalid, served]
      exact exists_congr fun reason => map_eq_error_iff
  · intro there fault invalid
    have refused := loaded_of_validated (map_eq_error_iff.mp (validated.symm.trans invalid))
    rw [served_of_unloaded none none there refused] at served
    exact served

/-- The loopback address of IPv6 is bound where it stands between brackets. Without them, the file
that binds it is accepted by the run that validates it and refused by the run that serves it. -/
theorem binding_of_loopback :
    let bracketed : Config := ⟨.default, ⟨"[::1]", 8080, true⟩, []⟩
    let surroundings : Surroundings :=
      ⟨⟨[], "/root"⟩, ⟨.offline, Inhabited.default⟩, Inhabited.default, 0, .ok⟩
    let files : FileTree :=
      .ofList [("vitals.toml", .file "[web]\nbind_address = '::1'\n".toUTF8)]
    let stay : Stay := ⟨[], 0, .interrupt⟩
    let validating := (program stay ⟨none, none, .validate false⟩).run surroundings files
    let serving := (program stay ⟨none, none, .serve none none⟩).run surroundings files
    bracketed.violation? = none ∧
      bracketed.web.address = .ok ⟨.v6 [0, 0, 0, 0, 0, 0, 0, 1] 0, 8080⟩ ∧
      (¬∃ reason, Service.listen surroundings bracketed.web =
        .error (.config (.invalid reason))) ∧
      ¬validating.FindsInvalid ∧ serving.FindsInvalid := by
  intro bracketed surroundings files stay validating serving
  let arguments : Arguments := ⟨none, none, .serve none none⟩
  let bare : Config.Web := ⟨"::1", 8080, true⟩
  have accepted : bracketed.violation? = none := by decide +kernel
  have bound : bracketed.web.address = .ok ⟨.v6 [0, 0, 0, 0, 0, 0, 0, 1] 0, 8080⟩ := by
    decide +kernel
  have path : arguments.configPath surroundings.environment files = "vitals.toml" := by
    decide +kernel
  have sections : ((surroundings.loaded files "vitals.toml").toOption.map fun config =>
      (config.global, config.web)) = some (.default, bare) := by decide +kernel
  have journal : (arguments.journaled (some .default) files).toOption.isSome = true := by
    decide +kernel
  have nameless : ¬bare.NamesHost := by decide +kernel
  rcases Option.map_eq_some_iff.mp sections with ⟨config, given, same⟩
  rcases Prod.mk.inj same with ⟨general, web⟩
  rcases Option.isSome_iff_exists.mp journal with ⟨created, kept⟩
  have loaded := path.symm ▸ toOption_eq_some_iff.mp given
  have journaled := general.symm ▸ toOption_eq_some_iff.mp kept
  have names := (binding_of_config bracketed surroundings files stay arguments false).1 accepted
  have runs := (binding_of_config config surroundings files stay arguments false).2.1 created
    loaded journaled
  refine ⟨accepted, bound, ?_, runs.1, runs.2.mpr (web.symm ▸ nameless)⟩
  rw [names.2.2, not_not, ← names.1]
  exact ⟨_, bound⟩

/-- A configuration that is accepted need not have an address. -/
theorem not_bound_of_bare_address :
    ¬∀ config : Config, config.violation? = none → ∃ address, config.web.address = .ok address := by
  intro claim
  have accepted : Config.violation? ⟨.default, ⟨"::1", 8080, true⟩, []⟩ = none := by decide +kernel
  have nameless : ¬Config.Web.NamesHost ⟨"::1", 8080, true⟩ := by decide +kernel
  exact nameless (Config.Web.exists_address_iff.mp (claim _ accepted))

end CommandLine

end Vitals
