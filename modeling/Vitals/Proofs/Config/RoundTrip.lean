import Vitals.Config.Loading
import Vitals.Proofs.Data.Documents
import Vitals.Proofs.Data.Reordering

/-!
# Configurations through documents

A configuration is written section by section and read section by section. Both sides are told
apart by field names, so each section is read back on its own, and the sections are then put
together: a field that is absent has no entry, a field that is present has one even where it says
what would be the default, and the settings of a kind share no name with those of all probes.
-/

namespace Vitals.Config

open Value (Reads)

variable {depth : ℕ} (format : Format)

/-! ## What is read back -/

theorem reads_uint64 (number : UInt64) :
    Reads depth Value.toUInt64? (.ofNat number.toNat) number := by
  have reads : Reads depth Value.toUInt64? (.ofNat number.toNat) number.toNat.toUInt64 :=
    (Value.reads_nat number.toNat_lt).map Nat.toUInt64
  rwa [show number.toNat.toUInt64 = number from UInt64.ofNat_toNat] at reads

theorem reads_uint16 (number : UInt16) :
    Reads depth Value.toUInt16? (.ofNat number.toNat) number := by
  have reads : Reads depth Value.toUInt16? (.ofNat number.toNat) number.toNat.toUInt16 :=
    (Value.reads_nat number.toNat_lt).map Nat.toUInt16
  rwa [show number.toNat.toUInt16 = number from UInt16.ofNat_toNat] at reads

theorem Global.reads (global : Global) : Reads depth (ofValue? format) global.toValue global := by
  intro tree same
  obtain ⟨record, found, holds, -⟩ := Record.exists_ofValue? format.surplus
    ["version", "log_level", "json_logs", "log_file", "default_timeout_ms"] same
    (by cases global.version <;> cases global.logFile <;> simp [Value.entry?])
  have version : record.optional "version" Value.toText? = some global.version :=
    holds.optional (by simp) (by simp [List.lookup_cons]) (fun _ _ => Value.reads_text _) rfl
  have logLevel : record.orElse "log_level" Global.default.logLevel Value.toText? =
      some global.logLevel :=
    holds.orElse (by simp) (by simp) (Value.reads_text _) _
  have jsonLogs : record.orElse "json_logs" Global.default.jsonLogs Value.toBool? =
      some global.jsonLogs :=
    holds.orElse (by simp) (by simp [List.lookup_cons]) (Value.reads_bool _) _
  have logFile : record.optional "log_file" Value.toText? = some global.logFile :=
    holds.optional (by simp) (by simp [List.lookup_cons]) (fun _ _ => Value.reads_text _) rfl
  have timeout : record.orElse "default_timeout_ms" Global.default.defaultTimeout
      Value.toUInt64? = some global.defaultTimeout :=
    holds.orElse (by simp) (by simp [List.lookup_cons]) (reads_uint64 _) _
  simp [ofValue?, found, version, logLevel, jsonLogs, logFile, timeout]

theorem Web.reads (web : Web) : Reads depth (ofValue? format) web.toValue web := by
  intro tree same
  obtain ⟨record, found, holds, -⟩ := Record.exists_ofValue? format.surplus
    ["bind_address", "port", "expose_cached"] same (by simp)
  have bindAddress : record.orElse "bind_address" Web.default.bindAddress Value.toText? =
      some web.bindAddress :=
    holds.orElse (by simp) (by simp) (Value.reads_text _) _
  have port : record.orElse "port" Web.default.port Value.toUInt16? = some web.port :=
    holds.orElse (by simp) (by simp [List.lookup_cons]) (reads_uint16 _) _
  have exposeCached : record.orElse "expose_cached" Web.default.exposeCached Value.toBool? =
      some web.exposeCached :=
    holds.orElse (by simp) (by simp [List.lookup_cons]) (Value.reads_bool _) _
  simp [ofValue?, found, bindAddress, port, exposeCached]

section Kinds

variable {record : Record} {names : List String} {entries others : List (String × Value)}

theorem thresholdsOf?_of_holds (thresholds : Thresholds)
    (holds : record.Holds depth names entries)
    (known : "degraded_percent" ∈ names ∧ "unhealthy_percent" ∈ names)
    (degraded : entries.lookup "degraded_percent" = some (.float thresholds.degraded))
    (unhealthy : entries.lookup "unhealthy_percent" = some (.float thresholds.unhealthy)) :
    thresholdsOf? record = some thresholds := by
  have first := holds.orElse known.1 degraded (Value.reads_float _) defaultThresholds.degraded
  have second := holds.orElse known.2 unhealthy (Value.reads_float _) defaultThresholds.unhealthy
  simp [thresholdsOf?, first, second]

theorem mapM_eq_some {α β : Type} {f : α → Option β} {g : α → β} {items : List α}
    (each : ∀ item ∈ items, f item = some (g item)) : items.mapM f = some (items.map g) := by
  induction items with
  | nil => rfl
  | cons item rest ih =>
      rw [List.forall_mem_cons] at each
      simp [each.1, ih each.2]

/-- The entries of a map of texts are read back in some order. -/
theorem exists_texts {map : Named String} {tree : Value}
    (same : (Value.table (map.map fun entry => (entry.1, .text entry.2))).Reordered depth tree) :
    ∃ texts, tree.toEntries? Value.toText? = some texts ∧ texts.Perm map := by
  obtain ⟨others, rfl, matching, each, order⟩ := same.table
  have kept : matching = map.map fun entry => (entry.1, Value.text entry.2) := by
    rw [List.forall₂_map_left_iff] at each
    rw [← List.forall₂_eq_eq_eq, List.forall₂_map_right_iff]
    exact each.flip.imp fun other entry both => Prod.ext both.1.symm (Value.Reordered.text both.2)
  subst kept
  let textOf (entry : String × Value) : String × String :=
    (entry.1, (Value.toText? entry.2).getD "")
  refine ⟨others.map textOf, mapM_eq_some ?_, ?_⟩
  · intro other found
    obtain ⟨entry, -, rfl⟩ := List.mem_map.mp (order.mem_iff.mpr found)
    rfl
  · refine (order.symm.map textOf).trans ?_
    simp [textOf, Function.comp_def, Value.toText?]

/-- Settings of a kind that documents can hold: headers form a map, and thresholds are numbers. -/
inductive ProbeKind.Writable : ProbeKind → Prop
  | http {check : HttpCheck} (ordered : check.headers.Pairwise fun a b => a.1 < b.1) :
      Writable (.http check)
  | memory {thresholds : Thresholds} (degraded : (Decimal.number? thresholds.degraded).isSome)
      (unhealthy : (Decimal.number? thresholds.unhealthy).isSome) : Writable (.memory thresholds)
  | disk {path : String} {thresholds : Thresholds}
      (degraded : (Decimal.number? thresholds.degraded).isSome)
      (unhealthy : (Decimal.number? thresholds.unhealthy).isSome) :
      Writable (.disk path thresholds)

theorem ProbeKind.Writable.lossless {kind : ProbeKind} (writable : kind.Writable)
    (format : Format) : ∀ entry ∈ kind.entries, entry.2.Lossless format := by
  cases writable with
  | @http check ordered =>
      simp only [entries, List.forall_mem_cons, List.not_mem_nil, false_implies, implies_true,
        and_true]
      refine ⟨.text _, .text _, .text _, .list ?_, .table ?_ ?_⟩
      · intro item found
        obtain ⟨code, -, rfl⟩ := List.mem_map.mp found
        exact .ofNat (code.toNat_lt.trans (by decide))
      · rw [List.map_map]
        exact Named.nodup_of_pairwise ordered
      · intro entry found
        obtain ⟨header, -, rfl⟩ := List.mem_map.mp found
        exact .text _
  | memory degraded unhealthy =>
      simp only [entries, thresholdEntries, List.forall_mem_cons]
      exact ⟨.text _, .float degraded, .float unhealthy, by simp⟩
  | disk degraded unhealthy =>
      simp only [entries, thresholdEntries, List.forall_mem_cons]
      exact ⟨.text _, .text _, .float degraded, .float unhealthy, by simp⟩

theorem httpOf?_of_sameKeys {check : HttpCheck}
    (ordered : check.headers.Pairwise fun a b => a.1 < b.1)
    (same : SameKeys (Value.Reordered depth) (ProbeKind.http check).entries others) :
    httpOf? others = some check := by
  obtain ⟨record, found, holds, -⟩ := Record.exists_ofEntries?
    ["url", "method", "expected_status_codes", "headers"] same (by simp [ProbeKind.entries])
  have url : record.require "url" Value.toText? = some check.url :=
    holds.require (by simp) (by simp [ProbeKind.entries, List.lookup_cons]) (Value.reads_text _)
  have method : record.orElse "method" "GET" Value.toText? = some check.method :=
    holds.orElse (by simp) (by simp [ProbeKind.entries, List.lookup_cons]) (Value.reads_text _) _
  have codes : record.orElse "expected_status_codes" [200] (Value.toList? Value.toUInt16?) =
      some check.expectedCodes := by
    have reads : Reads depth (Value.toList? Value.toUInt16?)
        (.list (check.expectedCodes.map fun code => .ofNat code.toNat))
        (check.expectedCodes.map id) := Value.reads_list fun code _ => reads_uint16 code
    rw [List.map_id] at reads
    exact holds.orElse (by simp) (by simp [ProbeKind.entries, List.lookup_cons]) reads _
  obtain ⟨tree, there, reordered⟩ := (holds "headers" (by simp)).1 _
    (by simp [ProbeKind.entries, List.lookup_cons]; rfl)
  obtain ⟨headers, read, order⟩ := exists_texts reordered
  have headers : record.orElse "headers" [] (Value.toEntries? Value.toText?) = some headers := by
    simp [Record.orElse, there, read]
  simp [httpOf?, found, url, method, codes, headers, Named.ofList_of_perm ordered order]

theorem ofEntries?_of_sameKeys {kind : ProbeKind} (writable : kind.Writable)
    (same : SameKeys (Value.Reordered depth) kind.entries others) :
    ProbeKind.ofEntries? format others = some kind := by
  have distinct : (kind.entries.map Prod.fst).Nodup := by
    cases kind <;> simp [ProbeKind.entries, thresholdEntries]
  obtain ⟨tag, tagged, holds, -⟩ := Record.exists_ofEntries? ["kind"] same distinct
  have label : tag.require "kind" (kindLabel? format) = some kind.label := by
    refine holds.require (by simp) List.lookup_cons_self ?_
    intro tree same
    rw [same.text, kindLabel?]
  unfold ProbeKind.ofEntries?
  cases writable with
  | http ordered => simp [tagged, label, ProbeKind.label, httpOf?_of_sameKeys ordered same]
  | @memory thresholds degraded unhealthy =>
      obtain ⟨record, found, holds, -⟩ := Record.exists_ofEntries?
        ["degraded_percent", "unhealthy_percent"] same distinct
      have read : thresholdsOf? record = some thresholds :=
        thresholdsOf?_of_holds thresholds holds (by simp) rfl rfl
      simp [tagged, label, ProbeKind.label, found, read]
  | @disk path thresholds degraded unhealthy =>
      obtain ⟨record, found, holds, -⟩ := Record.exists_ofEntries?
        ["path", "degraded_percent", "unhealthy_percent"] same distinct
      have read : thresholdsOf? record = some thresholds :=
        thresholdsOf?_of_holds thresholds holds (by simp) rfl rfl
      have there : record.orElse "path" "/" Value.toText? = some path :=
        holds.orElse (by simp) rfl (Value.reads_text path) _
      simp [tagged, label, ProbeKind.label, found, read, there]

end Kinds

/-- The entries of the settings that all probes share. -/
def Probe.sharedEntries (probe : Probe) : List (String × Value) :=
  [("name", .text probe.name), ("critical", .bool probe.critical)]
    ++ Value.entry? "timeout_ms" (probe.timeout.map fun time => .ofNat time.toNat)
    ++ Value.entry? "interval_ms" (probe.interval.map fun time => .ofNat time.toNat)

theorem Probe.toValue_eq (probe : Probe) :
    probe.toValue = .table (probe.sharedEntries ++ probe.kind.entries) := rfl

theorem Probe.sharedEntries_keys (probe : Probe) :
    (probe.sharedEntries.map Prod.fst).Sublist sharedNames := by
  unfold sharedEntries
  cases probe.timeout <;> cases probe.interval <;> simp [Value.entry?, sharedNames]

/-- No kind has a setting with the name of one that all probes share. -/
theorem ProbeKind.not_mem_sharedNames {kind : ProbeKind} {entry : String × Value}
    (own : entry ∈ kind.entries) : entry.1 ∉ Probe.sharedNames := by
  have names : entry.1 ∈ kind.entries.map Prod.fst := List.mem_map_of_mem own
  cases kind <;> simp only [entries, thresholdEntries, List.map_cons, List.map_nil] at names <;>
    revert names <;> generalize entry.1 = name <;> simp +contextual [Probe.sharedNames, or_imp]

theorem ProbeKind.lookup_eq_none (kind : ProbeKind) {name : String}
    (shared : name ∈ Probe.sharedNames) : kind.entries.lookup name = none := by
  rw [List.lookup_eq_none_iff]
  intro entry own
  rw [bne_iff_ne]
  rintro rfl
  exact not_mem_sharedNames own shared

theorem Probe.keys_nodup (probe : Probe) :
    ((probe.sharedEntries ++ probe.kind.entries).map Prod.fst).Nodup := by
  rw [List.map_append, List.nodup_append]
  refine ⟨probe.sharedEntries_keys.nodup (by simp [sharedNames]), ?_, ?_⟩
  · cases probe.kind <;> simp [ProbeKind.entries, thresholdEntries]
  · intro name shared other own
    obtain ⟨entry, found, rfl⟩ := List.mem_map.mp own
    intro same
    exact ProbeKind.not_mem_sharedNames found (same ▸ probe.sharedEntries_keys.subset shared)

/-- What is left of a probe without the shared settings are the settings of its kind. -/
theorem Probe.filter_not_shared (probe : Probe) :
    ((probe.sharedEntries ++ probe.kind.entries).filter fun entry =>
      !sharedNames.contains entry.1) = probe.kind.entries := by
  rw [List.filter_append]
  have shared : (probe.sharedEntries.filter fun entry => !sharedNames.contains entry.1) = [] := by
    rw [List.filter_eq_nil_iff]
    intro entry found
    have known := probe.sharedEntries_keys.subset (List.mem_map_of_mem found)
    simpa using known
  rw [shared, List.nil_append, List.filter_eq_self]
  intro entry own
  simpa using ProbeKind.not_mem_sharedNames own

theorem Probe.reads (probe : Probe) (writable : probe.kind.Writable) :
    Reads depth (ofValue? format) probe.toValue probe := by
  intro tree same
  rw [probe.toValue_eq] at same
  obtain ⟨others, rfl, keys⟩ := same.table
  obtain ⟨record, found, holds, -⟩ := Record.exists_ofEntries? sharedNames keys probe.keys_nodup
  have name : record.require "name" Value.toText? = some probe.name :=
    holds.require (by simp [sharedNames]) (by simp [sharedEntries]) (Value.reads_text _)
  have critical : record.orElse "critical" false Value.toBool? = some probe.critical :=
    holds.orElse (by simp [sharedNames]) (by simp [sharedEntries, List.lookup_cons])
      (Value.reads_bool _) _
  have timeout : record.optional "timeout_ms" Value.toUInt64? = some probe.timeout := by
    have foreign : probe.kind.entries.lookup "timeout_ms" = none :=
      probe.kind.lookup_eq_none (by simp [sharedNames])
    exact holds.optional (by simp [sharedNames])
      (by simp [sharedEntries, List.lookup_cons, foreign]) (fun _ _ => reads_uint64 _) rfl
  have interval : record.optional "interval_ms" Value.toUInt64? = some probe.interval := by
    have foreign : probe.kind.entries.lookup "interval_ms" = none :=
      probe.kind.lookup_eq_none (by simp [sharedNames])
    exact holds.optional (by simp [sharedNames])
      (by simp [sharedEntries, List.lookup_cons, foreign]) (fun _ _ => reads_uint64 _) rfl
  have kinds := keys.filter fun name => !sharedNames.contains name
  rw [probe.filter_not_shared] at kinds
  have readable := Value.entriesReadable_of_sameKeys kinds
    (Value.entriesReadable_iff.mpr fun entry own =>
      (writable.lossless format entry own).isReadable)
  have kind := ofEntries?_of_sameKeys format writable kinds
  simp only [ofValue?, found, name, critical, timeout, interval, readable, kind,
    Option.bind_eq_bind, Option.bind_some]
  rfl

theorem reads_config (config : Config) (writable : ∀ probe ∈ config.probes, probe.kind.Writable) :
    Reads depth (ofValue? format) config.toValue config := by
  intro tree same
  obtain ⟨record, found, holds, -⟩ := Record.exists_ofValue? format.surplus
    ["global", "web", "probes"] same (by simp)
  have global : record.orElse "global" Global.default (Global.ofValue? format) =
      some config.global :=
    holds.orElse (by simp) (by simp) (config.global.reads format) _
  have web : record.orElse "web" Web.default (Web.ofValue? format) = some config.web :=
    holds.orElse (by simp) (by simp [List.lookup_cons]) (config.web.reads format) _
  have probes : record.orElse "probes" [] (Value.toList? (Probe.ofValue? format)) =
      some config.probes := by
    have reads : Reads (depth - 1) (Value.toList? (Probe.ofValue? format))
        (.list (config.probes.map Probe.toValue)) (config.probes.map id) :=
      Value.reads_list fun probe listed => probe.reads format (writable probe listed)
    rw [List.map_id] at reads
    exact holds.orElse (by simp) (by simp [List.lookup_cons]) reads _
  simp [ofValue?, found, global, web, probes]

/-! ## What documents hold -/

theorem lossless_uint64 (number : UInt64) : (Value.ofNat number.toNat).Lossless format :=
  .ofNat number.toNat_lt

theorem Global.lossless (global : Global) : global.toValue.Lossless format := by
  refine .table ?_ ?_
  · cases global.version <;> cases global.logFile <;> simp [Value.entry?]
  · simp only [List.forall_mem_append, List.forall_mem_cons]
    exact ⟨⟨⟨Value.lossless_optional _ .text, .text _, .bool _, by simp⟩,
      Value.lossless_optional _ .text⟩, lossless_uint64 format _, by simp⟩

theorem Web.lossless (web : Web) : web.toValue.Lossless format := by
  refine .table (by simp) ?_
  simp only [List.forall_mem_cons]
  exact ⟨.text _, .ofNat (web.port.toNat_lt.trans (by decide)), .bool _, by simp⟩

theorem Probe.lossless (probe : Probe) (writable : probe.kind.Writable) :
    probe.toValue.Lossless format := by
  refine .table probe.keys_nodup ?_
  simp only [List.forall_mem_append, List.forall_mem_cons]
  exact ⟨⟨⟨⟨.text _, .bool _, by simp⟩, Value.lossless_optional _ (lossless_uint64 format)⟩,
    Value.lossless_optional _ (lossless_uint64 format)⟩, writable.lossless format⟩

theorem lossless (config : Config) (writable : ∀ probe ∈ config.probes, probe.kind.Writable) :
    config.toValue.Lossless format := by
  refine .table (by simp) ?_
  simp only [List.forall_mem_cons]
  refine ⟨config.global.lossless format, config.web.lossless format, .list ?_, by simp⟩
  intro item found
  obtain ⟨probe, listed, rfl⟩ := List.mem_map.mp found
  exact probe.lossless format (writable probe listed)

/-! ## Configurations that are the same -/

theorem ProbeKind.Writable.beq_self {kind : ProbeKind} (writable : kind.Writable) :
    (kind == kind) = true := by
  have same {number : Float} (isNumber : (Decimal.number? number).isSome) :
      (number == number) = true := by
    obtain ⟨value, known⟩ := Option.isSome_iff_exists.mp isNumber
    exact (Decimal.beq_iff_number? known known).mpr rfl
  cases writable with
  | http => simp [BEq.beq, instBEqProbeKind.beq]
  | memory degraded unhealthy =>
      change (_ && _) = true
      rw [same degraded, same unhealthy, Bool.and_self]
  | disk degraded unhealthy =>
      change (_ && (_ && _)) = true
      rw [same degraded, same unhealthy, Bool.and_self, Bool.and_true, beq_self_eq_true]

theorem Probe.beq_self {probe : Probe} (writable : probe.kind.Writable) :
    (probe == probe) = true := by
  change (_ && (_ && (_ && (_ && _)))) = true
  simp [writable.beq_self]

theorem beq_self (config : Config) (writable : ∀ probe ∈ config.probes, probe.kind.Writable) :
    (config == config) = true := by
  obtain ⟨global, web, probes⟩ := config
  have same : (probes == probes) = true := by
    induction probes with
    | nil => rfl
    | cons probe rest ih =>
        rw [List.forall_mem_cons] at writable
        rw [List.cons_beq_cons, Probe.beq_self writable.1, ih writable.2, Bool.and_self]
  change (_ && (_ && _)) = true
  simp [same]

/-- A configuration has a document in both formats. However the tables of the document are
ordered, the configuration is read back from it: every section, every probe with the kind it had,
and every setting that was present and no other. So the text of the TOML document gives the same
configuration, if it is read as the tree it was written from. -/
theorem ofValue?_of_document (config : Config)
    (writable : ∀ probe ∈ config.probes, probe.kind.Writable) :
    (∃ document, Toml.render? config.toValue = some document) ∧
    (∀ depth tree, config.toValue.Reordered depth tree →
      ofValue? .toml tree = some config) ∧
    (∀ depth tree, (Json.written config.toValue).Reordered depth tree →
      ofValue? .json tree = some config) ∧
    ∀ depth tree, (Toml.render? config.toValue).bind Toml.read? = some tree →
      config.toValue.Reordered depth tree → config.survivesWriting = true := by
  refine ⟨?_, fun depth => reads_config .toml config writable, ?_, ?_⟩
  · rw [← Option.isSome_iff_exists]
    have renders := (config.lossless .toml writable).isSome_renderInline?
    simpa [Toml.renderInline?, toValue, Toml.render?] using renders
  · intro depth
    rw [(config.lossless .json writable).written_eq]
    exact reads_config .json config writable
  · intro depth tree read same
    rw [survivesWriting, read, Option.bind_some, reads_config .toml config writable tree same]
    exact config.beq_self writable

/-- A document with its sections in reverse: one probe of each kind, settings that are absent, and
settings that are present and say what would be the default. -/
theorem ofValue?_of_reversed_document :
    let check : HttpCheck :=
      ⟨"http://db.local/", "GET", [200], [("accept", "*/*"), ("x-id", "")]⟩
    let probes : List Probe :=
      [⟨"api", true, some 5000, none, .http check⟩,
        ⟨"memory", false, none, some 100, .memory ⟨85.0, 95.0⟩⟩,
        ⟨"root", false, none, none, .disk "/" ⟨0.5, 90.25⟩⟩]
    let config : Config := ⟨{ Global.default with version := some "" }, .default, probes⟩
    let tree : Value :=
      .table
        [("probes", .list (probes.map Probe.toValue)), ("web", config.web.toValue),
          ("global", config.global.toValue)]
    config.toValue.Reordered 1 tree ∧ ofValue? .toml tree = some config ∧
      ofValue? .json tree = some config ∧
      ∃ document, Toml.render? config.toValue = some document := by
  intro check probes config tree
  have writable : ∀ probe ∈ config.probes, probe.kind.Writable := by
    simp only [config, probes, List.forall_mem_cons]
    refine ⟨.http (by decide), .memory (by decide +kernel) (by decide +kernel),
      .disk (by decide +kernel) (by decide +kernel), by simp⟩
  have reversed : config.toValue.Reordered 1 tree :=
    ⟨_, rfl, _, List.forall₂_same.mpr fun _ _ => ⟨rfl, rfl⟩, (List.reverse_perm _).symm⟩
  obtain ⟨document, toml, json, -⟩ := ofValue?_of_document config writable
  have written : (Json.written config.toValue).Reordered 1 tree := by
    rwa [(config.lossless .json writable).written_eq]
  exact ⟨reversed, toml 1 tree reversed, json 1 tree written, document⟩

end Vitals.Config
