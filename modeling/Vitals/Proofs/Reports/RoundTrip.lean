import Vitals.Proofs.Data.Documents
import Vitals.Proofs.Time.Timestamps
import Vitals.Report

/-!
# Reports through JSON

Results, signs of life and reports are published as JSON values and read again. Everything comes
back but the part of a duration below a millisecond, which is not published.

The three ways to be absent are told apart by their readers: a message or details that are absent
have no entry, an absent version of the operating system is null, and nothing else can be absent.
-/

namespace Vitals

open Value (Reads)

variable {depth : ℕ}

/-! ## Durations, verdicts and free data -/

/-- The whole milliseconds of a span. -/
def Duration.whole (duration : Duration) : Duration := .ofMillis (duration.nanos / 1000000)

/-- The milliseconds of a span fit 64 bits. -/
def Duration.Fits (duration : Duration) : Prop := duration.nanos / 1000000 < 2 ^ 64

theorem Duration.whole_whole (duration : Duration) : duration.whole.whole = duration.whole := by
  simp [whole, ofMillis]

theorem Duration.fits_whole {duration : Duration} (fits : duration.Fits) :
    duration.whole.Fits := by
  simpa [Fits, whole, ofMillis] using fits

/-- There is nothing below a millisecond. -/
def Duration.IsWhole (duration : Duration) : Prop := duration.nanos % 1000000 = 0

theorem Duration.whole_eq_self {duration : Duration} (isWhole : duration.IsWhole) :
    duration.whole = duration := by
  have nanos : duration.nanos / 1000000 * 1000000 = duration.nanos :=
    Nat.div_mul_cancel (Nat.dvd_of_mod_eq_zero isWhole)
  rw [whole, ofMillis, nanos]

theorem reads_duration {duration : Duration} (fits : duration.Fits) :
    Reads depth Value.toDuration? (.ofNat duration.millis) duration.whole := by
  have small : duration.millis < UInt64.size := Nat.mod_lt _ (by decide)
  have reads : Reads depth Value.toDuration? (.ofNat duration.millis)
      (Duration.ofMillis duration.millis) := (Value.reads_nat small).map Duration.ofMillis
  have millis : duration.millis = duration.nanos / 1000000 := Nat.mod_eq_of_lt fits
  rwa [millis] at reads ⊢

theorem reads_timestamp {timestamp : Timestamp} (valid : timestamp.Valid) :
    Reads depth Value.toTimestamp? (.text timestamp.render) timestamp := by
  intro tree same
  rw [same.text, Value.toTimestamp?, Value.toText?, Option.bind_some, Timestamp.read?_render valid]

theorem reads_status (status : Status) : Reads depth Status.ofValue? status.toValue status := by
  intro tree same
  rw [Value.Reordered.text same]
  exact Status.ofValue?_toValue status

/-- Free data that JSON holds as it is: a map whose values are lossless. -/
structure Entries.Valid (details : Entries) : Prop where
  ordered : details.Pairwise fun a b => a.1 < b.1
  lossless : (Value.table details).Lossless .json

theorem reads_details {details : Entries} (valid : details.Valid) :
    Reads 0 Entries.ofValue? (.table details) details := by
  rintro _ rfl
  have readable := valid.lossless.isReadable
  have distinct := valid.lossless.withoutRepeats_eq
  rw [Value.isReadable] at readable
  rw [Value.withoutRepeats, Value.table.injEq] at distinct
  rw [Entries.ofValue?, if_pos readable, distinct, Named.ofList_of_perm valid.ordered .rfl]

/-! ## Results -/

namespace Result

/-- The result with a duration of whole milliseconds. -/
def whole (result : Result) : Result := { result with duration := result.duration.whole }

/-- A result as the service can have it. -/
structure Valid (result : Result) : Prop where
  duration : result.duration.Fits
  timestamp : result.timestamp.Valid
  details : ∀ details, result.details = some details → Entries.Valid details

theorem reads {result : Result} (valid : result.Valid) :
    Reads 1 ofValue? result.toValue result.whole := by
  intro tree same
  obtain ⟨record, found, holds, -⟩ := Record.exists_ofValue? .refused fieldNames same
    (by cases result.message <;> cases result.details <;> simp [Value.entry?])
  have status : record.require "status" Status.ofValue? = some result.status :=
    holds.require (by simp [fieldNames]) (by simp) (reads_status _)
  have name : record.require "name" Value.toText? = some result.name :=
    holds.require (by simp [fieldNames]) (by simp [List.lookup_cons]) (Value.reads_text _)
  have message : record.optional "message" Value.toText? = some result.message :=
    holds.optional (by simp [fieldNames]) (by simp [List.lookup_cons])
      (fun _ _ => Value.reads_text _) rfl
  have duration : record.require "duration" Value.toDuration? = some result.duration.whole :=
    holds.require (by simp [fieldNames]) (by simp [List.lookup_cons]; rfl)
      (reads_duration valid.duration)
  have timestamp : record.require "timestamp" Value.toTimestamp? = some result.timestamp :=
    holds.require (by simp [fieldNames]) (by simp [List.lookup_cons])
      (reads_timestamp valid.timestamp)
  have details : record.optional "details" Entries.ofValue? = some result.details :=
    holds.optional (by simp [fieldNames]) (by simp [List.lookup_cons])
      (fun details there => reads_details (valid.details details there)) rfl
  simp [ofValue?, found, status, name, message, duration, timestamp, details, whole]

theorem lossless {result : Result} (valid : result.Valid) : result.toValue.Lossless .json := by
  refine .table ?_ ?_
  · cases result.message <;> cases result.details <;> simp [Value.entry?]
  · simp only [List.forall_mem_append, List.forall_mem_cons]
    refine ⟨⟨⟨⟨.text _, .text _, by simp⟩, Value.lossless_optional _ .text⟩,
      .ofNat (Nat.mod_lt _ (by decide)), .text _, by simp⟩, ?_⟩
    cases kept : result.details with
    | none => simp [Value.entry?]
    | some details => simpa [Value.entry?] using (valid.details details kept).lossless

theorem valid_whole {result : Result} (valid : result.Valid) : result.whole.Valid :=
  ⟨Duration.fits_whole valid.duration, valid.timestamp, valid.details⟩

theorem whole_whole (result : Result) : result.whole.whole = result.whole := by
  simp [whole, Duration.whole_whole]

theorem whole_eq_self {result : Result} (isWhole : result.duration.IsWhole) :
    result.whole = result := by
  rw [whole, Duration.whole_eq_self isWhole]

end Result

/-! ## The state of the host -/

namespace Memory

/-- Counts of 64 bits, and a usage that is a number. -/
structure Valid (memory : Memory) : Prop where
  totalBytes : memory.totalBytes < 2 ^ 64
  usedBytes : memory.usedBytes < 2 ^ 64
  freeBytes : memory.freeBytes < 2 ^ 64
  usage : (Decimal.number? memory.usage).isSome

theorem reads {memory : Memory} (valid : memory.Valid) :
    Reads depth ofValue? memory.toValue memory := by
  intro tree same
  obtain ⟨record, found, holds, -⟩ := Record.exists_ofValue? .refused fieldNames same (by simp)
  have totalBytes : record.require "total_bytes" Value.toNat64? = some memory.totalBytes :=
    holds.require (by simp [fieldNames]) (by simp) (Value.reads_nat valid.totalBytes)
  have usedBytes : record.require "used_bytes" Value.toNat64? = some memory.usedBytes :=
    holds.require (by simp [fieldNames]) (by simp [List.lookup_cons])
      (Value.reads_nat valid.usedBytes)
  have freeBytes : record.require "free_bytes" Value.toNat64? = some memory.freeBytes :=
    holds.require (by simp [fieldNames]) (by simp [List.lookup_cons])
      (Value.reads_nat valid.freeBytes)
  have usage : record.require "usage_percent" Value.toFloat? = some memory.usage :=
    holds.require (by simp [fieldNames]) (by simp [List.lookup_cons]) (Value.reads_float _)
  simp [ofValue?, found, totalBytes, usedBytes, freeBytes, usage]

theorem lossless {memory : Memory} (valid : memory.Valid) : memory.toValue.Lossless .json := by
  refine .table (by simp) ?_
  simp only [List.forall_mem_cons]
  exact ⟨.ofNat valid.totalBytes, .ofNat valid.usedBytes, .ofNat valid.freeBytes,
    .float valid.usage, by simp⟩

end Memory

namespace Processors

/-- A count of 64 bits, and loads that are numbers. -/
structure Valid (processors : Processors) : Prop where
  loadOne : (Decimal.number? processors.loadOne).isSome
  loadFive : (Decimal.number? processors.loadFive).isSome
  loadFifteen : (Decimal.number? processors.loadFifteen).isSome
  cores : processors.cores < 2 ^ 64

theorem reads {processors : Processors} (valid : processors.Valid) :
    Reads depth ofValue? processors.toValue processors := by
  intro tree same
  obtain ⟨record, found, holds, -⟩ :=
    Record.exists_ofValue? .refused ["load_average", "cores"] same (by simp)
  have loads : record.require "load_average" (Value.toList? Value.toFloat?) =
      some [processors.loadOne, processors.loadFive, processors.loadFifteen] := by
    have reads : Reads (depth - 1) (Value.toList? Value.toFloat?)
        (.list ([processors.loadOne, processors.loadFive, processors.loadFifteen].map .float))
        ([processors.loadOne, processors.loadFive, processors.loadFifteen].map id) :=
      Value.reads_list fun load _ => Value.reads_float load
    exact holds.require (by simp) (by simp) reads
  have cores : record.require "cores" Value.toNat64? = some processors.cores :=
    holds.require (by simp) (by simp [List.lookup_cons]) (Value.reads_nat valid.cores)
  simp [ofValue?, found, loads, cores]

theorem lossless {processors : Processors} (valid : processors.Valid) :
    processors.toValue.Lossless .json := by
  refine .table (by simp) ?_
  simp only [List.forall_mem_cons]
  refine ⟨.list ?_, .ofNat valid.cores, by simp⟩
  simp only [List.forall_mem_cons]
  exact ⟨.float valid.loadOne, .float valid.loadFive, .float valid.loadFifteen, by simp⟩

end Processors

namespace Snapshot

/-- Counts of 64 bits, and a memory and processors in order. -/
structure Valid (snapshot : Snapshot) : Prop where
  memory : snapshot.memory.Valid
  processors : snapshot.processors.Valid
  processUptime : snapshot.processUptime < 2 ^ 64
  hostUptime : snapshot.hostUptime < 2 ^ 64

theorem reads {snapshot : Snapshot} (valid : snapshot.Valid) :
    Reads depth ofValue? snapshot.toValue snapshot := by
  intro tree same
  obtain ⟨record, found, holds, -⟩ := Record.exists_ofValue? .refused fieldNames same (by simp)
  have memory : record.require "memory" Memory.ofValue? = some snapshot.memory :=
    holds.require (by simp [fieldNames]) (by simp) (Memory.reads valid.memory)
  have processors : record.require "cpu" Processors.ofValue? = some snapshot.processors :=
    holds.require (by simp [fieldNames]) (by simp [List.lookup_cons])
      (Processors.reads valid.processors)
  have processUptime : record.require "process_uptime_secs" Value.toNat64? =
      some snapshot.processUptime :=
    holds.require (by simp [fieldNames]) (by simp [List.lookup_cons])
      (Value.reads_nat valid.processUptime)
  have hostUptime : record.require "host_uptime_secs" Value.toNat64? =
      some snapshot.hostUptime :=
    holds.require (by simp [fieldNames]) (by simp [List.lookup_cons])
      (Value.reads_nat valid.hostUptime)
  have platform : record.require "platform" Value.toText? = some snapshot.platform :=
    holds.require (by simp [fieldNames]) (by simp [List.lookup_cons]) (Value.reads_text _)
  have osVersion : record.nullable "os_version" Value.toText? = some snapshot.osVersion :=
    holds.nullable (by simp [fieldNames]) (by simp [List.lookup_cons]) Value.reads_text rfl
  have arch : record.require "arch" Value.toText? = some snapshot.arch :=
    holds.require (by simp [fieldNames]) (by simp [List.lookup_cons]) (Value.reads_text _)
  have runtime : record.require "runtime" Value.toText? = some snapshot.runtime :=
    holds.require (by simp [fieldNames]) (by simp [List.lookup_cons]) (Value.reads_text _)
  simp [ofValue?, found, memory, processors, processUptime, hostUptime, platform, osVersion, arch,
    runtime]

theorem lossless {snapshot : Snapshot} (valid : snapshot.Valid) :
    snapshot.toValue.Lossless .json := by
  refine .table (by simp) ?_
  simp only [List.forall_mem_cons]
  refine ⟨Memory.lossless valid.memory, Processors.lossless valid.processors,
    .ofNat valid.processUptime, .ofNat valid.hostUptime, .text _, ?_, .text _, .text _, by simp⟩
  cases snapshot.osVersion with
  | none => exact .null rfl
  | some version => exact .text version

end Snapshot

/-! ## Signs of life -/

namespace Liveness

/-- The sign of life with an uptime of whole milliseconds. -/
def whole (liveness : Liveness) : Liveness := { liveness with uptime := liveness.uptime.whole }

structure Valid (liveness : Liveness) : Prop where
  uptime : liveness.uptime.Fits
  timestamp : liveness.timestamp.Valid

theorem reads {liveness : Liveness} (valid : liveness.Valid) :
    Reads depth ofValue? liveness.toValue liveness.whole := by
  intro tree same
  obtain ⟨record, found, holds, -⟩ := Record.exists_ofValue? .refused fieldNames same (by simp)
  have status : record.require "status" Status.ofValue? = some liveness.status :=
    holds.require (by simp [fieldNames]) (by simp) (reads_status _)
  have uptime : record.require "uptime" Value.toDuration? = some liveness.uptime.whole :=
    holds.require (by simp [fieldNames]) (by simp [List.lookup_cons])
      (reads_duration valid.uptime)
  have timestamp : record.require "timestamp" Value.toTimestamp? = some liveness.timestamp :=
    holds.require (by simp [fieldNames]) (by simp [List.lookup_cons])
      (reads_timestamp valid.timestamp)
  simp [ofValue?, found, status, uptime, timestamp, whole]

theorem lossless (liveness : Liveness) : liveness.toValue.Lossless .json := by
  refine .table (by simp) ?_
  simp only [List.forall_mem_cons]
  exact ⟨.text _, .ofNat (Nat.mod_lt _ (by decide)), .text _, by simp⟩

theorem valid_whole {liveness : Liveness} (valid : liveness.Valid) : liveness.whole.Valid :=
  ⟨Duration.fits_whole valid.uptime, valid.timestamp⟩

theorem whole_whole (liveness : Liveness) : liveness.whole.whole = liveness.whole := by
  simp [whole, Duration.whole_whole]

theorem whole_eq_self {liveness : Liveness} (isWhole : liveness.uptime.IsWhole) :
    liveness.whole = liveness := by
  rw [whole, Duration.whole_eq_self isWhole]

end Liveness

/-! ## Reports -/

namespace Report

/-- The report with durations of whole milliseconds. -/
def whole (report : Report) : Report :=
  { report with uptime := report.uptime.whole, checks := report.checks.map Result.whole }

structure Valid (report : Report) : Prop where
  uptime : report.uptime.Fits
  timestamp : report.timestamp.Valid
  checks : ∀ check ∈ report.checks, check.Valid
  system : report.system.Valid

theorem reads {report : Report} (valid : report.Valid) :
    Reads 3 ofValue? report.toValue report.whole := by
  intro tree same
  obtain ⟨record, found, holds, -⟩ := Record.exists_ofValue? .refused fieldNames same (by simp)
  have status : record.require "status" Status.ofValue? = some report.status :=
    holds.require (by simp [fieldNames]) (by simp) (reads_status _)
  have version : record.require "version" Value.toText? = some report.version :=
    holds.require (by simp [fieldNames]) (by simp [List.lookup_cons]) (Value.reads_text _)
  have uptime : record.require "uptime" Value.toDuration? = some report.uptime.whole :=
    holds.require (by simp [fieldNames]) (by simp [List.lookup_cons])
      (reads_duration valid.uptime)
  have timestamp : record.require "timestamp" Value.toTimestamp? = some report.timestamp :=
    holds.require (by simp [fieldNames]) (by simp [List.lookup_cons])
      (reads_timestamp valid.timestamp)
  have checks : record.require "checks" (Value.toList? Result.ofValue?) =
      some (report.checks.map Result.whole) :=
    holds.require (by simp [fieldNames]) (by simp [List.lookup_cons])
      (Value.reads_list fun check listed => Result.reads (valid.checks check listed))
  have system : record.require "system" Snapshot.ofValue? = some report.system :=
    holds.require (by simp [fieldNames]) (by simp [List.lookup_cons])
      (Snapshot.reads valid.system)
  simp [ofValue?, found, status, version, uptime, timestamp, checks, system, whole]

theorem lossless {report : Report} (valid : report.Valid) : report.toValue.Lossless .json := by
  refine .table (by simp) ?_
  simp only [List.forall_mem_cons]
  refine ⟨.text _, .text _, .ofNat (Nat.mod_lt _ (by decide)), .text _, .list ?_,
    Snapshot.lossless valid.system, by simp⟩
  intro item found
  obtain ⟨check, listed, rfl⟩ := List.mem_map.mp found
  exact Result.lossless (valid.checks check listed)

theorem valid_whole {report : Report} (valid : report.Valid) : report.whole.Valid := by
  refine ⟨Duration.fits_whole valid.uptime, valid.timestamp, ?_, valid.system⟩
  intro check found
  obtain ⟨earlier, listed, rfl⟩ := List.mem_map.mp found
  exact Result.valid_whole (valid.checks earlier listed)

theorem whole_whole (report : Report) : report.whole.whole = report.whole := by
  simp [whole, Duration.whole_whole, Function.comp_def, Result.whole_whole]

theorem whole_eq_self {report : Report} (uptime : report.uptime.IsWhole)
    (checks : ∀ check ∈ report.checks, check.duration.IsWhole) : report.whole = report := by
  have same : report.checks.map Result.whole = report.checks := by
    rw [List.map_congr_left fun check listed => Result.whole_eq_self (checks check listed),
      List.map_id']
  rw [whole, Duration.whole_eq_self uptime, same]

theorem check?_whole (report : Report) (name : String) :
    report.whole.check? name = (report.check? name).map Result.whole := by
  simp [check?, whole, List.find?_map, Function.comp_def, Result.whole]

end Report

/-! ## What comes back -/

/-- Results, signs of life and reports are read from the JSON values they are published as, in
whatever order the fields come: the same as before, with durations of whole milliseconds. What has
been read once is read again as it is, and so is what had whole milliseconds to begin with. A report
keeps its checks and their order, so the same check is found under a name. -/
theorem reads_published :
    (∀ result : Result, result.Valid →
      Reads 1 Result.ofValue? (Json.written result.toValue) result.whole ∧
      Reads 1 Result.ofValue? (Json.written result.whole.toValue) result.whole ∧
      (result.duration.IsWhole → result.whole = result)) ∧
    (∀ liveness : Liveness, liveness.Valid →
      (∀ depth, Reads depth Liveness.ofValue? (Json.written liveness.toValue) liveness.whole) ∧
      (∀ depth, Reads depth Liveness.ofValue? (Json.written liveness.whole.toValue)
        liveness.whole) ∧
      (liveness.uptime.IsWhole → liveness.whole = liveness)) ∧
    ∀ report : Report, report.Valid →
      Reads 3 Report.ofValue? (Json.written report.toValue) report.whole ∧
      Reads 3 Report.ofValue? (Json.written report.whole.toValue) report.whole ∧
      (report.uptime.IsWhole → (∀ check ∈ report.checks, check.duration.IsWhole) →
        report.whole = report) ∧
      ∀ name, report.whole.check? name = (report.check? name).map Result.whole := by
  refine ⟨fun result valid => ?_, fun liveness valid => ?_, fun report valid => ?_⟩
  · have later := Result.valid_whole valid
    have again := Result.reads later
    rw [Result.whole_whole] at again
    rw [(Result.lossless valid).written_eq, (Result.lossless later).written_eq]
    exact ⟨Result.reads valid, again, Result.whole_eq_self⟩
  · have later := Liveness.valid_whole valid
    rw [liveness.lossless.written_eq, liveness.whole.lossless.written_eq]
    refine ⟨fun depth => Liveness.reads valid, fun depth => ?_, Liveness.whole_eq_self⟩
    have again := @Liveness.reads depth _ later
    rwa [Liveness.whole_whole] at again
  · have later := Report.valid_whole valid
    have again := Report.reads later
    rw [Report.whole_whole] at again
    rw [(Report.lossless valid).written_eq, (Report.lossless later).written_eq]
    exact ⟨Report.reads valid, again, Report.whole_eq_self, report.check?_whole⟩

/-- A report of two checks: an empty message and no details in a leap second, no message and free
data with a null inside. -/
theorem reads_published_report :
    let leap : Timestamp := ⟨17166, 86399, 1500000000⟩
    let details : Entries := [("cause", .table [("code", .null), ("share", .float 0.5)])]
    let silent : Result := ⟨.healthy, "db", some "", ⟨1999999⟩, leap, some []⟩
    let worded : Result := ⟨.degraded, "db", none, ⟨7000000⟩, .epoch, some details⟩
    let system : Snapshot :=
      ⟨⟨8, 2, 6, 25.0⟩, ⟨0.0, 0.5, 1.0, 4⟩, 10, 20, "linux", none, "x86_64", "native"⟩
    let report : Report := ⟨.degraded, "1.0.0", ⟨2000001⟩, leap, [silent, worded], system⟩
    report.Valid ∧
      Report.ofValue? (Json.written report.toValue) = some { report with
        uptime := ⟨2000000⟩, checks := [{ silent with duration := ⟨1000000⟩ }, worded] } ∧
      report.whole.check? "db" = some { silent with duration := ⟨1000000⟩ } := by
  intro leap details silent worded system report
  have leapValid : leap.Valid := ⟨by decide, by decide, by decide, .inr (by decide)⟩
  have detailsValid : Entries.Valid details := by
    refine ⟨by simp [details], .table (by simp [details]) ?_⟩
    simp only [details, List.forall_mem_singleton]
    refine .table (by simp) ?_
    simp only [List.forall_mem_cons]
    exact ⟨.null rfl, .float (by decide +kernel), by simp⟩
  have silentValid : silent.Valid := by
    refine ⟨by simp [Duration.Fits, silent], leapValid, ?_⟩
    rintro _ ⟨⟩
    exact ⟨.nil, .table .nil (by simp)⟩
  have wordedValid : worded.Valid := by
    refine ⟨by simp [Duration.Fits, worded],
      ⟨by decide, by decide, by decide, .inl (by decide)⟩, ?_⟩
    rintro _ ⟨⟩
    exact detailsValid
  have systemValid : system.Valid :=
    ⟨⟨by decide, by decide, by decide, by decide +kernel⟩,
      ⟨by decide +kernel, by decide +kernel, by decide +kernel, by decide⟩, by decide, by decide⟩
  have valid : report.Valid :=
    ⟨by simp [Duration.Fits, report], leapValid, by simp [report, silentValid, wordedValid],
      systemValid⟩
  obtain ⟨back, -, -, check⟩ := reads_published.2.2 report valid
  have first : silent.whole = { silent with duration := ⟨1000000⟩ } := by
    simp [Result.whole, Duration.whole, Duration.ofMillis, silent]
  have milliseconds : worded.duration.IsWhole := by simp [Duration.IsWhole, worded]
  have second : worded.whole = worded := Result.whole_eq_self milliseconds
  have uptime : report.uptime.whole = ⟨2000000⟩ := by decide
  have checks : report.checks.map Result.whole = [silent.whole, worded.whole] := rfl
  rw [first, second] at checks
  have once := back _ (Value.Reordered.refl 3 _)
  rw [Report.whole, uptime, checks] at once
  refine ⟨valid, once, ?_⟩
  rw [check "db", ← first]
  rfl

end Vitals
