import Vitals.Proofs.Config.Enrolment
import Vitals.Proofs.Decimal.Order

/-!
# Valid configurations

The rules of a configuration, stated for its sections and its list of probes as they stand. The
validation goes through them one by one and stops at the first that is broken; it accepts exactly
the configurations that keep all of them. What it reports is a rule that is really broken: one of
the general section, else one of the section on serving, else one of the first probe that does not
keep its rules among the probes before it.

Thresholds are compared as numbers, so what is no number is no threshold.
-/

namespace Vitals

/-- A float that is a number above 0 and up to 100. -/
def IsPercentage (x : Float) : Prop := ∃ p : ℚ, Decimal.number? x = some p ∧ 0 < p ∧ p ≤ 100

structure Thresholds.Kept (thresholds : Thresholds) : Prop where
  degraded : IsPercentage thresholds.degraded
  unhealthy : IsPercentage thresholds.unhealthy
  ordered : ∀ p q, Decimal.number? thresholds.degraded = some p →
    Decimal.number? thresholds.unhealthy = some q → p ≤ q

namespace Config

/-! ## Rules -/

structure Global.Kept (global : Global) : Prop where
  timed : global.defaultTimeout ≠ 0
  level : global.logLevel ∈ ["debug", "info", "warn", "error"]

structure Web.Kept (web : Web) : Prop where
  port : web.port ≠ 0
  bound : web.bindAddress ≠ ""

/-- A URL of one of two schemes, which are in small letters. -/
def OfWeb (url : String) : Prop :=
  "http://".toList <+: url.toList ∨ "https://".toList <+: url.toList

structure HttpCheck.Kept (check : HttpCheck) : Prop where
  scheme : OfWeb check.url
  expecting : check.expectedCodes ≠ []
  codes : ∀ code ∈ check.expectedCodes, 100 ≤ code.toNat ∧ code.toNat ≤ 599
  method : Text.capitals check.method ∈
    ["GET", "POST", "PUT", "DELETE", "HEAD", "OPTIONS", "PATCH"]

def ProbeKind.Kept : ProbeKind → Prop
  | .http check => check.Kept
  | .memory thresholds | .disk _ thresholds => thresholds.Kept

/-- The rules of a probe by itself. -/
structure Probe.Kept (probe : Probe) : Prop where
  named : ∃ c ∈ probe.name.toList, Text.isBlank c = false
  timed : probe.timeout ≠ some 0
  resting : probe.interval ≠ some 0
  kind : probe.kind.Kept

/-- The rules of a list of probes. -/
structure ProbesKept (probes : List Probe) : Prop where
  each : ∀ probe ∈ probes, probe.Kept
  distinct : (probes.map (·.name)).Nodup

/-- All rules of a configuration. -/
structure Kept (config : Config) : Prop where
  global : config.global.Kept
  web : config.web.Kept
  probes : ProbesKept config.probes

/-! ## Broken rules -/

/-- Thresholds break the rule that a fault names. -/
def ProbeFault.BrokenByThresholds (thresholds : Thresholds) : ProbeFault → Prop
  | .thresholdOutOfRange => ¬ IsPercentage thresholds.degraded ∨ ¬ IsPercentage thresholds.unhealthy
  | .thresholdsCrossed => ∃ p q, Decimal.number? thresholds.degraded = some p ∧
      Decimal.number? thresholds.unhealthy = some q ∧ q < p
  | _ => False

/-- An HTTP probe breaks the rule that a fault names. -/
def ProbeFault.BrokenByHttp (check : HttpCheck) : ProbeFault → Prop
  | .unknownScheme => ¬ OfWeb check.url
  | .noStatusCode => check.expectedCodes = []
  | .badStatusCode code => code ∈ check.expectedCodes ∧ ¬ (100 ≤ code.toNat ∧ code.toNat ≤ 599)
  | .unknownMethod method => check.method = method ∧
      Text.capitals method ∉ ["GET", "POST", "PUT", "DELETE", "HEAD", "OPTIONS", "PATCH"]
  | _ => False

def ProbeFault.BrokenByKind (fault : ProbeFault) : ProbeKind → Prop
  | .http check => fault.BrokenByHttp check
  | .memory thresholds | .disk _ thresholds => fault.BrokenByThresholds thresholds

/-- A probe breaks the rule that a fault names, behind probes with some names. -/
def ProbeFault.Broken (earlier : List String) (probe : Probe) (fault : ProbeFault) : Prop :=
  match fault with
  | .blankName => ∀ c ∈ probe.name.toList, Text.isBlank c = true
  | .repeatedName => probe.name ∈ earlier
  | .zeroTimeout => probe.timeout = some 0
  | .zeroInterval => probe.interval = some 0
  | _ => fault.BrokenByKind probe.kind

/-- Where a violation belongs: it names a broken rule, and the sections and probes before keep
theirs. -/
def Violation.Found (config : Config) : Violation → Prop
  | .zeroDefaultTimeout => config.global.defaultTimeout = 0
  | .unknownLogLevel level => config.global.logLevel = level ∧
      level ∉ ["debug", "info", "warn", "error"]
  | .zeroPort => config.global.Kept ∧ config.web.port = 0
  | .emptyBindAddress => config.global.Kept ∧ config.web.bindAddress = ""
  | .probe name fault => config.global.Kept ∧ config.web.Kept ∧
      ∃ before probe after, config.probes = before ++ probe :: after ∧ ProbesKept before ∧
        probe.name = name ∧ fault.Broken (before.map (·.name)) probe

/-! ## Checks -/

/-- What a check of rules says: nothing where they are kept, else a fault that is there. -/
inductive Judges {Fault : Type} (kept : Prop) (broken : Fault → Prop) : Option Fault → Prop
  | accepts (holds : kept) : Judges kept broken none
  | reports (fault : Fault) (there : broken fault) : Judges kept broken (some fault)

theorem Judges.eq_none_iff {Fault : Type} {kept : Prop} {broken : Fault → Prop}
    {answer : Option Fault} (judges : Judges kept broken answer)
    (excluded : ∀ fault, broken fault → ¬ kept) : answer = none ↔ kept := by
  cases judges with
  | accepts holds => exact iff_of_true rfl holds
  | reports fault there => exact iff_of_false (by simp) (excluded fault there)

theorem judges_global (config : Config) :
    Judges config.global.Kept (Violation.Found config) config.global.violation? := by
  unfold Global.violation?
  split
  · next timeless => exact .reports _ timeless
  · next timed =>
      split
      · next unknown => exact .reports _ ⟨rfl, unknown⟩
      · next known => exact .accepts ⟨timed, not_not.mp known⟩

theorem judges_web {config : Config} (general : config.global.Kept) :
    Judges config.web.Kept (Violation.Found config) config.web.violation? := by
  unfold Web.violation?
  split
  · next portless => exact .reports _ ⟨general, portless⟩
  · next port =>
      split
      · next unbound => exact .reports _ ⟨general, unbound⟩
      · next bound => exact .accepts ⟨port, bound⟩

theorem isThreshold_iff {x : Float} : isThreshold x = true ↔ IsPercentage x := by
  simp only [isThreshold, Bool.and_eq_true, decide_eq_true_eq]
  constructor
  · rintro ⟨above, below⟩
    rcases Decimal.exists_number?_of_between Decimal.number?_zero Decimal.number?_hundred above
      below with ⟨p, number⟩
    exact ⟨p, number, (Decimal.lt_iff_number? Decimal.number?_zero number).mp above,
      (Decimal.le_iff_number? number Decimal.number?_hundred).mp below⟩
  · rintro ⟨p, number, above, below⟩
    exact ⟨(Decimal.lt_iff_number? Decimal.number?_zero number).mpr above,
      (Decimal.le_iff_number? number Decimal.number?_hundred).mpr below⟩

theorem judges_thresholds (thresholds : Thresholds) :
    Judges thresholds.Kept (·.BrokenByThresholds thresholds) (thresholdFault? thresholds) := by
  have outOfRange : (!isThreshold thresholds.degraded || !isThreshold thresholds.unhealthy) = true ↔
      ¬ IsPercentage thresholds.degraded ∨ ¬ IsPercentage thresholds.unhealthy := by
    simp [← isThreshold_iff]
  unfold thresholdFault?
  split
  · next outside => exact .reports _ (outOfRange.mp outside)
  · next inside =>
      rw [outOfRange, not_or, not_not, not_not] at inside
      rcases inside with ⟨degraded, unhealthy⟩
      have ⟨p, numberOfDegraded, _⟩ := degraded
      have ⟨q, numberOfUnhealthy, _⟩ := unhealthy
      have crossed := Decimal.lt_iff_number? numberOfUnhealthy numberOfDegraded
      split
      · next less => exact .reports _ ⟨p, q, numberOfDegraded, numberOfUnhealthy, crossed.mp less⟩
      · next ordered =>
          refine .accepts ⟨degraded, unhealthy, ?_⟩
          intro p' q' hp hq
          rw [numberOfDegraded, Option.some.injEq] at hp
          rw [numberOfUnhealthy, Option.some.injEq] at hq
          rw [← hp, ← hq]
          exact not_lt.mp (mt crossed.mpr ordered)

theorem isStatusCode_iff {code : UInt16} :
    isStatusCode code = true ↔ 100 ≤ code.toNat ∧ code.toNat ≤ 599 := by
  simp [isStatusCode, UInt16.le_iff_toNat_le]

theorem hasScheme_iff {url : String} : hasScheme url = true ↔ OfWeb url := by
  simp [hasScheme, OfWeb, List.isPrefixOf_iff_prefix]

theorem judges_http (check : HttpCheck) :
    Judges check.Kept (·.BrokenByHttp check) check.fault? := by
  unfold HttpCheck.fault?
  split
  · next foreign =>
      refine .reports _ ?_
      rw [Bool.not_eq_true', ← Bool.not_eq_true, hasScheme_iff] at foreign
      exact foreign
  · next scheme =>
      rw [Bool.not_eq_true', Bool.not_eq_false, hasScheme_iff] at scheme
      split
      · next unexpecting => exact .reports _ unexpecting
      · next expecting =>
          split
          · next code found =>
              refine .reports _ ⟨List.mem_of_find?_eq_some found, ?_⟩
              have bad := List.find?_some found
              rw [Bool.not_eq_true', ← Bool.not_eq_true, isStatusCode_iff] at bad
              exact bad
          · next unfound =>
              have codes : ∀ code ∈ check.expectedCodes, 100 ≤ code.toNat ∧ code.toNat ≤ 599 := by
                intro code code_mem
                have good := List.find?_eq_none.mp unfound code code_mem
                rw [Bool.not_eq_true', Bool.not_eq_false, isStatusCode_iff] at good
                exact good
              split
              · next unknown => exact .reports _ ⟨rfl, unknown⟩
              · next known => exact .accepts ⟨scheme, expecting, codes, not_not.mp known⟩

theorem judges_kind (kind : ProbeKind) :
    Judges kind.Kept (·.BrokenByKind kind) kind.fault? := by
  cases kind with
  | http check => exact judges_http check
  | memory thresholds => exact judges_thresholds thresholds
  | disk path thresholds => exact judges_thresholds thresholds

section Faults

variable {earlier : List String} {probe : Probe} {fault : ProbeFault}

/-- The faults of a kind are not those that all kinds share. -/
theorem broken_of_brokenByKind (broken : fault.BrokenByKind probe.kind) :
    fault.Broken earlier probe := by
  cases fault with
  | blankName | repeatedName | zeroTimeout | zeroInterval =>
      cases kind : probe.kind <;> rw [kind] at broken <;> cases broken
  | _ => exact broken

/-- Of the probes before, only the names count. -/
theorem broken_congr {names : List String} (same : ∀ name, name ∈ earlier ↔ name ∈ names) :
    fault.Broken earlier probe ↔ fault.Broken names probe := by
  cases fault with
  | repeatedName => exact same probe.name
  | _ => exact Iff.rfl

theorem not_kept_of_brokenByKind {kind : ProbeKind} (broken : fault.BrokenByKind kind) :
    ¬ kind.Kept := by
  have thresholds (thresholds : Thresholds) (broken : fault.BrokenByThresholds thresholds) :
      ¬ thresholds.Kept := by
    intro kept
    cases fault with
    | thresholdOutOfRange => exact broken.elim (· kept.degraded) (· kept.unhealthy)
    | thresholdsCrossed =>
        rcases broken with ⟨p, q, degraded, unhealthy, less⟩
        exact absurd (kept.ordered p q degraded unhealthy) (not_le.mpr less)
    | _ => exact broken
  cases kind with
  | memory own => exact thresholds own broken
  | disk path own => exact thresholds own broken
  | http check =>
      intro kept
      cases fault with
      | unknownScheme => exact broken kept.scheme
      | noStatusCode => exact kept.expecting broken
      | badStatusCode code => exact broken.2 (kept.codes code broken.1)
      | unknownMethod method =>
          rcases broken with ⟨rfl, unknown⟩
          exact unknown kept.method
      | _ => exact broken

theorem not_kept_of_broken (broken : fault.Broken earlier probe) :
    ¬ (probe.Kept ∧ probe.name ∉ earlier) := by
  rintro ⟨kept, fresh⟩
  cases fault with
  | blankName =>
      rcases kept.named with ⟨c, c_mem, visible⟩
      exact absurd (broken c c_mem) (Bool.eq_false_iff.mp visible)
  | repeatedName => exact fresh broken
  | zeroTimeout => exact kept.timed broken
  | zeroInterval => exact kept.resting broken
  | _ => exact not_kept_of_brokenByKind broken kept.kind

end Faults

theorem judges_probe (earlier : List String) (probe : Probe) :
    Judges (probe.Kept ∧ probe.name ∉ earlier) (·.Broken earlier probe) (probe.fault? earlier) := by
  unfold Probe.fault?
  split
  · next blank => exact .reports _ (List.all_eq_true.mp blank)
  · next visible =>
      have named : ∃ c ∈ probe.name.toList, Text.isBlank c = false := by
        simpa [Text.isBlankText] using visible
      split
      · next repeated => exact .reports _ repeated
      · next fresh =>
          split
          · next timeless => exact .reports _ timeless
          · next timed =>
              split
              · next restless => exact .reports _ restless
              · next resting =>
                  have judges := judges_kind probe.kind
                  cases answer : probe.kind.fault? with
                  | none =>
                      rw [answer] at judges
                      cases judges with
                      | accepts kind => exact .accepts ⟨⟨named, timed, resting, kind⟩, fresh⟩
                  | some fault =>
                      rw [answer] at judges
                      cases judges with
                      | reports _ there => exact .reports _ (broken_of_brokenByKind there)

/-- Probes that keep their rules behind probes with some names. -/
def ProbesKeptBehind (earlier : List String) (probes : List Probe) : Prop :=
  ProbesKept probes ∧ ∀ probe ∈ probes, probe.name ∉ earlier

/-- Where a violation is found in a list of probes behind probes with some names. -/
def Violation.FoundBehind (earlier : List String) (probes : List Probe) : Violation → Prop
  | .probe name fault => ∃ before probe after, probes = before ++ probe :: after ∧
      ProbesKeptBehind earlier before ∧ probe.name = name ∧
        fault.Broken (before.map (·.name) ++ earlier) probe
  | _ => False

theorem probesKeptBehind_cons {earlier : List String} {probe : Probe} {rest : List Probe} :
    ProbesKeptBehind earlier (probe :: rest) ↔
      (probe.Kept ∧ probe.name ∉ earlier) ∧ ProbesKeptBehind (probe.name :: earlier) rest := by
  constructor
  · rintro ⟨⟨each, distinct⟩, fresh⟩
    simp only [List.map_cons, List.nodup_cons, List.mem_map, not_exists, not_and] at distinct
    simp only [List.forall_mem_cons] at each fresh
    refine ⟨⟨each.1, fresh.1⟩, ⟨each.2, distinct.2⟩, ?_⟩
    intro other other_mem known
    rcases List.mem_cons.mp known with same | known
    · exact distinct.1 other other_mem same
    · exact fresh.2 other other_mem known
  · rintro ⟨own, ⟨each, distinct⟩, fresh⟩
    refine ⟨⟨List.forall_mem_cons.mpr ⟨own.1, each⟩, ?_⟩, List.forall_mem_cons.mpr ⟨own.2, ?_⟩⟩
    · simp only [List.map_cons, List.nodup_cons, List.mem_map, not_exists, not_and]
      refine ⟨?_, distinct⟩
      intro other other_mem same
      exact fresh other other_mem (by simp [same])
    · intro other other_mem known
      exact fresh other other_mem (by simp [known])

theorem judges_probes (earlier : List String) (probes : List Probe) :
    Judges (ProbesKeptBehind earlier probes) (Violation.FoundBehind earlier probes)
      (probesViolation? earlier probes) := by
  induction probes generalizing earlier with
  | nil => exact .accepts ⟨⟨by simp, by simp⟩, by simp⟩
  | cons probe rest ih =>
      rw [probesViolation?]
      have judges := judges_probe earlier probe
      generalize probe.fault? earlier = answer at judges ⊢
      cases judges with
      | reports fault there =>
          exact .reports _ ⟨[], probe, rest, rfl, ⟨⟨by simp, by simp⟩, by simp⟩, rfl, there⟩
      | accepts own =>
          have judges := ih (probe.name :: earlier)
          dsimp only
          generalize probesViolation? (probe.name :: earlier) rest = answer at judges ⊢
          cases judges with
          | accepts later => exact .accepts (probesKeptBehind_cons.mpr ⟨own, later⟩)
          | reports violation there =>
              refine .reports _ ?_
              cases violation with
              | probe name fault =>
                  rcases there with ⟨before, culprit, after, rfl, kept, named, there⟩
                  refine ⟨probe :: before, culprit, after, rfl,
                    probesKeptBehind_cons.mpr ⟨own, kept⟩, named, ?_⟩
                  refine (broken_congr ?_).mp there
                  intro other
                  simp only [List.map_cons, List.cons_append, List.mem_append, List.mem_cons]
                  exact or_left_comm
              | _ => exact there

theorem not_kept_of_found {config : Config} {violation : Violation}
    (found : violation.Found config) : ¬ config.Kept := by
  intro kept
  cases violation with
  | zeroDefaultTimeout => exact kept.global.timed found
  | unknownLogLevel level =>
      rcases found with ⟨rfl, unknown⟩
      exact unknown kept.global.level
  | zeroPort => exact kept.web.port found.2
  | emptyBindAddress => exact kept.web.bound found.2
  | probe name fault =>
      rcases found with ⟨-, -, before, culprit, after, parts, -, -, broken⟩
      refine not_kept_of_broken broken ⟨kept.probes.each culprit (by simp [parts]), ?_⟩
      have distinct := kept.probes.distinct
      rw [parts, List.map_append, List.map_cons, List.nodup_middle, List.nodup_cons] at distinct
      exact fun known => distinct.1 (List.mem_append_left _ known)

theorem judges_config (config : Config) :
    Judges config.Kept (Violation.Found config) config.violation? := by
  unfold Config.violation?
  have general := judges_global config
  generalize config.global.violation? = answer at general ⊢
  cases general with
  | reports violation there => exact .reports _ there
  | accepts general =>
      have web := judges_web general
      generalize config.web.violation? = answer at web ⊢
      cases web with
      | reports violation there => exact .reports _ there
      | accepts web =>
          have probes := judges_probes [] config.probes
          generalize probesViolation? [] config.probes = answer at probes ⊢
          cases probes with
          | accepts probes => exact .accepts ⟨general, web, probes.1⟩
          | reports violation there =>
              refine .reports _ ?_
              cases violation with
              | probe name fault =>
                  rcases there with ⟨before, culprit, after, parts, kept, named, there⟩
                  exact ⟨general, web, before, culprit, after, parts, kept.1, named,
                    by simpa using there⟩
              | _ => exact there.elim

/-- A configuration is accepted if and only if it keeps all rules. Of any other configuration the
violation that is reported is there: in the general section, else in the section on serving, else in
the first probe that breaks a rule behind the probes before it. -/
theorem violation?_of_config (config : Config) :
    (config.violation? = none ↔ config.Kept) ∧
      ∀ violation, config.violation? = some violation → violation.Found config := by
  have judges := judges_config config
  refine ⟨judges.eq_none_iff fun violation => not_kept_of_found, ?_⟩
  intro violation reported
  rw [reported] at judges
  cases judges with
  | reports _ there => exact there

theorem violation?_of_repeated_name :
    let thresholds : Thresholds := ⟨85.0, 95.0⟩
    let undefined : Thresholds := ⟨0.0 / 0.0, 95.0⟩
    let probes : List Probe :=
      [⟨"db", true, none, some 500, .memory thresholds⟩,
        ⟨"db", false, some 2000, none, .disk "/" undefined⟩,
        ⟨" ", false, some 0, none, .memory thresholds⟩]
    let violation : Violation := .probe "db" .repeatedName
    Config.violation? ⟨.default, .default, probes⟩ = some violation ∧
      violation.Found ⟨.default, .default, probes⟩ ∧ ¬ Kept ⟨.default, .default, probes⟩ := by
  intro thresholds undefined probes violation
  have reported : Config.violation? ⟨.default, .default, probes⟩ = some violation := by
    decide +kernel
  have rules := violation?_of_config ⟨.default, .default, probes⟩
  refine ⟨reported, rules.2 violation reported, ?_⟩
  rw [← rules.1, reported]
  simp

end Config

end Vitals
