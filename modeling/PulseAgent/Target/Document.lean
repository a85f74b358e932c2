import PulseAgent.Go.FloatOrder
import PulseAgent.Go.JsonBounds
import PulseAgent.Target.Registry

/-!
# The document of an accepted target

A target that passes `validateTarget` is read back as it was stored.
-/

namespace PulseAgent.Target

open Go Go.Json Contract

/-! ## What the checks establish -/

structure ValidRule (rule : ProbeRule) : Prop where
  ruleID : validIdentifier rule.ruleID = true
  signalType : rule.signalType = lit "availability" ∨ rule.signalType = lit "error_rate" ∨
    rule.signalType = lit "latency_ms"
  interval : 1000000000 ≤ rule.interval ∧ rule.interval ≤ 3600 * 1000000000
  finite : rule.threshold.isFinite = true
  positive : Float64.zero.lt rule.threshold = true
  threshold : Float64.lt (.finite (Dec.normalize false 1000000 0)) rule.threshold = false
  consecutiveFailures : 1 ≤ rule.consecutiveFailures
  recoverySamples : 1 ≤ rule.recoverySamples
  sloWindow : rule.interval ≤ rule.sloWindow ∧ rule.sloWindow ≤ maxDuration
  severity : rule.severity = .info ∨ rule.severity = .warning ∨ rule.severity = .critical

theorem valid_of_validateProbeRule {rule : ProbeRule} (h : validateProbeRule rule = .ok ()) :
    ValidRule rule := by
  unfold validateProbeRule at h
  split_ifs at h with hfields hseverity
  simp only [Bool.or_eq_true, Bool.and_eq_true, Bool.not_eq_true', decide_eq_true_eq, not_or,
    not_and, ne_eq, not_not, Bool.not_eq_false, Int64.not_lt, gt_iff_lt,
    Bool.not_eq_true] at hfields hseverity
  obtain ⟨⟨⟨⟨⟨⟨⟨⟨⟨⟨⟨⟨⟨⟨hid, hsignal⟩, hinterval⟩, hinterval'⟩, -⟩, -⟩, hfinite⟩,
    hpositive⟩, hthreshold⟩,
    hfailures⟩, -⟩, hrecovery⟩, -⟩, hwindow⟩, hwindow'⟩ := hfields
  refine ⟨hid, ?_, ⟨hinterval, hinterval'⟩, hfinite, hpositive, hthreshold, hfailures, hrecovery,
    ⟨hwindow, hwindow'⟩, ?_⟩
  · by_cases hfirst : rule.signalType = lit "availability"
    · exact .inl hfirst
    · by_cases hsecond : rule.signalType = lit "error_rate"
      · exact .inr (.inl hsecond)
      · exact .inr (.inr (hsignal ⟨hfirst, hsecond⟩))
  · by_cases hfirst : rule.severity = .info
    · exact .inl hfirst
    · by_cases hsecond : rule.severity = .warning
      · exact .inr (.inl hsecond)
      · exact .inr (.inr (hseverity ⟨hfirst, hsecond⟩))

theorem valid_of_validateProbeRules {rules : List ProbeRule} {seen : List Bytes}
    (h : validateProbeRules seen rules = .ok ()) : ∀ rule ∈ rules, ValidRule rule := by
  induction rules generalizing seen with
  | nil => nofun
  | cons rule rules ih =>
    unfold validateProbeRules at h
    cases hrule : validateProbeRule rule with
    | error e => simp [hrule, bind, Except.bind] at h
    | ok u =>
      simp only [hrule, bind, Except.bind] at h
      split_ifs at h
      exact List.forall_mem_cons.mpr ⟨valid_of_validateProbeRule hrule, ih h⟩

theorem distinct_of_validateProbeRules {rules : List ProbeRule} {seen : List Bytes}
    (h : validateProbeRules seen rules = .ok ()) :
    (rules.map ProbeRule.ruleID).Nodup ∧ ∀ id ∈ rules.map ProbeRule.ruleID, id ∉ seen := by
  induction rules generalizing seen with
  | nil => exact ⟨List.nodup_nil, nofun⟩
  | cons rule rules ih =>
    unfold validateProbeRules at h
    cases hrule : validateProbeRule rule with
    | error e => simp [hrule, bind, Except.bind] at h
    | ok u =>
      simp only [hrule, bind, Except.bind] at h
      split_ifs at h with hseen
      obtain ⟨hnodup, hfresh⟩ := ih h
      refine ⟨List.nodup_cons.mpr ⟨fun hmem => hfresh _ hmem List.mem_cons_self, hnodup⟩, ?_⟩
      refine List.forall_mem_cons.mpr ⟨hseen, fun id hid hmem => ?_⟩
      exact hfresh id hid (List.mem_cons_of_mem _ hmem)

/-- What an accepted target is made of. -/
structure Valid (r : Registry) (target : ServiceTarget) : Prop where
  schemaVersion : target.schemaVersion = schemaVersionV1
  targetID : validIdentifier target.targetID = true
  allowed : r.allowedTargets.lookup target.targetID = some (lit "docker")
  adapterType : target.adapterType = lit "docker"
  selector : matchesSelector target.selector = true
  nonempty : elems target.probeRules ≠ []
  bounded : (elems target.probeRules).length ≤ maxProbeRules
  rules : ∀ rule ∈ elems target.probeRules, ValidRule rule
  distinct : ((elems target.probeRules).map ProbeRule.ruleID).Nodup
  redactionProfile : target.evidencePolicy.redactionProfile = lit "default" ∨
    target.evidencePolicy.redactionProfile = lit "strict"

theorem valid_of_validateTarget {r : Registry} {target : ServiceTarget}
    (h : r.validateTarget target = .ok ()) : Valid r target := by
  unfold Registry.validateTarget at h
  split at h
  case isTrue => cases h
  case isFalse hheader =>
  split at h
  case h_1 => cases h
  case h_2 allowedAdapter hallowed =>
  split at h
  case isTrue => cases h
  case isFalse hadapter =>
  split at h
  case isTrue => cases h
  case isFalse hselector =>
  split at h
  case isTrue => cases h
  case isFalse hcount =>
  cases hrules : validateProbeRules [] (elems target.probeRules) with
  | error e => simp [hrules, bind, Except.bind] at h
  | ok u =>
    simp only [hrules, bind, Except.bind] at h
    split at h
    case isTrue => cases h
    case isFalse hevidence =>
    simp only [Bool.or_eq_true, Bool.and_eq_true, Bool.not_eq_true', decide_eq_true_eq, not_or,
      not_and, ne_eq, not_not, Bool.not_eq_false, List.length_eq_zero_iff,
      Nat.not_lt] at hheader hadapter hselector hcount hevidence
    refine ⟨hheader.1, hheader.2, ?_, hadapter.2, hselector.1, hcount.1, hcount.2,
      valid_of_validateProbeRules hrules, (distinct_of_validateProbeRules hrules).1, ?_⟩
    · rw [hallowed, ← hadapter.1, hadapter.2]
    · by_cases hfirst : target.evidencePolicy.redactionProfile = lit "default"
      · exact .inl hfirst
      · exact .inr (hevidence.1.1 hfirst)

/-! ## What is written of it -/

theorem plain_of_identifierByte {b : UInt8} (h : identifierByte b = true) : plainByte b = true := by
  simp only [identifierByte, alphanumeric, plainByte, Bool.or_eq_true, Bool.and_eq_true,
    decide_eq_true_eq, UInt8.le_iff_toNat_le, UInt8.lt_iff_toNat_lt, ← UInt8.toNat_inj, ne_eq,
    UInt8.reduceToNat] at h ⊢
  omega

theorem plain_of_matchesIdentifier {value : Bytes} (h : matchesIdentifier value = true) :
    value.all plainByte = true ∧ value.length ≤ 96 := by
  cases value with
  | nil => cases h
  | cons b rest =>
    simp only [matchesIdentifier, Bool.and_eq_true, decide_eq_true_eq] at h
    obtain ⟨⟨hfirst, hlength⟩, hrest⟩ := h
    have hbyte : identifierByte b = true := by simp [identifierByte, hfirst]
    refine ⟨?_, by rw [List.length_cons]; omega⟩
    rw [List.all_cons, plain_of_identifierByte hbyte, Bool.true_and, List.all_eq_true]
    exact fun c hc => plain_of_identifierByte (List.all_eq_true.mp hrest c hc)

theorem plain_of_validIdentifier {value : Bytes} (h : validIdentifier value = true) :
    value.all plainByte = true ∧ value.length ≤ 96 := by
  simp only [validIdentifier, Bool.and_eq_true] at h
  exact plain_of_matchesIdentifier h.1.2

theorem plain_of_matchesSelector {value : Bytes} (h : matchesSelector value = true) :
    value.all plainByte = true ∧ value.length ≤ 112 := by
  obtain ⟨kind, hkind, hmatch⟩ := List.any_eq_true.mp h
  simp only [Bool.and_eq_true, List.isPrefixOf_iff_prefix] at hmatch
  obtain ⟨⟨rest, rfl⟩, hrest⟩ := hmatch
  rw [List.drop_left] at hrest
  obtain ⟨hplain, hlength⟩ := plain_of_matchesIdentifier hrest
  have hkinds : kind.all plainByte = true ∧ kind.length ≤ 16 := by
    rcases List.mem_cons.mp hkind with rfl | hkind
    · decide
    · rw [List.mem_singleton.mp hkind]
      decide
  refine ⟨?_, by rw [List.length_append]; omega⟩
  rw [List.all_append, hkinds.1, hplain, Bool.and_self]

theorem validString_of_plain {value : Bytes} (h : value.all plainByte = true) :
    Utf8.validString value = true := by
  refine Utf8.validString_ascii fun b hb => ?_
  have hplain := List.all_eq_true.mp h b hb
  simp only [plainByte, Bool.and_eq_true, decide_eq_true_eq] at hplain
  exact hplain.1.1.1.1.1.2

theorem toValidUTF8_of_plain {value : Bytes} (h : value.all plainByte = true) :
    Utf8.toValidUTF8 value = value :=
  Utf8.toValidUTF8_of_valid (validString_of_plain h)

namespace ValidRule

variable {rule : ProbeRule}

theorem plain_signalType (h : ValidRule rule) :
    rule.signalType.all plainByte = true ∧ rule.signalType.length ≤ 12 := by
  rcases h.signalType with heq | heq | heq <;> rw [heq] <;> decide

theorem norm_eq (h : ValidRule rule) : ProbeRule.codec.norm rule = rule := by
  have hid := toValidUTF8_of_plain (plain_of_validIdentifier h.ruleID).1
  have hsignal := toValidUTF8_of_plain h.plain_signalType.1
  have hseverity : Severity.codec.norm rule.severity = rule.severity := by
    rcases h.severity with heq | heq | heq <;> rw [heq] <;> decide +kernel
  change ProbeRule.mk (Utf8.toValidUTF8 rule.ruleID)
    (Utf8.toValidUTF8 rule.signalType) rule.interval
    rule.timeout rule.threshold rule.consecutiveFailures rule.recoverySamples rule.sloWindow
    (Severity.codec.norm rule.severity) = rule
  rw [hid, hsignal, hseverity]

theorem writes (h : ValidRule rule) : ProbeRule.codec.Writes rule := by
  have hthreshold : Codec.float64.Writes rule.threshold := by
    obtain ⟨x, hx⟩ := Float64.eq_finite h.finite
    exact ⟨.num x.toNumber, by rw [hx]; rfl⟩
  refine Codec.writes_struct ?_
  simp only [ProbeRule.fields, List.forall_mem_cons, List.not_mem_nil, false_imp_iff,
    implies_true, and_true]
  refine ⟨?_, ?_, ?_, ?_, Member.writes_of hthreshold, ?_, ?_, ?_, ?_⟩
  all_goals exact Member.writes_of ⟨_, rfl⟩

theorem within (h : ValidRule rule) (hfloat : rule.threshold.Representable) :
    ProbeRule.codec.Within 850 rule := by
  have hid := plain_of_validIdentifier h.ruleID
  have hsignal := h.plain_signalType
  have hseverity : (Severity.text rule.severity).length ≤ 8 := by
    rcases h.severity with heq | heq | heq <;> rw [heq] <;> decide
  refine Codec.within_struct
    (.cons (Codec.size_le (Codec.within_plain (n := 98) hid.1 (by omega)))
    (.cons (Codec.size_le (Codec.within_plain (n := 14) hsignal.1 (by omega)))
    (.cons (Codec.size_le (Codec.within_duration _))
    (.cons (Codec.size_le (Codec.within_duration _))
    (.cons (Codec.size_le (Codec.within_float64 hfloat))
    (.cons (Codec.size_le (Codec.within_int64 _)) (.cons (Codec.size_le (Codec.within_int64 _))
    (.cons (Codec.size_le (Codec.within_duration _))
    (.cons (Codec.size_le (Codec.within_named hseverity)) .nil))))))))) ?_
  decide +kernel

end ValidRule

namespace Valid

variable {r : Registry} {target : ServiceTarget}

theorem norm_eq (h : Valid r target) : ServiceTarget.codec.norm target = target := by
  have hrules : (Codec.slice ProbeRule.codec).norm target.probeRules = target.probeRules := by
    cases hslice : target.probeRules with
    | none => rfl
    | some rules =>
      have hvalid := h.rules
      rw [hslice] at hvalid
      have hmap : rules.map ProbeRule.codec.norm = rules.map id :=
        List.map_congr_left fun rule hrule => (hvalid rule hrule).norm_eq
      rw [List.map_id] at hmap
      exact congrArg some hmap
  have hpolicy : EvidencePolicy.codec.norm target.evidencePolicy = target.evidencePolicy := by
    have hprofile : Utf8.toValidUTF8 target.evidencePolicy.redactionProfile =
        target.evidencePolicy.redactionProfile := by
      rcases h.redactionProfile with heq | heq <;> rw [heq] <;> decide +kernel
    exact congrArg (EvidencePolicy.mk · target.evidencePolicy.maxBytes) hprofile
  have hversion : Utf8.toValidUTF8 target.schemaVersion = target.schemaVersion := by
    rw [h.schemaVersion]
    decide +kernel
  have hadapter : Utf8.toValidUTF8 target.adapterType = target.adapterType := by
    rw [h.adapterType]
    decide +kernel
  change ServiceTarget.mk (Utf8.toValidUTF8 target.schemaVersion) (Utf8.toValidUTF8 target.targetID)
    (Utf8.toValidUTF8 target.adapterType) (Utf8.toValidUTF8 target.selector)
    ((Codec.slice ProbeRule.codec).norm target.probeRules)
    (EvidencePolicy.codec.norm target.evidencePolicy) target.stabilizationPolicy
      target.enabled = target
  rw [hrules, hpolicy, hversion, hadapter,
    toValidUTF8_of_plain (plain_of_validIdentifier h.targetID).1,
    toValidUTF8_of_plain (plain_of_matchesSelector h.selector).1]

theorem writes (h : Valid r target) : ServiceTarget.codec.Writes target := by
  have hrules : (Codec.slice ProbeRule.codec).Writes target.probeRules :=
    Codec.writes_slice fun rule hrule => (h.rules rule hrule).writes
  refine Codec.writes_struct ?_
  simp only [ServiceTarget.fields, List.forall_mem_cons, List.not_mem_nil, false_imp_iff,
    implies_true, and_true]
  refine ⟨?_, ?_, ?_, ?_, Member.writes_of hrules, ?_, ?_, ?_⟩
  all_goals exact Member.writes_of ⟨_, rfl⟩

theorem within (h : Valid r target)
    (hfloat : ∀ rule ∈ elems target.probeRules, rule.threshold.Representable) :
    ServiceTarget.codec.Within 65000 target := by
  have hversion : target.schemaVersion.all plainByte = true ∧ target.schemaVersion.length ≤ 2 := by
    rw [h.schemaVersion]
    decide
  have hadapter : target.adapterType.all plainByte = true ∧ target.adapterType.length ≤ 6 := by
    rw [h.adapterType]
    decide
  have hprofile : target.evidencePolicy.redactionProfile.all plainByte = true ∧
      target.evidencePolicy.redactionProfile.length ≤ 7 := by
    rcases h.redactionProfile with heq | heq <;> rw [heq] <;> decide
  have hid := plain_of_validIdentifier h.targetID
  have hselector := plain_of_matchesSelector h.selector
  have hrules : (Codec.slice ProbeRule.codec).Within (64 * 851 + 2) target.probeRules := by
    have hbounded := h.bounded
    have hvalid := h.rules
    cases hslice : target.probeRules with
    | none => exact absurd (congrArg elems hslice) h.nonempty
    | some rules =>
      rw [hslice] at hbounded hvalid hfloat
      refine (Codec.within_slice fun rule hrule =>
        (hvalid rule hrule).within (hfloat rule hrule)).mono ?_
      exact Nat.add_le_add_right (Nat.mul_le_mul_right 851 hbounded) 2
  have hevidence : EvidencePolicy.codec.Within 70 target.evidencePolicy := by
    refine Codec.within_struct
      (.cons (Codec.size_le (Codec.within_plain (n := 9) hprofile.1 (by omega)))
      (.cons (Codec.size_le (Codec.within_int64 _)) .nil)) ?_
    decide +kernel
  have hstabilization : StabilizationPolicy.codec.Within 210 target.stabilizationPolicy := by
    refine Codec.within_struct (.cons (Codec.size_le (Codec.within_int64 _))
      (.cons (Codec.size_le (Codec.within_duration _)) .nil)) ?_
    decide +kernel
  refine Codec.within_struct
    (.cons (Codec.size_le (Codec.within_plain (n := 4) hversion.1 (by omega)))
    (.cons (Codec.size_le (Codec.within_plain (n := 98) hid.1 (by omega)))
    (.cons (Codec.size_le (Codec.within_plain (n := 8) hadapter.1 (by omega)))
    (.cons (Codec.size_le (Codec.within_plain (n := 114) hselector.1 (by omega)))
    (.cons (Codec.size_le hrules) (.cons (Codec.size_le hevidence)
    (.cons (Codec.size_le hstabilization)
    (.cons (Codec.size_le (Codec.within_bool _)) .nil)))))))) ?_
  decide +kernel

theorem cloneTarget_eq (h : Valid r target) : cloneTarget target = target := by
  have hrules : (elems target.probeRules).isEmpty = false := by simpa using h.nonempty
  simp [cloneTarget, hrules]

end Valid

def persistedDocument : Document PersistedTarget where
  codec := PersistedTarget.codec
  version := PersistedTarget.schemaVersion
  header := header_of_members (by decide +kernel)

variable {r : Registry} {target : ServiceTarget}

theorem Valid.marshal (h : Valid r target) (version : UInt64) :
    ∃ document, PersistedTarget.codec.marshal ⟨schemaVersionV1, version, target⟩ =
      some document := by
  refine Codec.marshal_of_writes (Codec.writes_struct ?_)
  simp only [PersistedTarget.fields, List.forall_mem_cons, List.not_mem_nil, false_imp_iff,
    implies_true, and_true]
  exact ⟨Member.writes_of ⟨_, rfl⟩, Member.writes_of ⟨_, rfl⟩, Member.writes_of h.writes⟩

theorem Valid.decodePersistedTarget_marshal (h : Valid r target)
    (hfloat : ∀ rule ∈ elems target.probeRules, rule.threshold.Representable) {version : UInt64}
    {document : Bytes}
    (hdocument : PersistedTarget.codec.marshal ⟨schemaVersionV1, version, target⟩ = some document) :
    decodePersistedTarget document = .ok ⟨schemaVersionV1, version, target⟩ := by
  have hversion : Codec.string.Within 4 schemaVersionV1 :=
    Codec.within_plain (by decide) (by decide)
  have hsize : PersistedTarget.codec.Within
    maxDocumentBytes ⟨schemaVersionV1, version, target⟩ := by
    refine Codec.within_struct (.cons (Codec.size_le hversion)
      (.cons (Codec.size_le (Codec.within_uint64 _))
      (.cons (Codec.size_le (h.within hfloat)) .nil))) ?_
    decide +kernel
  have hclean : Utf8.toValidUTF8 schemaVersionV1 = schemaVersionV1 := by decide +kernel
  have hnorm : PersistedTarget.codec.norm ⟨schemaVersionV1, version, target⟩ =
      ⟨schemaVersionV1, version, target⟩ := by
    change PersistedTarget.mk (Utf8.toValidUTF8 schemaVersionV1) version
      (ServiceTarget.codec.norm target) = _
    rw [h.norm_eq, hclean]
  have hdecode := decode_marshal persistedDocument ⟨maxDocumentBytes, schemaVersionV1, fun value =>
      if value.schemaVersion ≠ schemaVersionV1 || value.target.schemaVersion ≠ schemaVersionV1 then
        .error errInvalidTarget
      else .ok ()⟩ hdocument ⟨by decide, by decide⟩
    (Int.ofNat_le.mpr (hsize document hdocument)) hclean
  rw [show persistedDocument.codec.norm _ = _ from hnorm] at hdecode
  unfold decodePersistedTarget
  rw [show decode PersistedTarget.codec _ document = _ from hdecode]
  simp [h.schemaVersion, Except.map]

end PulseAgent.Target
