import PulseAgent.Go.Sort
import PulseAgent.Target.Document

/-!
# Registrations and restarts

The documents of the store are those of the accepted targets, in the order of acceptance by their
versions, and a restart builds from them the snapshot that was in memory.
-/

namespace PulseAgent.Target

open Go Go.Json Contract Audit

/-! ## One registration -/

section

variable {r : Registry} {answers : Answers} {registration : Registration} {s s' : Store}

theorem registerTx_ok {result : Option Error} :
    r.registerTx answers registration s = .ok (result, s') ↔ registration.target.targetID ≠ [] ∧
      (((s .serviceTargets)[registration.target.targetID]?.isSome = true ∧
          result = some errDuplicateTarget ∧
          appendAudit answers registration (auditAggregateID registration.target.targetID)
            (lit "rejected") (lit "duplicate_target") none s = .ok ((), s')) ∨
        ((s .serviceTargets)[registration.target.targetID]? = none ∧
          r.maxTargets.toInt ≤ r.snapshot.targets.length ∧ result = some errTargetLimit ∧
          appendAudit answers registration (auditAggregateID registration.target.targetID)
            (lit "rejected") (lit "target_limit_reached") none s = .ok ((), s')) ∨
        ((s .serviceTargets)[registration.target.targetID]? = none ∧
          r.snapshot.targets.length < r.maxTargets.toInt ∧ result = none ∧
          ∃ document, PersistedTarget.codec.marshal
              ⟨schemaVersionV1, r.snapshot.version + 1, cloneTarget registration.target⟩ =
                some document ∧
            appendAudit answers registration (auditAggregateID registration.target.targetID)
              (lit "accepted") registration.reasonCode
              (some (.put .serviceTargets registration.target.targetID document .ret)) s =
                .ok ((), s'))) := by
  unfold Registry.registerTx
  rw [Tx.bind_get_ok]
  refine and_congr_right fun _ => ?_
  cases hfound : (s .serviceTargets)[registration.target.targetID]? with
  | some document =>
    rw [if_pos (by rfl), Tx.bind_pure_ok]
    simp [and_comm]
  | none =>
    rw [if_neg (by simp)]
    by_cases hlimit : r.maxTargets.toInt ≤ r.snapshot.targets.length
    · rw [if_pos hlimit, Tx.bind_pure_ok]
      simp [hlimit, Int.not_lt.mpr hlimit, and_comm]
    · rw [if_neg hlimit, Tx.bind_liftExcept_ok]
      simp only [Tx.bind_pure_ok, encode_ok, Option.isSome_none, Bool.false_eq_true, false_and,
        hlimit, and_false, true_and, false_or, Int.not_le.mp hlimit]
      constructor
      · rintro ⟨document, hmarshal, happend, rfl⟩
        exact ⟨rfl, document, hmarshal, happend⟩
      · rintro ⟨rfl, document, hmarshal, happend⟩
        exact ⟨document, hmarshal, happend, rfl⟩

section

variable {aggregateID result reason : Bytes}

theorem targets_of_rejected
    (h : appendAudit answers registration aggregateID result reason none s = .ok ((), s')) :
    s' .serviceTargets = s .serviceTargets := by
  obtain ⟨id, appended, -, -, happend⟩ := Answers.appendAudit_ok.mp h
  obtain ⟨s1, hother, rfl⟩ := append_change happend
  exact hother _ (by decide)

theorem targets_of_accepted {key document : Bytes}
    (h : appendAudit answers registration aggregateID result reason
      (some (.put .serviceTargets key document .ret)) s = .ok ((), s')) (hkey : key ≠ []) :
    s' .serviceTargets = (s .serviceTargets).insert key document := by
  obtain ⟨id, appended, -, -, happend⟩ := Answers.appendAudit_ok.mp h
  obtain ⟨s1, hother, hrun⟩ := append_change happend
  have hput : Tx.put .serviceTargets key document s = .ok ((),
      Function.update s .serviceTargets ((s .serviceTargets).insert key document)) :=
    Tx.put_ok.mpr ⟨by decide, hkey, rfl⟩
  simp only [TxProg.run, TxProg.step, hput, Except.map, Except.ok.injEq, Prod.mk.injEq,
    true_and] at hrun
  rw [hother _ (by decide), ← hrun, Function.update_self]

end

/-- A registration without an error has added the target; any other has left everything alone. -/
theorem register_cases (r : Registry) (answers : Answers)
    (registration : Registration) (s : Store) :
    ((r.register answers registration s).error ≠ none ∧
      (r.register answers registration s).registry = r ∧
      (r.register answers registration s).store .serviceTargets = s .serviceTargets) ∨
    ((r.register answers registration s).error = none ∧
      r.validateTarget registration.target = .ok () ∧
      (s .serviceTargets)[registration.target.targetID]? = none ∧
      r.snapshot.targets.length < r.maxTargets.toInt ∧
      (r.register answers registration s).registry =
        { r with snapshot := r.snapshot.add registration.target } ∧
      ∃ document, PersistedTarget.codec.marshal
          ⟨schemaVersionV1, r.snapshot.version + 1, cloneTarget registration.target⟩ =
            some document ∧
        (r.register answers registration s).store .serviceTargets =
          (s .serviceTargets).insert registration.target.targetID document) := by
  unfold Registry.register
  split
  case isTrue => exact .inl ⟨nofun, rfl, rfl⟩
  case isFalse =>
    cases hvalidate : r.validateTarget registration.target with
    | error err =>
      left
      dsimp only
      split
      case h_1 auditErr s' hcommit =>
        exact ⟨nofun, rfl, by rw [Answers.commit_error hcommit]⟩
      case h_2 s' hcommit =>
        exact ⟨nofun, rfl, targets_of_rejected (Answers.commit_ok.mp hcommit).2⟩
    | ok u =>
      dsimp only
      split
      case h_1 e s' hcommit => exact .inl ⟨nofun, rfl, by rw [Answers.commit_error hcommit]⟩
      case h_2 rejected s' hcommit =>
        left
        refine ⟨nofun, rfl, ?_⟩
        obtain ⟨-, ⟨-, -, happend⟩ | ⟨-, -, -, happend⟩ | ⟨-, -, hnone, -⟩⟩ :=
          registerTx_ok.mp (Answers.commit_ok.mp hcommit).2
        · exact targets_of_rejected happend
        · exact targets_of_rejected happend
        · cases hnone
      case h_3 s' hcommit =>
        obtain ⟨hkey, ⟨-, hsome, -⟩ | ⟨-, -, hsome, -⟩
          | ⟨habsent, hlimit, -, document, hmarshal, happend⟩⟩ :=
          registerTx_ok.mp (Answers.commit_ok.mp hcommit).2
        · cases hsome
        · cases hsome
        · exact .inr ⟨rfl, rfl, habsent, hlimit, rfl, document, hmarshal,
            targets_of_accepted happend hkey⟩

end

/-! ## Runs -/

/-- A process that holds a registry, and the targets accepted since the store was made. -/
structure Process where
  accepted : List ServiceTarget
  registry : Registry
  store : Store

/-- Every threshold of the target is the shortest text of a `float64`. -/
def Representable (target : ServiceTarget) : Prop :=
  ∀ rule ∈ elems target.probeRules, rule.threshold.Representable

def Process.register (p : Process) (answers : Answers) (registration : Registration) : Process :=
  let result := p.registry.register answers registration p.store
  { accepted := if result.error = none then p.accepted ++ [registration.target] else p.accepted
    registry := result.registry
    store := result.store }

/-- What processes with these options reach, one after the other on one store: a first start on a
store without targets, registrations that end in any way, restarts at any point, and changes that
other components make to the store. -/
inductive Reachable (options : Options) : Process → Prop where
  | start {s : Store} {r : Registry} (hempty : s .serviceTargets = ∅)
    (hnew : newRegistry options s = .ok r) : Reachable options ⟨[], r, s⟩
  | register {p : Process} (h : Reachable options p) (answers : Answers)
    (registration : Registration) (hfloat : Representable registration.target) :
    Reachable options (p.register answers registration)
  | restart {p : Process} {r : Registry} (h : Reachable options p)
    (hnew : newRegistry options p.store = .ok r) : Reachable options { p with registry := r }
  | other {p : Process} {s : Store} (h : Reachable options p)
    (hkept : s .serviceTargets = p.store .serviceTargets) : Reachable options { p with store := s }

/-! ## What a restart reads -/

theorem sortTargets_eq (targets : List ServiceTarget) :
    sortTargets targets = sortBy ServiceTarget.targetID targets := rfl

/-- The record an entry of the bucket holds, if it can be read. -/
def recordOf (entry : Bytes × Bytes) : PersistedTarget :=
  (decodePersistedTarget entry.2).toOption.getD {}

/-- The entry passes the checks of `load`. -/
structure Loads (r : Registry) (entry : Bytes × Bytes) : Prop where
  decode : decodePersistedTarget entry.2 = .ok (recordOf entry)
  key : entry.1 = (recordOf entry).target.targetID
  version : (recordOf entry).version ≠ 0
  valid : r.validateTarget (recordOf entry).target = .ok ()

def laterVersion (version other : UInt64) : UInt64 := if other > version then other else version

theorem Loads.loadRecord {r : Registry} {entry : Bytes × Bytes} (h : Loads r entry)
    (loaded : Snapshot) : r.loadRecord loaded entry.1 entry.2 = .ok
      { loaded with
        targets := loaded.targets ++ [(recordOf entry).target]
        version := laterVersion loaded.version (recordOf entry).version } := by
  have hclone := (valid_of_validateTarget h.valid).cloneTarget_eq
  simp [Registry.loadRecord, h.decode, ← h.key, h.version, h.valid, hclone, laterVersion, bind,
    Except.bind, pure, Except.pure]

theorem foldlM_loadRecord {r : Registry} {entries : List (Bytes × Bytes)}
    (h : ∀ entry ∈ entries, Loads r entry) (loaded : Snapshot) :
    entries.foldlM (fun acc entry => r.loadRecord acc entry.1 entry.2) loaded = .ok
      { loaded with
        targets := loaded.targets ++ entries.map fun entry => (recordOf entry).target
        version := (entries.map fun entry => (recordOf entry).version).foldl laterVersion
          loaded.version } := by
  induction entries generalizing loaded with
  | nil => simp [pure, Except.pure]
  | cons entry entries ih =>
    obtain ⟨hentry, hentries⟩ := List.forall_mem_cons.mp h
    rw [List.foldlM_cons, hentry.loadRecord]
    exact (ih hentries _).trans (by simp)

theorem foldl_laterVersion {versions : List UInt64} {init top : UInt64} (hinit : init ≤ top)
    (hle : ∀ version ∈ versions, version ≤ top) (htop : init = top ∨ top ∈ versions) :
    versions.foldl laterVersion init = top := by
  induction versions generalizing init with
  | nil => simpa using htop
  | cons version versions ih =>
    obtain ⟨hversion, hrest⟩ := List.forall_mem_cons.mp hle
    rw [List.foldl_cons]
    refine ih ?_ hrest ?_
    · unfold laterVersion
      split_ifs
      · exact hversion
      · exact hinit
    · unfold laterVersion
      rcases htop with rfl | htop
      · rw [if_neg (UInt64.not_lt.mpr hversion)]
        exact .inl rfl
      · rcases List.mem_cons.mp htop with rfl | htop
        · split_ifs with hlt
          · exact .inl rfl
          · exact .inl (UInt64.le_antisymm hinit (UInt64.not_lt.mp hlt))
        · exact .inr htop

/-! ## The invariant -/

/-- The registry has the settings of the options, which are in bounds. -/
structure Configured (options : Options) (r : Registry) : Prop where
  allowed : allowedTargetMap [] options.allowedTargets = .ok r.allowedTargets
  maxTargets : r.maxTargets = options.maxTargets
  maxEvidenceBytes : r.maxEvidenceBytes = options.maxEvidenceBytes
  bounds : (options.maxTargets < 1 || options.maxTargets > Target.maxTargets ||
    options.maxEvidenceBytes < 1) = false

/-- The registry before it has loaded anything. -/
def Registry.blank (r : Registry) : Registry :=
  ⟨r.allowedTargets, r.maxTargets, r.maxEvidenceBytes, emptySnapshot⟩

theorem Configured.newRegistry_eq {options : Options} {r : Registry} (h : Configured options r)
    (s : Store) : newRegistry options s = r.blank.load s := by
  unfold newRegistry
  rw [h.allowed]
  dsimp only
  rw [if_neg (Bool.eq_false_iff.mp h.bounds), Registry.blank, h.maxTargets,
    h.maxEvidenceBytes]

theorem Configured.maxTargets_le {options : Options} {r : Registry} (h : Configured options r) :
    r.maxTargets.toInt ≤ 10000 := by
  have hbounds := h.bounds
  simp only [Bool.or_eq_false_iff, decide_eq_false_iff_not, gt_iff_lt, Int64.not_lt] at hbounds
  rw [h.maxTargets]
  exact Int64.le_iff_toInt_le.mp hbounds.1.2

theorem configured_of_newRegistry {options : Options} {r : Registry} {s : Store}
    (h : newRegistry options s = .ok r) : Configured options r := by
  unfold newRegistry at h
  split at h
  case h_1 => cases h
  case h_2 allowed hallowed =>
    split at h
    case isTrue => cases h
    case isFalse hbounds =>
      obtain ⟨loaded, -, hrest⟩ := except_bind_ok.mp h
      split at hrest
      case isTrue => cases hrest
      case isFalse =>
        cases hrest
        exact ⟨hallowed, rfl, rfl, Bool.eq_false_iff.mpr hbounds⟩

/-- The store holds the accepted targets under their versions, and the snapshot shows them. -/
structure Holds (options : Options) (p : Process) : Prop where
  configured : Configured options p.registry
  valid : ∀ target ∈ p.accepted, p.registry.validateTarget target = .ok () ∧ Representable target
  distinct : (p.accepted.map ServiceTarget.targetID).Nodup
  bounded : p.accepted.length ≤ p.registry.maxTargets.toInt
  stored : ∀ key document, (p.store .serviceTargets)[key]? = some document ↔
    ∃ i target, p.accepted[i]? = some target ∧ key = target.targetID ∧
      PersistedTarget.codec.marshal ⟨schemaVersionV1, .ofNat (i + 1), target⟩ = some document
  snapshot : p.registry.snapshot =
    ⟨schemaVersionV1, .ofNat p.accepted.length, sortTargets p.accepted⟩

namespace Holds

variable {options : Options} {p : Process}

theorem length_lt (h : Holds options p) : p.accepted.length + 1 < UInt64.size := by
  have hbounded := h.bounded
  have hmax := h.configured.maxTargets_le
  rw [UInt64.size]
  omega

theorem toNat_version (h : Holds options p) :
    p.registry.snapshot.version.toNat = p.accepted.length := by
  rw [h.snapshot]
  exact UInt64.toNat_ofNat_of_lt' (by have := h.length_lt; omega)

theorem loads {i : Nat} {target : ServiceTarget} {key document : Bytes} (h : Holds options p)
    (htarget : p.accepted[i]? = some target) (hkey : key = target.targetID)
    (hmarshal : PersistedTarget.codec.marshal ⟨schemaVersionV1, .ofNat (i + 1), target⟩ =
      some document) :
    recordOf (key, document) = ⟨schemaVersionV1, .ofNat (i + 1), target⟩ ∧
      Loads p.registry (key, document) := by
  obtain ⟨hvalidate, hfloat⟩ := h.valid target (List.mem_of_getElem? htarget)
  have hdecode := (valid_of_validateTarget hvalidate).decodePersistedTarget_marshal hfloat hmarshal
  have hrecord : recordOf (key, document) = ⟨schemaVersionV1, .ofNat (i + 1), target⟩ := by
    simp [recordOf, hdecode, Except.toOption]
  have hi := (List.getElem?_eq_some_iff.mp htarget).1
  have hlt := h.length_lt
  have hversion : (UInt64.ofNat (i + 1)) ≠ 0 := by
    intro hzero
    have hsmall : i + 1 < UInt64.size := by omega
    have htoNat := (UInt64.toNat_ofNat_of_lt' hsmall).symm.trans (congrArg UInt64.toNat hzero)
    exact absurd htoNat (Nat.succ_ne_zero i)
  refine ⟨hrecord, ?_, ?_, ?_, ?_⟩
  all_goals rw [hrecord]
  · exact hdecode
  · exact hkey
  · exact hversion
  · exact hvalidate

theorem loads_of_mem (h : Holds options p) {entry : Bytes × Bytes}
    (hentry : entry ∈ (p.store .serviceTargets).toList) :
    Loads p.registry entry ∧ ∃ i, p.accepted[i]? = some (recordOf entry).target ∧
      (recordOf entry).version = .ofNat (i + 1) := by
  obtain ⟨i, target, htarget, hkey, hmarshal⟩ := (h.stored entry.1 entry.2).mp
    (Std.ExtTreeMap.mem_toList_iff_getElem?_eq_some.mp hentry)
  obtain ⟨hrecord, hloads⟩ := h.loads htarget hkey hmarshal
  exact ⟨hloads, i, by rw [hrecord]; exact htarget, by rw [hrecord]⟩

theorem entry_of_accepted (h : Holds options p) {i : Nat} {target : ServiceTarget}
    (htarget : p.accepted[i]? = some target) :
    ∃ entry ∈ (p.store .serviceTargets).toList, recordOf entry =
      ⟨schemaVersionV1, .ofNat (i + 1), target⟩ := by
  obtain ⟨hvalidate, -⟩ := h.valid target (List.mem_of_getElem? htarget)
  obtain ⟨document, hmarshal⟩ := (valid_of_validateTarget hvalidate).marshal (.ofNat (i + 1))
  refine ⟨(target.targetID, document), ?_, (h.loads htarget rfl hmarshal).1⟩
  exact Std.ExtTreeMap.mem_toList_iff_getElem?_eq_some.mpr
    ((h.stored _ _).mpr ⟨i, target, htarget, rfl, hmarshal⟩)

theorem targets_perm (h : Holds options p) :
    ((p.store .serviceTargets).toList.map fun entry => (recordOf entry).target).Perm
      p.accepted := by
  have hkeys : ((p.store .serviceTargets).toList.map fun entry => (recordOf entry).target).map
      ServiceTarget.targetID = (p.store .serviceTargets).toList.map Prod.fst := by
    rw [List.map_map]
    exact List.map_congr_left fun entry hentry => (h.loads_of_mem hentry).1.key.symm
  have hnodup : ((p.store .serviceTargets).toList.map fun entry =>
    (recordOf entry).target).Nodup := by
    refine List.Nodup.of_map ServiceTarget.targetID ?_
    rw [hkeys]
    exact Codec.nodup_keys _
  refine (List.perm_ext_iff_of_nodup hnodup (List.Nodup.of_map _ h.distinct)).mpr fun target => ?_
  rw [List.mem_map, List.mem_iff_getElem?]
  constructor
  · rintro ⟨entry, hentry, rfl⟩
    obtain ⟨-, i, hi, -⟩ := h.loads_of_mem hentry
    exact ⟨i, hi⟩
  · rintro ⟨i, hi⟩
    obtain ⟨entry, hentry, hrecord⟩ := h.entry_of_accepted hi
    exact ⟨entry, hentry, by rw [hrecord]⟩

theorem version_le (h : Holds options p) {i : Nat} {target : ServiceTarget}
    (htarget : p.accepted[i]? = some target) :
    UInt64.ofNat (i + 1) ≤ .ofNat p.accepted.length := by
  have hi := (List.getElem?_eq_some_iff.mp htarget).1
  have hlt := h.length_lt
  rw [UInt64.le_iff_toNat_le, UInt64.toNat_ofNat_of_lt' (by omega),
    UInt64.toNat_ofNat_of_lt' (by omega)]
  exact hi

/-- A restart finds the snapshot that is in memory. -/
theorem newRegistry_eq (h : Holds options p) : newRegistry options p.store = .ok p.registry := by
  have hloads : ∀ entry ∈ (p.store .serviceTargets).toList,
      Loads p.registry.blank entry := by
    intro entry hentry
    obtain ⟨hdecode, hkey, hversion, hvalid⟩ := (h.loads_of_mem hentry).1
    exact ⟨hdecode, hkey, hversion, hvalid⟩
  have hversion : ((p.store .serviceTargets).toList.map fun entry => (recordOf entry).version).foldl
      laterVersion 0 = .ofNat p.accepted.length := by
    refine foldl_laterVersion (by simp [UInt64.le_iff_toNat_le]) ?_ ?_
    · intro version hmem
      obtain ⟨entry, hentry, rfl⟩ := List.mem_map.mp hmem
      obtain ⟨-, i, hi, heq⟩ := h.loads_of_mem hentry
      rw [heq]
      exact h.version_le hi
    · -- the last accepted target has the highest version
      by_cases hempty : p.accepted = []
      · rw [hempty]
        exact .inl rfl
      · have hpos := List.length_pos_iff.mpr hempty
        obtain ⟨entry, hentry, hrecord⟩ := h.entry_of_accepted
          (List.getElem?_eq_getElem (Nat.sub_lt hpos Nat.one_pos))
        refine .inr (List.mem_map.mpr ⟨entry, hentry, ?_⟩)
        rw [hrecord, Nat.sub_add_cancel hpos]
  have hload : Store.view (Tx.forEach .serviceTargets emptySnapshot p.registry.blank.loadRecord)
      p.store = .ok ⟨schemaVersionV1, .ofNat p.accepted.length,
        (p.store .serviceTargets).toList.map fun entry => (recordOf entry).target⟩ := by
    rw [Store.view, Tx.forEach_ok.mpr ⟨foldlM_loadRecord hloads emptySnapshot, rfl⟩, ← hversion]
    rfl
  have hperm := h.targets_perm
  have hnodup := (hperm.map ServiceTarget.targetID).nodup_iff.mpr h.distinct
  rw [h.configured.newRegistry_eq, Registry.load, hload]
  simp only [bind, Except.bind, pure, Except.pure]
  rw [if_neg (Int.not_lt.mpr (by rw [hperm.length_eq]; exact h.bounded)), sortTargets_eq,
    sortBy_eq_of_perm hnodup hperm, ← sortTargets_eq, ← h.snapshot]
  rfl

theorem start {s : Store} {r : Registry} (hempty : s .serviceTargets = ∅)
    (hnew : newRegistry options s = .ok r) : Holds options ⟨[], r, s⟩ := by
  have hconfigured := configured_of_newRegistry hnew
  have hbounds := hconfigured.bounds
  simp only [Bool.or_eq_false_iff, decide_eq_false_iff_not, Int64.not_lt] at hbounds
  have hload : Store.view (Tx.forEach .serviceTargets emptySnapshot r.blank.loadRecord) s =
      .ok emptySnapshot := by
    rw [Store.view, Tx.forEach, hempty]
    rfl
  have hpositive : (0 : Int) ≤ r.maxTargets.toInt := by
    rw [hconfigured.maxTargets]
    exact le_trans (by decide) (Int64.le_iff_toInt_le.mp hbounds.1.1)
  refine ⟨hconfigured, nofun, List.nodup_nil, hpositive, ?_, ?_⟩
  · simp [hempty]
  · rw [hconfigured.newRegistry_eq, Registry.load, hload] at hnew
    obtain ⟨loaded, hloaded, hrest⟩ := except_bind_ok.mp hnew
    cases hloaded
    split at hrest
    case isTrue hlimit => exact absurd hlimit (Int.not_lt.mpr hpositive)
    case isFalse => exact (congrArg Registry.snapshot (Except.ok.inj hrest)).symm

theorem keep (h : Holds options p) {s : Store}
    (hkept : s .serviceTargets = p.store .serviceTargets) :
      Holds options { p with store := s } := by
  refine ⟨h.configured, h.valid, h.distinct, h.bounded, fun key document => ?_, h.snapshot⟩
  dsimp only
  rw [hkept]
  exact h.stored key document

theorem targetID_absent (h : Holds options p) {id : Bytes}
    (habsent : (p.store .serviceTargets)[id]? = none) :
      id ∉ p.accepted.map ServiceTarget.targetID := by
  intro hmem
  obtain ⟨target, htarget, rfl⟩ := List.mem_map.mp hmem
  obtain ⟨i, hi⟩ := List.mem_iff_getElem?.mp htarget
  obtain ⟨hvalidate, -⟩ := h.valid target htarget
  obtain ⟨document, hmarshal⟩ := (valid_of_validateTarget hvalidate).marshal (.ofNat (i + 1))
  have hstored := (h.stored _ _).mpr ⟨i, target, hi, rfl, hmarshal⟩
  rw [habsent] at hstored
  cases hstored

theorem stored_insert (h : Holds options p) {target : ServiceTarget} {document : Bytes}
    (habsent : (p.store .serviceTargets)[target.targetID]? = none)
    (hmarshal : PersistedTarget.codec.marshal
      ⟨schemaVersionV1, .ofNat (p.accepted.length + 1), target⟩ = some document)
        (key other : Bytes) :
    ((p.store .serviceTargets).insert target.targetID document)[key]? = some other ↔
      ∃ i t, (p.accepted ++ [target])[i]? = some t ∧ key = t.targetID ∧
        PersistedTarget.codec.marshal ⟨schemaVersionV1, .ofNat (i + 1), t⟩ = some other := by
  have hfresh := h.targetID_absent habsent
  rw [Std.ExtTreeMap.getElem?_insert]
  constructor
  · intro hget
    split at hget
    case isTrue hkey =>
      obtain rfl := Option.some.inj hget
      refine ⟨p.accepted.length, target, by simp, ?_, hmarshal⟩
      exact (Std.LawfulEqCmp.eq_of_compare hkey).symm
    case isFalse =>
      obtain ⟨i, t, ht, hkey, hdocument⟩ := (h.stored key other).mp hget
      refine ⟨i, t, ?_, hkey, hdocument⟩
      rw [List.getElem?_append_left (List.getElem?_eq_some_iff.mp ht).1]
      exact ht
  · rintro ⟨i, t, ht, rfl, hdocument⟩
    by_cases hi : i < p.accepted.length
    · rw [List.getElem?_append_left hi] at ht
      have hne : target.targetID ≠ t.targetID := fun heq =>
        hfresh (heq ▸ List.mem_map_of_mem (List.mem_of_getElem? ht))
      rw [if_neg fun heq => hne (Std.LawfulEqCmp.eq_of_compare heq)]
      exact (h.stored _ _).mpr ⟨i, t, ht, rfl, hdocument⟩
    · rw [List.getElem?_append_right (Nat.not_lt.mp hi), List.getElem?_singleton] at ht
      split at ht
      case isTrue hzero =>
        cases ht
        obtain rfl : i = p.accepted.length := by omega
        rw [if_pos Std.ReflCmp.compare_self, ← hmarshal, hdocument]
      case isFalse => cases ht

theorem register (h : Holds options p) (answers : Answers) {registration : Registration}
    (hfloat : Representable registration.target) :
    Holds options (p.register answers registration) := by
  unfold Process.register
  dsimp only
  rcases register_cases p.registry answers registration p.store with
    ⟨herror, hregistry, hstore⟩
      | ⟨herror, hvalidate, habsent, hlimit, hregistry, document, hmarshal, hstore⟩
  · rw [if_neg herror, hregistry]
    exact h.keep hstore
  · have hvalid := valid_of_validateTarget hvalidate
    have hversion : p.registry.snapshot.version + 1 = .ofNat (p.accepted.length + 1) := by
      rw [h.snapshot, UInt64.ofNat_add]
      rfl
    rw [hvalid.cloneTarget_eq, hversion] at hmarshal
    have hdistinct : ((p.accepted ++ [registration.target]).map ServiceTarget.targetID).Nodup := by
      rw [List.map_append, List.map_singleton, List.nodup_append]
      refine ⟨h.distinct, List.nodup_singleton _, ?_⟩
      rintro id hid _ hlast rfl
      rw [List.mem_singleton] at hlast
      exact h.targetID_absent habsent (hlast ▸ hid)
    have hperm : (sortTargets p.accepted ++ [registration.target]).Perm
        (p.accepted ++ [registration.target]) :=
      (sortBy_perm ServiceTarget.targetID p.accepted).append_right _
    rw [if_pos herror, hregistry]
    refine ⟨⟨h.configured.allowed, h.configured.maxTargets, h.configured.maxEvidenceBytes,
      h.configured.bounds⟩, ?_, hdistinct, ?_, ?_, ?_⟩
    · intro target htarget
      rcases List.mem_append.mp htarget with hold | hnew
      · exact h.valid target hold
      · rw [List.mem_singleton.mp hnew]
        exact ⟨hvalidate, hfloat⟩
    · rw [h.snapshot, sortTargets_eq, length_sortBy] at hlimit
      rw [List.length_append]
      exact hlimit
    · intro key other
      dsimp only
      rw [hstore]
      exact h.stored_insert habsent hmarshal key other
    · simp only [Snapshot.add, hvalid.cloneTarget_eq, hversion, List.length_append,
        List.length_singleton, Snapshot.mk.injEq, true_and]
      rw [h.snapshot]
      exact sortBy_eq_of_perm ((hperm.map _).nodup_iff.mpr hdistinct) hperm

end Holds

theorem holds_of_reachable {options : Options} {p : Process} (h : Reachable options p) :
    Holds options p := by
  induction h with
  | start hempty hnew => exact .start hempty hnew
  | register _ answers registration hfloat ih => exact ih.register answers hfloat
  | restart _ hnew ih =>
    obtain rfl := Except.ok.inj (ih.newRegistry_eq.symm.trans hnew)
    exact ih
  | other _ hkept ih =>
    exact ih.keep hkept

/-- The version is that of a stored record, and no stored record has a higher one. -/
def HighestVersion (s : Store) (version : UInt64) : Prop :=
  (∀ key document : Bytes, (s .serviceTargets)[key]? = some document → ∃ record,
    decodePersistedTarget document = .ok record ∧ record.version ≤ version) ∧
  (s .serviceTargets ≠ ∅ → ∃ (key document : Bytes) (record : PersistedTarget),
    (s .serviceTargets)[key]? = some document ∧
    decodePersistedTarget document = .ok record ∧ record.version = version)

theorem Holds.highestVersion {options : Options} {p : Process} (h : Holds options p) :
    HighestVersion p.store p.registry.snapshot.version := by
  rw [h.snapshot]
  constructor
  · intro key document hget
    obtain ⟨hloads, i, hi, hversion⟩ := h.loads_of_mem
      (Std.ExtTreeMap.mem_toList_iff_getElem?_eq_some.mpr hget)
    exact ⟨_, hloads.decode, hversion ▸ h.version_le hi⟩
  · intro hstored
    have hnonempty : p.accepted ≠ [] := by
      intro hempty
      refine hstored (Std.ExtTreeMap.ext_getElem? fun key => ?_)
      rw [Std.ExtTreeMap.getElem?_empty, Option.eq_none_iff_forall_ne_some]
      intro document hget
      obtain ⟨i, target, hi, -⟩ := (h.stored key document).mp hget
      rw [hempty] at hi
      cases hi
    have hpos := List.length_pos_iff.mpr hnonempty
    obtain ⟨entry, hentry, hrecord⟩ := h.entry_of_accepted
      (List.getElem?_eq_getElem (Nat.sub_lt hpos Nat.one_pos))
    refine ⟨entry.1, entry.2, recordOf entry,
      Std.ExtTreeMap.mem_toList_iff_getElem?_eq_some.mp hentry,
        (h.loads_of_mem hentry).1.decode, ?_⟩
    rw [hrecord, Nat.sub_add_cancel hpos]

/-- At every point a restart finds in the store the registry that is in memory: the accepted
targets, each as it was registered and in the order of their IDs, within the limit, and the number
of them as the version. -/
theorem registry_survives_restart (options : Options) (p : Process) (h : Reachable options p) :
    newRegistry options p.store = .ok p.registry ∧
    Increasing ServiceTarget.targetID p.registry.snapshot.targets ∧
    p.registry.snapshot.targets.Perm p.accepted ∧
    p.registry.snapshot.targets.length ≤ options.maxTargets.toInt ∧
    p.registry.snapshot.version.toNat = p.registry.snapshot.targets.length ∧
    HighestVersion p.store p.registry.snapshot.version ∧
    ∀ answers registration, Representable registration.target →
      (p.register answers registration).registry.snapshot.version.toNat =
        p.registry.snapshot.version.toNat +
          if (p.registry.register answers registration p.store).error = none then 1 else 0 := by
  have hholds := holds_of_reachable h
  have hperm : p.registry.snapshot.targets.Perm p.accepted := by
    rw [hholds.snapshot]
    exact sortBy_perm _ _
  refine ⟨hholds.newRegistry_eq, ?_, hperm, ?_, ?_, hholds.highestVersion, ?_⟩
  · rw [hholds.snapshot]
    exact increasing_sortBy hholds.distinct
  · rw [hperm.length_eq, ← hholds.configured.maxTargets]
    exact hholds.bounded
  · rw [hperm.length_eq, hholds.toNat_version]
  · intro answers registration hfloat
    rw [(hholds.register answers hfloat).toNat_version, hholds.toNat_version]
    unfold Process.register
    dsimp only
    split_ifs
    · rw [List.length_append, List.length_singleton]
    · rfl

def exampleOptions : Options := ⟨[⟨lit "api", lit "docker"⟩], 2, 1024⟩

def exampleTarget : ServiceTarget :=
  { schemaVersion := schemaVersionV1
    targetID := lit "api"
    adapterType := lit "docker"
    selector := lit "container:api"
    enabled := true
    probeRules := some
      [{ ruleID := lit "up"
         signalType := lit "availability"
         interval := 30000000000
         timeout := 1000000000
         threshold := .finite (.normalize false 1 0)
         consecutiveFailures := 2
         recoverySamples := 2
         sloWindow := 300000000000
         severity := .critical }]
    evidencePolicy := { redactionProfile := lit "default", maxBytes := 1024 }
    stabilizationPolicy := { recoverySamples := 1, window := 60000000000 } }

def exampleRegistration : Registration := ⟨exampleTarget, lit "uid:0", lit "request", lit "setup"⟩

def exampleAnswers : Answers := { newID := .ok (lit "target-1"), now := 1000000000 }

def exampleRegistry : Registry := ⟨[(lit "api", lit "docker")], 2, 1024, emptySnapshot⟩

theorem newRegistry_example : newRegistry exampleOptions Store.empty = .ok exampleRegistry := by
  have hsort : sortTargets [] = [] := by simp [sortTargets]
  change Except.ok (Registry.mk _ _ _ ⟨schemaVersionV1, 0, sortTargets []⟩) = _
  rw [hsort]
  rfl

/-- The process after a first start and one registration. -/
def exampleProcess : Process :=
  Process.register ⟨[], exampleRegistry, Store.empty⟩ exampleAnswers exampleRegistration

theorem representable_exampleTarget : Representable exampleTarget := by
  intro rule hrule
  rw [List.mem_singleton.mp hrule]
  exact ⟨by decide, by decide, by decide⟩

theorem reachable_exampleProcess : Reachable exampleOptions exampleProcess :=
  .register (.start rfl newRegistry_example) exampleAnswers exampleRegistration
    representable_exampleTarget

theorem registry_survives_restart_one_target :
    Reachable exampleOptions exampleProcess ∧ exampleProcess.accepted = [exampleTarget] ∧
      newRegistry exampleOptions exampleProcess.store = .ok exampleProcess.registry := by
  refine ⟨reachable_exampleProcess, ?_,
    (registry_survives_restart exampleOptions exampleProcess reachable_exampleProcess).1⟩
  decide +kernel

end PulseAgent.Target
