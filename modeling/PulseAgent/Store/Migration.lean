import PulseAgent.Store

/-!
# Schema migrations

`migrate` follows the migrations from the stored version in a single transaction, so it ends with
the highest version and every data bucket or with the database it started from.
-/

namespace PulseAgent

open Go Std

def errUnsupportedSchema : Error := .new "unsupported local store schema"
def errIntegrity : Error := .new "local store integrity check failed"
def errStoreFull : Error := .new "local store is full"
def errLockTimeout : Error := .new "local store lock timeout"
-- the errors of bbolt and of the operating system that the store looks for
def errMaxSizeReached : Error := .new "database reached maximum size"
def errNoSpace : Error := .new "no space left on device"
def errIncompatibleValue : Error := .new "incompatible value"

def currentSchemaVersion : UInt32 := 6

def Bucket.name : Bucket → Bytes
  | configurationVersions => lit "configuration_versions"
  | incidents => lit "incidents"
  | analysisReferences => lit "analysis_references"
  | approvals => lit "approvals"
  | commandJournal => lit "command_journal"
  | audit => lit "audit"
  | stabilizationResults => lit "stabilization_results"
  | deliveryQueue => lit "delivery_queue"
  | serviceTargets => lit "service_targets"
  | runbooks => lit "runbooks"
  | ingressReceipts => lit "ingress_receipts"
  | lifecycleEvents => lit "lifecycle_events"
  | incidentReports => lit "incident_reports"

def initialDataBuckets : List Bucket :=
  [.configurationVersions, .incidents, .analysisReferences, .approvals, .commandJournal, .audit,
    .stabilizationResults, .deliveryQueue]

def dataBuckets : List Bucket :=
  initialDataBuckets ++
    [.serviceTargets, .runbooks, .ingressReceipts, .lifecycleEvents, .incidentReports]

theorem mem_dataBuckets (b : Bucket) : b ∈ dataBuckets := by
  cases b <;> decide

def metadataBucket : Bytes := lit "metadata"
def schemaVersionKey : Bytes := lit "schema_version"

theorem Bucket.name_ne_metadata (b : Bucket) : b.name ≠ metadataBucket := by
  cases b <;> decide

/-- What a bucket holds under a key. The store never nests buckets; a database file, or a migration
step, may. -/
inductive Entry (Nested : Type) where
  | value (bytes : Bytes)
  | bucket (contents : Nested)

abbrev Database (Nested : Type) := ExtTreeMap Bytes (ExtTreeMap Bytes (Entry Nested))

structure Migration (Nested : Type) where
  «from» : UInt32
  «to» : UInt32
  apply : Option (Database Nested → Except Error (Database Nested))

variable {Nested : Type}

namespace Database

def createBucketIfNotExists (name : Bytes) (db : Database Nested) : Database Nested :=
  if name ∈ db then db else db.insert name ∅

def decodeVersion (b₀ b₁ b₂ b₃ : UInt8) : UInt32 :=
  b₀.toUInt32 <<< 24 ||| b₁.toUInt32 <<< 16 ||| b₂.toUInt32 <<< 8 ||| b₃.toUInt32

def encodeVersion (version : UInt32) : Bytes :=
  [(version >>> 24).toUInt8, (version >>> 16).toUInt8, (version >>> 8).toUInt8, version.toUInt8]

def readSchemaVersion (db : Database Nested) : Except Error UInt32 :=
  match db[metadataBucket]? with
  | none => if db.isEmpty then .ok 0 else .error errIntegrity
  | some metadata =>
    match metadata[schemaVersionKey]? with
    | some (.value [b₀, b₁, b₂, b₃]) => .ok (decodeVersion b₀ b₁ b₂ b₃)
    | _ => .error errIntegrity

def writeSchemaVersion (version : UInt32) (db : Database Nested) :
    Except Error (Database Nested) :=
  match db[metadataBucket]? with
  | none => .error errIntegrity
  | some metadata =>
    if version = 0 then .error errIntegrity
    else
      match metadata[schemaVersionKey]? with
      -- bbolt refuses to overwrite a nested bucket
      | some (.bucket _) => .error errIncompatibleValue
      | _ => .ok (db.insert metadataBucket
          (metadata.insert schemaVersionKey (.value (encodeVersion version))))

def ensureDataBuckets (db : Database Nested) : Except Error Unit :=
  if dataBuckets.all fun b => decide (b.name ∈ db) then .ok () else .error errIntegrity

end Database

open Database

/-! ## The migrations of a binary -/

def migrationTarget (migrations : List (Migration Nested)) : Except Error UInt32 :=
  if migrations.isEmpty then .error errUnsupportedSchema
  else migrations.foldlM (fun target candidate =>
    if candidate.apply.isNone || candidate.to ≤ candidate.from then .error errUnsupportedSchema
    else .ok (if candidate.to > target then candidate.to else target)) 0

def nextMigration (migrations : List (Migration Nested)) (version : UInt32) :
    Except Error (Migration Nested) := do
  let found ← migrations.foldlM (fun found candidate =>
    if candidate.from ≠ version then .ok found
    else if found.isSome then .error errUnsupportedSchema
    else .ok (some candidate)) none
  match found with
  | none => .error errUnsupportedSchema
  | some next =>
    if next.to ≤ version || next.apply.isNone then .error errUnsupportedSchema else .ok next

/-- The call of a step; `nextMigration` returns none without one. -/
def Migration.run (m : Migration Nested) (db : Database Nested) : Except Error (Database Nested) :=
  match m.apply with
  | none => .error errUnsupportedSchema
  | some apply => apply db

/-- One round of the loop of `migrate`. -/
def migrateOnce (migrations : List (Migration Nested)) (version : UInt32) (db : Database Nested) :
    Except Error (UInt32 × Database Nested) := do
  let next ← nextMigration migrations version
  let db ← next.run db
  let db ← writeSchemaVersion next.to db
  return (next.to, db)

/-- The loop of `migrate`, for at most `fuel` rounds; `none` says that these did not suffice. -/
def migrateFrom (migrations : List (Migration Nested)) (target : UInt32) :
    Nat → UInt32 → Database Nested → Option (Except Error (Database Nested))
  | fuel, version, db =>
    if version < target then
      match fuel with
      | 0 => none
      | fuel + 1 =>
        match migrateOnce migrations version db with
        | .error e => some (.error e)
        | .ok (version, db) => migrateFrom migrations target fuel version db
    else some (.ok db)

/-- The last statement of the transaction: it hands on a database with every data bucket. -/
def ensured (db : Database Nested) : Except Error (Database Nested) :=
  (ensureDataBuckets db).map fun _ => db

/-- The transaction of `migrate`. -/
def migrateTx (migrations : List (Migration Nested)) (target : UInt32) (fuel : Nat)
    (db : Database Nested) : Option (Except Error (Database Nested)) :=
  match readSchemaVersion db with
  | .error e => some (.error e)
  | .ok version =>
    if version > target then some (.error errUnsupportedSchema)
    else (migrateFrom migrations target fuel version db).map (· >>= ensured)

def normalizeError (err : Error) : Error :=
  if err.is errStoreFull || err.is errLockTimeout then err
  else if err.is errMaxSizeReached || err.is errNoSpace then .both errStoreFull ": " err
  else err

/-- bbolt's `Update`: an error of the transaction, or of its commit, rolls everything back. -/
def Database.update (commit : Database Nested → Option Error) (db : Database Nested) :
    Except Error (Database Nested) → Option Error × Database Nested
  | .error e => (some (normalizeError e), db)
  | .ok db' =>
    match commit db' with
    | none => (none, db')
    | some e => (some (normalizeError e), db)

/-- `Store.migrate`: its error, and the database afterwards. `commit` says how the commit of the
transaction ends. -/
def migrate (migrations : List (Migration Nested)) (commit : Database Nested → Option Error)
    (fuel : Nat) (db : Database Nested) : Option (Option Error × Database Nested) :=
  match migrationTarget migrations with
  | .error e => some (some e, db)
  | .ok target => (migrateTx migrations target fuel db).map (Database.update commit db)

def applyInitialMigration (db : Database Nested) : Except Error (Database Nested) :=
  .ok (initialDataBuckets.foldl (fun db b => createBucketIfNotExists b.name db)
    (createBucketIfNotExists metadataBucket db))

/-- The later migrations, which create one bucket each. -/
def applyBucketMigration (b : Bucket) (db : Database Nested) : Except Error (Database Nested) :=
  .ok (createBucketIfNotExists b.name db)

def applyServiceTargetMigration : Database Nested → Except Error (Database Nested) :=
  applyBucketMigration .serviceTargets

def applyRunbookMigration : Database Nested → Except Error (Database Nested) :=
  applyBucketMigration .runbooks

def applyIngressReceiptMigration : Database Nested → Except Error (Database Nested) :=
  applyBucketMigration .ingressReceipts

def applyLifecycleEventMigration : Database Nested → Except Error (Database Nested) :=
  applyBucketMigration .lifecycleEvents

def applyIncidentReportMigration : Database Nested → Except Error (Database Nested) :=
  applyBucketMigration .incidentReports

def defaultMigrations : List (Migration Nested) :=
  [⟨0, 1, some applyInitialMigration⟩,
    ⟨1, 2, some applyServiceTargetMigration⟩,
    ⟨2, 3, some applyRunbookMigration⟩,
    ⟨3, 4, some applyIngressReceiptMigration⟩,
    ⟨4, 5, some applyLifecycleEventMigration⟩,
    ⟨5, currentSchemaVersion, some applyIncidentReportMigration⟩]

/-! ## Reading and writing the version -/

theorem decodeVersion_encodeVersion (version : UInt32) :
    decodeVersion (version >>> 24).toUInt8 (version >>> 16).toUInt8 (version >>> 8).toUInt8
      version.toUInt8 = version := by
  apply UInt32.toNat_inj.mp
  apply Nat.eq_of_testBit_eq
  intro i
  by_cases hi : i < 32
  · simp only [decodeVersion, UInt32.toNat_or, UInt32.toNat_shiftLeft, UInt8.toNat_toUInt32,
      UInt32.toNat_toUInt8, UInt32.toNat_shiftRight, UInt32.reduceToNat, Nat.reduceMod,
      Nat.testBit_or, Nat.testBit_mod_two_pow, Nat.testBit_shiftLeft, Nat.testBit_shiftRight]
    grind
  · have hhigh (w : UInt32) : w.toNat.testBit i = false :=
      Nat.testBit_lt_two_pow (w.toNat_lt.trans_le (Nat.pow_le_pow_right (by decide) (by omega)))
    rw [hhigh, hhigh]

theorem writeSchemaVersion_ok {version : UInt32} {db db' : Database Nested}
    (h : writeSchemaVersion version db = .ok db') : ∃ metadata,
      db[metadataBucket]? = some metadata ∧
      db' = db.insert metadataBucket
        (metadata.insert schemaVersionKey (.value (encodeVersion version))) := by
  unfold writeSchemaVersion at h
  split at h
  case h_1 => cases h
  case h_2 metadata hmetadata =>
    split_ifs at h
    split at h
    case h_1 => cases h
    case h_2 =>
      cases h
      exact ⟨metadata, hmetadata, rfl⟩

theorem readSchemaVersion_of_write {version : UInt32} {db db' : Database Nested}
    (h : writeSchemaVersion version db = .ok db') : readSchemaVersion db' = .ok version := by
  obtain ⟨metadata, -, rfl⟩ := writeSchemaVersion_ok h
  simp only [readSchemaVersion, ExtTreeMap.getElem?_insert_self, encodeVersion,
    decodeVersion_encodeVersion]

theorem getElem?_of_write {version : UInt32} {db db' : Database Nested} {name : Bytes}
    (hname : name ≠ metadataBucket) (h : writeSchemaVersion version db = .ok db') :
    db'[name]? = db[name]? := by
  obtain ⟨metadata, -, rfl⟩ := writeSchemaVersion_ok h
  rw [ExtTreeMap.getElem?_insert, if_neg]
  exact fun heq => hname (LawfulEqCmp.eq_of_compare heq).symm

/-! ## The target and the steps -/

theorem foldlM_target_ok {migrations : List (Migration Nested)} {start target : UInt32}
    (h : migrations.foldlM (fun target candidate =>
      if candidate.apply.isNone || candidate.to ≤ candidate.from then .error errUnsupportedSchema
      else .ok (if candidate.to > target then candidate.to else target)) start =
        Except.ok (ε := Error) target) :
    start ≤ target ∧ (∀ m ∈ migrations, m.to ≤ target) ∧
      (target = start ∨ ∃ m ∈ migrations, m.to = target) := by
  induction migrations generalizing start with
  | nil =>
    cases h
    simp
  | cons m migrations ih =>
    rw [List.foldlM_cons] at h
    split_ifs at h with hbad hnew
    · cases h
    · obtain ⟨hle, hall, hfrom⟩ := ih h
      refine ⟨UInt32.le_trans (UInt32.le_of_lt hnew) hle,
        List.forall_mem_cons.mpr ⟨hle, hall⟩, .inr ?_⟩
      rcases hfrom with rfl | ⟨m', hm', heq⟩
      · exact ⟨m, List.mem_cons_self, rfl⟩
      · exact ⟨m', List.mem_cons_of_mem _ hm', heq⟩
    · obtain ⟨hle, hall, hfrom⟩ := ih h
      refine ⟨hle, List.forall_mem_cons.mpr ⟨UInt32.le_trans (UInt32.not_lt.mp hnew) hle, hall⟩,
        hfrom.imp_right ?_⟩
      rintro ⟨m', hm', heq⟩
      exact ⟨m', List.mem_cons_of_mem _ hm', heq⟩

/-- The highest version that a migration of the list reaches. -/
structure Highest (migrations : List (Migration Nested)) (target : UInt32) : Prop where
  reached : ∃ m ∈ migrations, m.to = target
  above : ∀ m ∈ migrations, m.to ≤ target

theorem highest_of_migrationTarget {migrations : List (Migration Nested)} {target : UInt32}
    (h : migrationTarget migrations = .ok target) : Highest migrations target := by
  unfold migrationTarget at h
  split at h
  case isTrue => cases h
  case isFalse hne =>
    obtain ⟨-, above, rfl | hreached⟩ := foldlM_target_ok h
    · -- the target is above no migration only if it is the first one's version
      obtain ⟨m, rest, rfl⟩ := List.exists_cons_of_ne_nil (by simpa using hne)
      refine ⟨⟨m, List.mem_cons_self, ?_⟩, above⟩
      exact UInt32.le_antisymm (above m List.mem_cons_self) UInt32.zero_le
    · exact ⟨hreached, above⟩

theorem foldlM_next_ok {migrations : List (Migration Nested)} {version : UInt32}
    {found result : Option (Migration Nested)}
    (h : migrations.foldlM (fun found candidate =>
      if candidate.from ≠ version then .ok found
      else if found.isSome then .error errUnsupportedSchema
      else .ok (some candidate)) found = Except.ok (ε := Error) result) :
    result.toList = found.toList ++ migrations.filter (·.from = version) := by
  induction migrations generalizing found with
  | nil =>
    cases h
    simp
  | cons m migrations ih =>
    rw [List.foldlM_cons] at h
    split_ifs at h with hother hfound
    · rw [ih h, List.filter_cons_of_neg (by simpa using hother)]
    · cases h
    · rw [ih h, List.filter_cons_of_pos (by simpa using hother)]
      rw [Option.not_isSome_iff_eq_none.mp hfound]
      rfl

theorem nextMigration_ok {migrations : List (Migration Nested)} {version : UInt32}
    {next : Migration Nested} (h : nextMigration migrations version = .ok next) :
    migrations.filter (·.from = version) = [next] ∧ version < next.to := by
  obtain ⟨found, hfound, h⟩ := except_bind_ok.mp h
  replace hfound := foldlM_next_ok hfound
  cases found with
  | none => cases h
  | some m =>
    dsimp only at h
    split_ifs at h with hbad
    cases h
    rw [Bool.or_eq_true, not_or] at hbad
    exact ⟨hfound.symm, UInt32.not_le.mp (by simpa using hbad.1)⟩

/-- One round: the step that is determined by the version, applied and recorded. -/
inductive Advances (migrations : List (Migration Nested)) :
    UInt32 × Database Nested → UInt32 × Database Nested → Prop
  | intro {version : UInt32} {db mid db' : Database Nested} {next : Migration Nested}
    {apply : Database Nested → Except Error (Database Nested)}
    (only : migrations.filter (·.from = version) = [next]) (up : version < next.to)
    (step : next.apply = some apply) (applied : apply db = .ok mid)
    (written : writeSchemaVersion next.to mid = .ok db') :
    Advances migrations (version, db) (next.to, db')

theorem advances_of_migrateOnce {migrations : List (Migration Nested)} {version : UInt32}
    {db : Database Nested} {after : UInt32 × Database Nested}
    (h : migrateOnce migrations version db = .ok after) :
    Advances migrations (version, db) after := by
  obtain ⟨next, hnext, h⟩ := except_bind_ok.mp h
  obtain ⟨mid, hmid, h⟩ := except_bind_ok.mp h
  obtain ⟨db', hwritten, h⟩ := except_bind_ok.mp h
  cases h
  obtain ⟨honly, hup⟩ := nextMigration_ok hnext
  unfold Migration.run at hmid
  split at hmid
  case h_1 => cases hmid
  case h_2 apply hstep => exact .intro honly hup hstep hmid hwritten

/-! ## Every run ends -/

/-- The migrations that a run at this version may still take. -/
def remaining (migrations : List (Migration Nested)) (version : UInt32) : Nat :=
  (migrations.filter fun m => version ≤ m.from).length

theorem remaining_le (migrations : List (Migration Nested)) (version : UInt32) :
    remaining migrations version ≤ migrations.length :=
  List.length_filter_le _ _

theorem remaining_lt {migrations : List (Migration Nested)} {version after : UInt32}
    {next : Migration Nested} (honly : migrations.filter (·.from = version) = [next])
    (hup : version < after) : remaining migrations after < remaining migrations version := by
  have hnext : next ∈ migrations.filter (·.from = version) := honly ▸ List.mem_singleton_self next
  obtain ⟨hmem, hfrom⟩ := List.mem_filter.mp hnext
  replace hfrom : next.from = version := of_decide_eq_true hfrom
  have hsub : migrations.filter (fun m => after ≤ m.from) =
      (migrations.filter fun m => version ≤ m.from).filter fun m => after ≤ m.from := by
    rw [List.filter_filter]
    refine List.filter_congr fun m _ => ?_
    rw [Bool.eq_iff_iff, Bool.and_eq_true, decide_eq_true_iff, decide_eq_true_iff]
    exact ⟨fun h => ⟨h, UInt32.le_trans (UInt32.le_of_lt hup) h⟩, And.left⟩
  unfold remaining
  rw [hsub]
  refine List.length_filter_lt_length_iff_exists.mpr ⟨next, ?_, ?_⟩
  · exact List.mem_filter.mpr ⟨hmem, by simp [hfrom]⟩
  · simpa [hfrom] using hup

theorem exists_migrateFrom (migrations : List (Migration Nested)) (target version : UInt32)
    (db : Database Nested) : ∃ result, ∀ fuel, remaining migrations version < fuel →
      migrateFrom migrations target fuel version db = some result := by
  -- strong induction on the migrations that remain: each round that goes on leaves fewer
  induction hn : remaining migrations version using Nat.strong_induction_on
    generalizing version db with
  | _ n ih =>
    subst hn
    by_cases hlt : version < target
    · cases honce : migrateOnce migrations version db with
      | error e =>
        refine ⟨.error e, fun fuel hfuel => ?_⟩
        obtain ⟨fuel, rfl⟩ := Nat.exists_eq_add_one_of_ne_zero (Nat.ne_zero_of_lt hfuel)
        simp only [migrateFrom, if_pos hlt, honce]
      | ok after =>
        have hfewer : remaining migrations after.1 < remaining migrations version := by
          cases advances_of_migrateOnce honce with
          | intro only up => exact remaining_lt only up
        obtain ⟨result, hresult⟩ := ih _ hfewer after.1 after.2 rfl
        refine ⟨result, fun fuel hfuel => ?_⟩
        obtain ⟨fuel, rfl⟩ := Nat.exists_eq_add_one_of_ne_zero (Nat.ne_zero_of_lt hfuel)
        simp only [migrateFrom, if_pos hlt, honce]
        exact hresult fuel (by omega)
    · refine ⟨.ok db, fun fuel _ => ?_⟩
      unfold migrateFrom
      rw [if_neg hlt]

theorem exists_migrate (migrations : List (Migration Nested))
    (commit : Database Nested → Option Error) (db : Database Nested) :
    ∃ outcome, ∀ fuel, migrations.length < fuel →
      migrate migrations commit fuel db = some outcome := by
  unfold migrate
  cases migrationTarget migrations with
  | error e => exact ⟨_, fun _ _ => rfl⟩
  | ok target =>
    dsimp only
    unfold migrateTx
    cases readSchemaVersion db with
    | error e => exact ⟨_, fun _ _ => rfl⟩
    | ok version =>
      dsimp only
      split_ifs with habove
      · exact ⟨_, fun _ _ => rfl⟩
      · obtain ⟨result, hresult⟩ := exists_migrateFrom migrations target version db
        refine ⟨Database.update commit db (result >>= ensured), fun fuel hfuel => ?_⟩
        rw [hresult fuel ((remaining_le migrations version).trans_lt hfuel)]
        rfl

/-! ## What a run reaches -/

theorem migrateFrom_ok {migrations : List (Migration Nested)} {target version : UInt32}
    {fuel : Nat} {db db' : Database Nested} (hhighest : Highest migrations target)
    (hle : version ≤ target)
    (h : migrateFrom migrations target fuel version db = some (.ok db')) :
    Relation.ReflTransGen (Advances migrations) (version, db) (target, db') := by
  induction fuel generalizing version db with
  | zero =>
    unfold migrateFrom at h
    split_ifs at h with hlt
    cases h
    rw [UInt32.le_antisymm hle (UInt32.not_lt.mp hlt)]
  | succ fuel ih =>
    unfold migrateFrom at h
    split_ifs at h with hlt
    · cases honce : migrateOnce migrations version db with
      | error e => simp [honce] at h
      | ok after =>
        simp only [honce] at h
        have hstep := advances_of_migrateOnce honce
        have hbelow : after.1 ≤ target := by
          cases hstep with
          | @intro _ _ _ _ next _ only =>
            have hmem := List.mem_of_mem_filter (only ▸ List.mem_singleton_self next)
            exact hhighest.above next hmem
        exact .head hstep (ih hbelow h)
    · cases h
      rw [UInt32.le_antisymm hle (UInt32.not_lt.mp hlt)]

theorem readSchemaVersion_of_advances {migrations : List (Migration Nested)}
    {start finish : UInt32 × Database Nested}
    (h : Relation.ReflTransGen (Advances migrations) start finish)
    (hstart : readSchemaVersion start.2 = .ok start.1) :
    readSchemaVersion finish.2 = .ok finish.1 := by
  induction h with
  | refl => exact hstart
  | tail _ hlast _ =>
    cases hlast with
    | intro only up step applied written => exact readSchemaVersion_of_write written

theorem ensured_ok {db db' : Database Nested} (h : ensured db = .ok db') :
    db' = db ∧ ∀ b : Bucket, b.name ∈ db := by
  unfold ensured ensureDataBuckets at h
  split_ifs at h with hall
  · cases h
    simp only [List.all_eq_true, decide_eq_true_iff] at hall
    exact ⟨rfl, fun b => hall b (mem_dataBuckets b)⟩
  · cases h

/-- What a successful migration leaves behind. -/
structure Migrated (migrations : List (Migration Nested)) (db db' : Database Nested) : Prop where
  chain : ∃ version target, Highest migrations target ∧ readSchemaVersion db = .ok version ∧
    Relation.ReflTransGen (Advances migrations) (version, db) (target, db') ∧
    readSchemaVersion db' = .ok target
  buckets : ∀ b : Bucket, b.name ∈ db'

theorem migrated_of_migrateTx {migrations : List (Migration Nested)} {target : UInt32}
    {fuel : Nat} {db db' : Database Nested} (htarget : migrationTarget migrations = .ok target)
    (h : migrateTx migrations target fuel db = some (.ok db')) : Migrated migrations db db' := by
  unfold migrateTx at h
  cases hversion : readSchemaVersion db with
  | error e => simp [hversion] at h
  | ok version =>
    simp only [hversion] at h
    split_ifs at h with habove
    · cases h
    · obtain ⟨result, hresult, h⟩ := Option.map_eq_some_iff.mp h
      obtain ⟨mid, rfl, h⟩ := except_bind_ok.mp h
      obtain ⟨rfl, hbuckets⟩ := ensured_ok h
      have hhighest := highest_of_migrationTarget htarget
      have hchain := migrateFrom_ok hhighest (UInt32.not_lt.mp habove) hresult
      exact ⟨⟨version, target, hhighest, hversion, hchain,
        readSchemaVersion_of_advances hchain hversion⟩, hbuckets⟩

theorem update_eq_none {commit : Database Nested → Option Error} {db db' : Database Nested}
    {result : Except Error (Database Nested)} (h : Database.update commit db result = (none, db')) :
    result = .ok db' := by
  unfold Database.update at h
  split at h
  case h_1 => cases h
  case h_2 mid =>
    split at h
    case h_1 =>
      cases h
      rfl
    case h_2 => cases h

theorem update_of_some {commit : Database Nested → Option Error} {db db' : Database Nested}
    {result : Except Error (Database Nested)} {e : Error}
    (h : Database.update commit db result = (some e, db')) : db' = db := by
  unfold Database.update at h
  split at h
  case h_1 =>
    cases h
    rfl
  case h_2 mid =>
    split at h
    case h_1 => cases h
    case h_2 =>
      cases h
      rfl

theorem migrated_of_migrate {migrations : List (Migration Nested)}
    {commit : Database Nested → Option Error} {fuel : Nat} {db db' : Database Nested}
    (h : migrate migrations commit fuel db = some (none, db')) : Migrated migrations db db' := by
  unfold migrate at h
  cases htarget : migrationTarget migrations with
  | error e => simp [htarget] at h
  | ok target =>
    simp only [htarget] at h
    obtain ⟨result, hresult, h⟩ := Option.map_eq_some_iff.mp h
    obtain rfl := update_eq_none h
    exact migrated_of_migrateTx htarget hresult

theorem eq_of_migrate_error {migrations : List (Migration Nested)}
    {commit : Database Nested → Option Error} {fuel : Nat} {db db' : Database Nested} {e : Error}
    (h : migrate migrations commit fuel db = some (some e, db')) : db' = db := by
  unfold migrate at h
  cases htarget : migrationTarget migrations with
  | error e' =>
    simp only [htarget] at h
    cases h
    rfl
  | ok target =>
    simp only [htarget] at h
    obtain ⟨result, -, h⟩ := Option.map_eq_some_iff.mp h
    exact update_of_some h

/-! ## The default migrations keep what is there -/

theorem getElem?_createBucketIfNotExists {name other : Bytes} {db : Database Nested}
    {c : ExtTreeMap Bytes (Entry Nested)} (h : db[other]? = some c) :
    (createBucketIfNotExists name db)[other]? = some c := by
  unfold createBucketIfNotExists
  split_ifs with hmem
  · exact h
  · rw [ExtTreeMap.getElem?_insert, if_neg, h]
    intro heq
    obtain rfl := LawfulEqCmp.eq_of_compare heq
    exact hmem (ExtTreeMap.mem_iff_isSome_getElem?.mpr (by rw [h]; rfl))

theorem getElem?_foldl_createBucket {buckets : List Bucket} {other : Bytes} {db : Database Nested}
    {c : ExtTreeMap Bytes (Entry Nested)} (h : db[other]? = some c) :
    (buckets.foldl (fun db b => createBucketIfNotExists b.name db) db)[other]? = some c := by
  induction buckets generalizing db with
  | nil => exact h
  | cons b buckets ih => exact ih (getElem?_createBucketIfNotExists h)

/-- A step that creates buckets and changes none. -/
def Keeping (apply : Database Nested → Except Error (Database Nested)) : Prop :=
  ∀ {db db' : Database Nested} {name : Bytes} {c : ExtTreeMap Bytes (Entry Nested)},
    apply db = .ok db' → db[name]? = some c → db'[name]? = some c

theorem keeping_applyInitialMigration : Keeping (@applyInitialMigration Nested) := by
  intro db db' name c happly h
  cases happly
  exact getElem?_foldl_createBucket (getElem?_createBucketIfNotExists h)

theorem keeping_applyBucketMigration (b : Bucket) :
    Keeping (@applyBucketMigration Nested b) := by
  intro db db' name c happly h
  cases happly
  exact getElem?_createBucketIfNotExists h

theorem keeping_of_mem_default {m : Migration Nested} (hm : m ∈ defaultMigrations)
    {apply : Database Nested → Except Error (Database Nested)} (h : m.apply = some apply) :
    Keeping apply := by
  simp only [defaultMigrations, List.mem_cons, List.not_mem_nil, or_false] at hm
  rcases hm with rfl | rfl | rfl | rfl | rfl | rfl <;> cases h
  · exact keeping_applyInitialMigration
  all_goals exact keeping_applyBucketMigration _

theorem getElem?_of_advances_default {start finish : UInt32 × Database Nested} {name : Bytes}
    {c : ExtTreeMap Bytes (Entry Nested)} (hname : name ≠ metadataBucket)
    (h : Relation.ReflTransGen (Advances defaultMigrations) start finish)
    (hstart : start.2[name]? = some c) : finish.2[name]? = some c := by
  induction h with
  | refl => exact hstart
  | tail _ hlast ih =>
    cases hlast with
    | @intro version db mid db' next apply only up step applied written =>
      have hmem : next ∈ defaultMigrations :=
        List.mem_of_mem_filter (only ▸ List.mem_singleton_self next)
      rw [getElem?_of_write hname written]
      exact keeping_of_mem_default hmem step applied ih

/-! ## The default migrations succeed -/

/-- The version that introduced a bucket. -/
def Bucket.since : Bucket → UInt32
  | serviceTargets => 2
  | runbooks => 3
  | ingressReceipts => 4
  | lifecycleEvents => 5
  | incidentReports => 6
  | _ => 1

/-- A database as a binary of this version left it. -/
structure ValidAt (version : UInt32) (db : Database Nested) : Prop where
  stored : readSchemaVersion db = .ok version
  buckets : ∀ b : Bucket, b.since ≤ version → b.name ∈ db

theorem mem_of_keeping {apply : Database Nested → Except Error (Database Nested)}
    (hkeeping : Keeping apply) {db db' : Database Nested} {name : Bytes}
    (happly : apply db = .ok db') (h : name ∈ db) : name ∈ db' := by
  obtain ⟨c, hc⟩ := Option.isSome_iff_exists.mp (ExtTreeMap.mem_iff_isSome_getElem?.mp h)
  exact ExtTreeMap.mem_iff_isSome_getElem?.mpr (by rw [hkeeping happly hc]; rfl)

theorem mem_createBucketIfNotExists (name : Bytes) (db : Database Nested) :
    name ∈ createBucketIfNotExists name db := by
  unfold createBucketIfNotExists
  split_ifs with hmem
  · exact hmem
  · exact ExtTreeMap.mem_insert_self

theorem mem_foldl_createBucket {buckets : List Bucket} {b : Bucket} (hb : b ∈ buckets)
    (db : Database Nested) :
    b.name ∈ buckets.foldl (fun db b => createBucketIfNotExists b.name db) db := by
  induction buckets generalizing db with
  | nil => cases hb
  | cons other buckets ih =>
    rcases List.mem_cons.mp hb with rfl | hb
    · rw [List.foldl_cons]
      obtain ⟨c, hc⟩ := Option.isSome_iff_exists.mp
        (ExtTreeMap.mem_iff_isSome_getElem?.mp (mem_createBucketIfNotExists b.name db))
      exact ExtTreeMap.mem_iff_isSome_getElem?.mpr (by rw [getElem?_foldl_createBucket hc]; rfl)
    · exact ih hb _

theorem exists_write_of_read {version next : UInt32} {db db' : Database Nested}
    {apply : Database Nested → Except Error (Database Nested)} (hkeeping : Keeping apply)
    (hread : readSchemaVersion db = .ok version) (happly : apply db = .ok db')
    (hfresh : db[metadataBucket]? = none → db'[metadataBucket]? = some ∅) (hnext : next ≠ 0) :
    ∃ db'', writeSchemaVersion next db' = .ok db'' := by
  unfold writeSchemaVersion
  cases hmetadata : db[metadataBucket]? with
  | none =>
    rw [hfresh hmetadata]
    simp [hnext]
  | some metadata =>
    rw [hkeeping happly hmetadata]
    unfold readSchemaVersion at hread
    rw [hmetadata] at hread
    dsimp only at hread ⊢
    split at hread
    case h_1 hvalue => simp [hnext, hvalue]
    case h_2 => cases hread

theorem isEmpty_of_read {version : UInt32} {db : Database Nested}
    (hread : readSchemaVersion db = .ok version) (h : db[metadataBucket]? = none) :
    db = ∅ ∧ version = 0 := by
  unfold readSchemaVersion at hread
  rw [h] at hread
  dsimp only at hread
  split_ifs at hread with hempty
  · cases hread
    exact ⟨ExtTreeMap.isEmpty_iff.mp hempty, rfl⟩

theorem migrateOnce_of_valid {version next : UInt32} {db db' : Database Nested}
    {apply : Database Nested → Except Error (Database Nested)}
    (hstep : nextMigration defaultMigrations version = .ok ⟨version, next, some apply⟩)
    (hkeeping : Keeping apply) (h : ValidAt version db) (happly : apply db = .ok db')
    (hfresh : db[metadataBucket]? = none → db'[metadataBucket]? = some ∅) (hnext : next ≠ 0)
    (hadds : ∀ b : Bucket, b.since ≤ next → ¬b.since ≤ version → b.name ∈ db') :
    ∃ db'', migrateOnce defaultMigrations version db = .ok (next, db'') ∧ ValidAt next db'' := by
  obtain ⟨db'', hwrite⟩ := exists_write_of_read hkeeping h.stored happly hfresh hnext
  refine ⟨db'', ?_, readSchemaVersion_of_write hwrite, fun b hb => ?_⟩
  · simp only [migrateOnce, hstep, Migration.run, happly, hwrite, bind, Except.bind]
    rfl
  · rw [ExtTreeMap.mem_iff_isSome_getElem?, getElem?_of_write b.name_ne_metadata hwrite,
      ← ExtTreeMap.mem_iff_isSome_getElem?]
    by_cases hold : b.since ≤ version
    · exact mem_of_keeping hkeeping happly (h.buckets b hold)
    · exact hadds b hb hold

theorem migrateOnce_initial {db : Database Nested} (h : ValidAt 0 db) :
    ∃ db', migrateOnce defaultMigrations 0 db = .ok (1, db') ∧ ValidAt 1 db' := by
  refine migrateOnce_of_valid rfl keeping_applyInitialMigration h rfl ?_ (by decide) ?_
  · intro hnone
    refine getElem?_foldl_createBucket ?_
    rw [(isEmpty_of_read h.stored hnone).1]
    simp [createBucketIfNotExists]
  · intro b hb _
    refine mem_foldl_createBucket ?_ _
    cases b <;> first | decide | exact absurd hb (by decide)

theorem migrateOnce_bucket {version : UInt32} {b : Bucket} {db : Database Nested}
    (hstep : nextMigration defaultMigrations version =
      .ok ⟨version, version + 1, some (@applyBucketMigration Nested b)⟩)
    (hpos : version ≠ 0) (hnext : version + 1 ≠ 0)
    (honly : ∀ other : Bucket, other.since ≤ version + 1 → ¬other.since ≤ version → other = b)
    (h : ValidAt version db) :
    ∃ db', migrateOnce defaultMigrations version db = .ok (version + 1, db') ∧
      ValidAt (version + 1) db' := by
  refine migrateOnce_of_valid hstep (keeping_applyBucketMigration b) h rfl ?_ hnext ?_
  · exact fun hnone => absurd (isEmpty_of_read h.stored hnone).2 hpos
  · intro other hother hnew
    rw [honly other hother hnew]
    exact mem_createBucketIfNotExists _ _

theorem migrateOnce_default {version : UInt32} {db : Database Nested} (hlt : version < 6)
    (h : ValidAt version db) : ∃ db', migrateOnce defaultMigrations version db =
      .ok (version + 1, db') ∧ ValidAt (version + 1) db' := by
  have hcases : version = 0 ∨ version = 1 ∨ version = 2 ∨ version = 3 ∨ version = 4 ∨
      version = 5 := by
    simp only [← UInt32.toNat_inj, UInt32.lt_iff_toNat_lt, UInt32.reduceToNat] at hlt ⊢
    omega
  rcases hcases with rfl | rfl | rfl | rfl | rfl | rfl
  · exact migrateOnce_initial h
  · exact migrateOnce_bucket (b := .serviceTargets) rfl (by decide) (by decide)
      (fun other => by cases other <;> decide) h
  · exact migrateOnce_bucket (b := .runbooks) rfl (by decide) (by decide)
      (fun other => by cases other <;> decide) h
  · exact migrateOnce_bucket (b := .ingressReceipts) rfl (by decide) (by decide)
      (fun other => by cases other <;> decide) h
  · exact migrateOnce_bucket (b := .lifecycleEvents) rfl (by decide) (by decide)
      (fun other => by cases other <;> decide) h
  · exact migrateOnce_bucket (b := .incidentReports) rfl (by decide) (by decide)
      (fun other => by cases other <;> decide) h

theorem exists_migrateFrom_default {fuel : Nat} {version : UInt32} {db : Database Nested}
    (hle : version ≤ 6) (hfuel : 6 - version.toNat ≤ fuel) (h : ValidAt version db) :
    ∃ db', migrateFrom defaultMigrations 6 fuel version db = some (.ok db') ∧ ValidAt 6 db' := by
  induction fuel generalizing version db with
  | zero =>
    have heq : version = 6 := by
      simp only [← UInt32.toNat_inj, UInt32.le_iff_toNat_le, UInt32.reduceToNat] at hle ⊢
      omega
    subst heq
    exact ⟨db, rfl, h⟩
  | succ fuel ih =>
    by_cases hlt : version < 6
    · obtain ⟨db', hdb', h'⟩ := migrateOnce_default hlt h
      have hbelow : version.toNat < 6 := hlt
      have hnext : (version + 1).toNat = version.toNat + 1 :=
        (UInt32.toNat_add version 1).trans
          (Nat.mod_eq_of_lt (by change version.toNat + 1 < _; omega))
      have hle' : version + 1 ≤ 6 := by
        rw [UInt32.le_iff_toNat_le, hnext]
        exact hbelow
      obtain ⟨last, hlast, hvalid⟩ := ih hle' (by omega) h'
      refine ⟨last, ?_, hvalid⟩
      simpa only [migrateFrom, if_pos hlt, hdb'] using hlast
    · obtain rfl := UInt32.le_antisymm hle (UInt32.not_lt.mp hlt)
      exact ⟨db, rfl, h⟩

theorem ensured_of_forall {db : Database Nested} (h : ∀ b : Bucket, b.name ∈ db) :
    ensured db = .ok db := by
  have hall : (dataBuckets.all fun b => decide (b.name ∈ db)) = true :=
    List.all_eq_true.mpr fun b _ => decide_eq_true (h b)
  simp only [ensured, ensureDataBuckets, if_pos hall, Except.map]

/-- From every database that some binary up to this one left, the default migrations succeed. -/
theorem migrate_default_of_valid {commit : Database Nested → Option Error}
    (hcommit : ∀ db, commit db = none) {fuel : Nat} (hfuel : 6 ≤ fuel) {version : UInt32}
    (hle : version ≤ currentSchemaVersion) {db : Database Nested} (h : ValidAt version db) :
    ∃ db', migrate defaultMigrations commit fuel db = some (none, db') ∧
      ValidAt currentSchemaVersion db' := by
  obtain ⟨db', hdb', hvalid⟩ := exists_migrateFrom_default hle (by omega : _ ≤ fuel) h
  refine ⟨db', ?_, hvalid⟩
  have hbuckets : ensured db' = .ok db' :=
    ensured_of_forall fun b => hvalid.buckets b (by cases b <;> decide)
  have htx : migrateTx defaultMigrations 6 fuel db = some (.ok db') := by
    unfold migrateTx
    rw [h.stored]
    dsimp only
    rw [if_neg (UInt32.not_lt.mpr hle : ¬version > 6), hdb']
    exact congrArg some hbuckets
  have htarget : migrationTarget (@defaultMigrations Nested) = .ok 6 := rfl
  simp only [migrate, htarget, htx, Option.map_some, Database.update, hcommit]
/-! ## The whole of it -/

/-- A migration ends after at most one round more than there are migrations. It succeeds at the
highest version, reached by steps each of which is the only one at its version, with every data
bucket present, or it fails and the database is as before. The default migrations also keep the
contents of every data bucket that exists. -/
theorem migrate_terminates_complete_atomic (migrations : List (Migration Nested))
    (commit : Database Nested → Option Error) (db : Database Nested) :
    (∃ outcome, (∀ fuel, migrations.length < fuel →
        migrate migrations commit fuel db = some outcome) ∧
      (outcome.1 = none → Migrated migrations db outcome.2) ∧
      (outcome.1 ≠ none → outcome.2 = db)) ∧
    ∀ fuel db', migrate defaultMigrations commit fuel db = some (none, db') →
      ∀ (b : Bucket) c, db[b.name]? = some c → db'[b.name]? = some c := by
  constructor
  · obtain ⟨⟨result, db'⟩, hend⟩ := exists_migrate migrations commit db
    refine ⟨(result, db'), hend, ?_, ?_⟩
    · rintro rfl
      exact migrated_of_migrate (hend _ (Nat.lt_succ_self _))
    · intro hfailed
      obtain ⟨e, rfl⟩ := Option.ne_none_iff_exists'.mp hfailed
      exact eq_of_migrate_error (hend _ (Nat.lt_succ_self _))
  · intro fuel db' h b c hbucket
    obtain ⟨⟨version, target, -, -, hchain, -⟩, -⟩ := migrated_of_migrate h
    exact getElem?_of_advances_default b.name_ne_metadata hchain hbucket

end PulseAgent
