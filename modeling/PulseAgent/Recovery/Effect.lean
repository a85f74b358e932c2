import PulseAgent.Recovery.Lifecycle

/-!
# What a committed transaction does to the journal

`JournalEffect`: under every record key the document is kept, or created where there was none, or
replaced by that of a record which the old one advances to.
-/

namespace PulseAgent.Recovery

open Go Go.Json Contract

/-! ## Changes of one record are steps of the lifecycle -/

section Changes

variable {ids : Bytes → Prop} {r r' : JournalRecord}

theorem transition_ok {next : RecoveryCommandState} {phase : JournalPhase}
    (h : transition r next phase = .ok r') :
    r' = r.moved next phase ∧ r.command.state.canTransitionTo next = true := by
  obtain ⟨_, htransition, h⟩ := except_bind_ok.mp h
  refine ⟨(Except.ok.inj h).symm, ?_⟩
  unfold RecoveryCommandState.validateTransition at htransition
  split at htransition
  case isTrue hnext => exact hnext
  case isFalse => cases htransition

theorem advance_of_denied (h : transitionToDenied r = .ok r') : Advance ids r r' := by
  unfold transitionToDenied at h
  split at h
  case isTrue hr => exact (transition_ok h).1 ▸ .denied hr
  case isFalse => cases h

theorem advance_of_expired (h : transitionToExpired r = .ok r') : Advance ids r r' := by
  unfold transitionToExpired at h
  split at h
  case isTrue hr => exact (transition_ok h).1 ▸ .expired hr
  case isFalse => cases h

theorem advance_of_approve (h : approveRecord r = .ok r') : Advance ids r r' := by
  unfold approveRecord at h
  split at h
  case isTrue => cases h
  case isFalse hr =>
    split at h
    case isTrue => cases h
    case isFalse => exact (transition_ok h).1 ▸ .approved (by simpa using hr)

theorem startRecord_ok (h : startRecord r = .ok r') :
    r.phase = .approved ∧ r.command.state = .approved ∧ r' = r.moved .executing .executing := by
  unfold startRecord at h
  split at h
  case isTrue hr =>
    simp only [Bool.and_eq_true, decide_eq_true_eq] at hr
    exact ⟨hr.1, hr.2, (transition_ok h).1⟩
  case isFalse => cases h

theorem advance_of_start (h : startRecord r = .ok r') : Advance ids r r' := by
  obtain ⟨hphase, hstate, rfl⟩ := startRecord_ok h
  exact .started hphase hstate

theorem advance_of_finish {next : RecoveryCommandState} (h : finishRecord next r = .ok r') :
    Advance ids r r' := by
  unfold finishRecord at h
  split at h
  case isTrue hr =>
    simp only [Bool.and_eq_true, decide_eq_true_eq] at hr
    obtain ⟨rfl, hnext⟩ := transition_ok h
    rw [hr.2] at hnext
    simp only [RecoveryCommandState.canTransitionTo, Bool.or_eq_true, decide_eq_true_eq] at hnext
    rcases hnext with rfl | rfl
    · exact .stabilizing hr.1 hr.2
    · exact .broken hr.1 hr.2
  case isFalse => cases h

theorem advance_of_complete {next : RecoveryCommandState} (h : completeRecord next r = .ok r') :
    Advance ids r r' := by
  unfold completeRecord at h
  split at h
  case isTrue hr =>
    simp only [Bool.and_eq_true, decide_eq_true_eq] at hr
    exact Except.ok.inj h ▸ .settled hr.1
  case isFalse =>
    split at h
    case isTrue hr =>
      simp only [Bool.and_eq_true, decide_eq_true_eq] at hr
      obtain ⟨rfl, hnext⟩ := transition_ok h
      rw [hr.2] at hnext
      simp only [RecoveryCommandState.canTransitionTo, Bool.or_eq_true, decide_eq_true_eq] at hnext
      exact .finished next hnext hr.1 hr.2
    case isFalse => cases h

theorem advance_of_verify {snapshot : Docker.Snapshot} {verified : Bool} {now : Time}
    (h : verifyRecord snapshot verified now r = .ok r') : Advance ids r r' := by
  unfold verifyRecord at h
  split at h
  case isTrue hr => exact Except.ok.inj h ▸ .held _ hr
  case isFalse => cases h

end Changes

/-! ## Stored records -/

def recordAt (s : Store) (key : Bytes) : Option JournalRecord :=
  (s .commandJournal)[key]?.bind (content JournalRecord.codec)

/-- The journal's own reader returns `r` for this key. -/
def Loads (s : Store) (key : Bytes) (r : JournalRecord) : Prop :=
  ∃ document, (s .commandJournal)[key]? = some document ∧ checkedRecord key document = .ok r

/-- What `putRecord` demands of a record, and the document it writes. -/
structure Written (key : Bytes) (r : JournalRecord) (document : Bytes) : Prop where
  key_eq : recordKey r.command = key
  valid : validateRecord r = .ok ()
  marshal : JournalRecord.codec.marshal r = some document

theorem checkedRecord_ok {key document : Bytes} {r : JournalRecord}
    (h : checkedRecord key document = .ok r) :
    content JournalRecord.codec document = some r ∧ validateRecord r = .ok () ∧
      recordKey r.command = key := by
  unfold checkedRecord decodeRecord at h
  cases hdecode : decode JournalRecord.codec
      ⟨maxJournalDocumentBytes, schemaVersionV1, validateRecord⟩ document with
  | error e => simp only [hdecode, reduceCtorEq] at h
  | ok record =>
    simp only [hdecode] at h
    obtain ⟨hcontent, hvalid, -⟩ := content_of_decode hdecode
    split at h
    case isTrue hkey =>
      obtain rfl := Except.ok.inj h
      exact ⟨hcontent, hvalid, hkey⟩
    case isFalse => cases h

theorem Loads.recordAt_eq {s : Store} {key : Bytes} {r : JournalRecord} (h : Loads s key r) :
    recordAt s key = some r := by
  obtain ⟨document, hdocument, hchecked⟩ := h
  rw [recordAt, hdocument, Option.bind_some, (checkedRecord_ok hchecked).1]

theorem Written.content_eq {key document : Bytes} {r : JournalRecord} (h : Written key r document) :
    content JournalRecord.codec document = some (JournalRecord.codec.norm r) :=
  content_marshal h.marshal

theorem stableKey_ne_nil {keyPrefix : Bytes} (h : keyPrefix ≠ []) (values : List Bytes) :
    stableKey keyPrefix values ≠ [] := by
  simp [stableKey, h]

theorem isRecordKey_recordKey (command : RecoveryCommand) :
    isRecordKey (recordKey command) = true :=
  List.isPrefixOf_iff_prefix.mpr (List.prefix_append _ _)

theorem isRecordKey_indexKey (idempotencyKey : Bytes) :
    isRecordKey (idempotencyIndexKey idempotencyKey) = false := rfl

theorem indexKey_ne_recordKey (idempotencyKey : Bytes) (command : RecoveryCommand) :
    idempotencyIndexKey idempotencyKey ≠ recordKey command := by
  intro h
  have hkey := isRecordKey_recordKey command
  rw [← h, isRecordKey_indexKey] at hkey
  cases hkey

theorem recordKey_ne_nil (command : RecoveryCommand) : recordKey command ≠ [] :=
  stableKey_ne_nil (by decide +kernel) _

theorem indexKey_ne_nil (idempotencyKey : Bytes) : idempotencyIndexKey idempotencyKey ≠ [] :=
  stableKey_ne_nil (by decide +kernel) _

section Transactions

variable {key : Bytes} {s s' : Store} {β : Type}

theorem bind_loadRecord_ok {f : Option JournalRecord → Tx β} {result : β × Store} :
    (loadRecord key >>= f) s = .ok result ↔ key ≠ [] ∧
      ((s .commandJournal)[key]? = none ∧ f none s = .ok result ∨
        ∃ r, Loads s key r ∧ f (some r) s = .ok result) := by
  unfold loadRecord
  rw [bind_assoc, Tx.bind_get_ok]
  refine and_congr_right fun _ => ?_
  cases hdocument : (s .commandJournal)[key]? with
  | none => simp [Loads, hdocument]
  | some document =>
    simp only [map_eq_pure_bind, bind_assoc, pure_bind, Tx.bind_liftExcept_ok, reduceCtorEq,
      false_and, false_or, Loads, hdocument, Option.some.injEq, exists_eq_left']

theorem putRecord_ok {r : JournalRecord} {u : Unit} :
    putRecord key r s = .ok (u, s') ↔ ∃ document, Written key r document ∧
      s' = Function.update s .commandJournal ((s .commandJournal).insert key document) := by
  unfold putRecord
  rw [Tx.bind_require_ok, Tx.bind_liftExcept_ok]
  simp only [encode_ok, Tx.put_ok]
  constructor
  · rintro ⟨⟨hkey, hvalid⟩, document, hmarshal, -, -, rfl⟩
    obtain ⟨_, hok⟩ := exists_of_isOk hvalid
    exact ⟨document, ⟨hkey, hok, hmarshal⟩, rfl⟩
  · rintro ⟨document, ⟨hkey, hvalid, hmarshal⟩, rfl⟩
    have hne : key ≠ [] := hkey ▸ recordKey_ne_nil _
    exact ⟨⟨hkey, by rw [hvalid]; rfl⟩, document, hmarshal, by decide, hne, rfl⟩

theorem updateRecord_ok {update : JournalRecord → Except Error JournalRecord} {r' : JournalRecord} :
    updateRecord key update s = .ok (r', s') ↔ ∃ r document, Loads s key r ∧ update r = .ok r' ∧
      Written key r' document ∧
      s' = Function.update s .commandJournal ((s .commandJournal).insert key document) := by
  unfold updateRecord
  rw [bind_loadRecord_ok]
  constructor
  · rintro ⟨-, ⟨-, h⟩ | ⟨r, hr, h⟩⟩
    · cases h
    · obtain ⟨updated, hupdate, h⟩ := Tx.bind_liftExcept_ok.mp h
      obtain ⟨_, s1, hput, h⟩ := Tx.bind_ok.mp h
      obtain ⟨document, hwritten, rfl⟩ := putRecord_ok.mp hput
      cases h
      exact ⟨r, document, hr, hupdate, hwritten, rfl⟩
  · rintro ⟨r, document, hr, hupdate, hwritten, rfl⟩
    refine ⟨hwritten.key_eq ▸ recordKey_ne_nil _, .inr ⟨r, hr, ?_⟩⟩
    refine Tx.bind_liftExcept_ok.mpr ⟨r', hupdate, ?_⟩
    exact Tx.bind_ok.mpr ⟨(), _, putRecord_ok.mpr ⟨document, hwritten, rfl⟩, rfl⟩

/-- A request finds its record under the key of its effect, or creates it. -/
theorem persistPending_ok {record persisted : JournalRecord} {duplicate : Bool}
    (h : persistPending record s = .ok ((persisted, duplicate), s')) :
    duplicate = true ∧ Loads s (recordKey record.command) persisted ∧
        (s' = s ∨ s' = Function.update s .commandJournal ((s .commandJournal).insert
          (idempotencyIndexKey record.command.idempotencyKey) (recordKey record.command))) ∨
      duplicate = false ∧ persisted = record ∧
        (s .commandJournal)[recordKey record.command]? = none ∧
        ∃ document, Written (recordKey record.command) record document ∧
          s' = Function.update s .commandJournal
            (((s .commandJournal).insert (recordKey record.command) document).insert
              (idempotencyIndexKey record.command.idempotencyKey) (recordKey record.command)) := by
  unfold persistPending at h
  obtain ⟨-, h⟩ := Tx.bind_get_ok.mp h
  cases hindexed : (s .commandJournal)[idempotencyIndexKey record.command.idempotencyKey]? with
  | some indexed =>
    rw [hindexed] at h
    obtain ⟨-, h⟩ := Tx.bind_require_ok.mp h
    obtain ⟨-, ⟨-, h⟩ | ⟨r, hr, h⟩⟩ := bind_loadRecord_ok.mp h
    · cases h
    · cases h
      exact .inl ⟨rfl, hr, .inl rfl⟩
  | none =>
    rw [hindexed] at h
    obtain ⟨-, ⟨habsent, h⟩ | ⟨r, hr, h⟩⟩ := bind_loadRecord_ok.mp h
    · obtain ⟨_, s1, hput, h⟩ := Tx.bind_ok.mp h
      obtain ⟨document, hwritten, rfl⟩ := putRecord_ok.mp hput
      obtain ⟨-, -, h⟩ := Tx.bind_put_ok.mp h
      cases h
      refine .inr ⟨rfl, rfl, habsent, document, hwritten, ?_⟩
      rw [Function.update_self, Function.update_idem]
    · obtain ⟨-, -, h⟩ := Tx.bind_put_ok.mp h
      cases h
      exact .inl ⟨rfl, hr, .inr rfl⟩

theorem persistPending_of_absent {record : JournalRecord} {document : Bytes}
    (hindex : (s .commandJournal)[idempotencyIndexKey record.command.idempotencyKey]? = none)
    (hrecord : (s .commandJournal)[recordKey record.command]? = none)
    (hwritten : Written (recordKey record.command) record document) :
    persistPending record s = .ok ((record, false), Function.update s .commandJournal
      (((s .commandJournal).insert (recordKey record.command) document).insert
        (idempotencyIndexKey record.command.idempotencyKey) (recordKey record.command))) := by
  unfold persistPending
  refine Tx.bind_get_ok.mpr ⟨indexKey_ne_nil _, ?_⟩
  rw [hindex]
  refine bind_loadRecord_ok.mpr ⟨recordKey_ne_nil _, .inl ⟨hrecord, ?_⟩⟩
  refine Tx.bind_ok.mpr ⟨(), _, putRecord_ok.mpr ⟨document, hwritten, rfl⟩, ?_⟩
  refine Tx.bind_put_ok.mpr ⟨by decide, indexKey_ne_nil _, ?_⟩
  rw [Function.update_self, Function.update_idem]
  rfl

end Transactions

/-! ## Effects -/

/-- What a transaction may bring into the journal: new records, and approval IDs for old ones. -/
structure Intake where
  record : JournalRecord → Prop
  approval : Bytes → Prop

def Intake.nothing : Intake := ⟨fun _ => False, fun _ => False⟩

inductive KeyEffect (intake : Intake) (s s' : Store) (key : Bytes) : Prop where
  | same (h : (s' .commandJournal)[key]? = (s .commandJournal)[key]?)
  | created (r : JournalRecord) (document : Bytes) (habsent : (s .commandJournal)[key]? = none)
      (hwritten : Written key r document) (h : (s' .commandJournal)[key]? = some document)
      (hnew : intake.record r)
  | advanced (old new : JournalRecord) (document : Bytes) (hloads : Loads s key old)
      (hadvance : Advance intake.approval old new) (hwritten : Written key new document)
      (h : (s' .commandJournal)[key]? = some document)

def JournalEffect (intake : Intake) (s s' : Store) : Prop :=
  ∀ key, isRecordKey key = true → KeyEffect intake s s' key

namespace JournalEffect

variable {intake : Intake} {s s' : Store}

theorem of_eq (h : s' .commandJournal = s .commandJournal) : JournalEffect intake s s' :=
  fun _ _ => .same (by rw [h])

theorem of_persistPending {record : JournalRecord} {result : JournalRecord × Bool}
    (hnew : intake.record record) (h : persistPending record s = .ok (result, s')) :
      JournalEffect intake s s' := by
  intro key hkey
  have hindex : idempotencyIndexKey record.command.idempotencyKey ≠ key := by
    rintro rfl
    rw [isRecordKey_indexKey] at hkey
    cases hkey
  obtain ⟨-, -, rfl | rfl⟩ | ⟨-, -, habsent, document, hwritten, rfl⟩ := persistPending_ok h
  · exact .same rfl
  · refine .same ?_
    rw [Function.update_self, Std.ExtTreeMap.getElem?_insert]
    simp [hindex]
  · by_cases hrecord : recordKey record.command = key
    · subst hrecord
      refine .created record document habsent hwritten ?_ hnew
      rw [Function.update_self, Std.ExtTreeMap.getElem?_insert, Std.ExtTreeMap.getElem?_insert_self]
      simp [hindex]
    · refine .same ?_
      rw [Function.update_self, Std.ExtTreeMap.getElem?_insert, Std.ExtTreeMap.getElem?_insert]
      simp [hindex, hrecord]

theorem of_insert {key document : Bytes} {old new : JournalRecord} (hloads : Loads s key old)
    (hadvance : Advance intake.approval old new) (hwritten : Written key new document)
    (h : s' .commandJournal = (s .commandJournal).insert key document) :
      JournalEffect intake s s' := by
  intro key' _
  by_cases hkey : key = key'
  · subst hkey
    refine .advanced old new document hloads hadvance hwritten ?_
    rw [h, Std.ExtTreeMap.getElem?_insert_self]
  · refine .same ?_
    rw [h, Std.ExtTreeMap.getElem?_insert]
    simp [hkey]

theorem of_updateRecord {key : Bytes} {update : JournalRecord → Except Error JournalRecord}
    {r' : JournalRecord} (hupdate : ∀ r r', update r = .ok r' → Advance intake.approval r r')
    (h : updateRecord key update s = .ok (r', s')) : JournalEffect intake s s' := by
  obtain ⟨r, document, hloads, hr, hwritten, rfl⟩ := updateRecord_ok.mp h
  exact of_insert hloads (hupdate r r' hr) hwritten (by rw [Function.update_self])

end JournalEffect

/-! ## Buckets other than the journal -/

theorem updateRecord_keeps {bucket : Bucket} (h : bucket ≠ .commandJournal) (key : Bytes)
    (update : JournalRecord → Except Error JournalRecord) :
    Tx.Keeps bucket (updateRecord key update) := by
  intro s r s' hupdate
  obtain ⟨_, _, -, -, -, rfl⟩ := updateRecord_ok.mp hupdate
  exact Function.update_of_ne h _ _

theorem persistPending_keeps {bucket : Bucket} (h : bucket ≠ .commandJournal)
    (record : JournalRecord) : Tx.Keeps bucket (persistPending record) := by
  intro s r s' hpersist
  obtain ⟨-, -, rfl | rfl⟩ | ⟨-, -, -, _, -, rfl⟩ := persistPending_ok hpersist
  · rfl
  · exact Function.update_of_ne h _ _
  · exact Function.update_of_ne h _ _

end PulseAgent.Recovery
