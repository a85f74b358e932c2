import PulseAgent.Concurrent.Sequential
import PulseAgent.Contract.Clean
import PulseAgent.Recovery.Reads

/-!
# Reconciliation after a restart

`heldRecords` is what a reconciliation has to write. A `Reconcile` call that runs alone and returns
without error writes exactly that and never executes anything. Whether the next scan can read the
journal depends on the size of these records.
-/

namespace PulseAgent.Recovery

open Go Go.Json Contract Concurrent

/-- The record as it is held for verification, with what the adapter observed at this time. -/
def heldRecord (record : JournalRecord) (observed : Except Error Docker.Snapshot) (now : Time) :
    JournalRecord :=
  let snapshot := verifiedSnapshot record.command observed
  { record with
    phase := .verifyAndNotify
    reconciliation := some
      { observedAt := now, verified := snapshot.isSome, snapshot := snapshot.getD {} } }

/-- Each record takes three answers: a reading of the clock, the adapter's and the store's. -/
def heldRecords (answers : Answers interface) : List StoredRecord → List StoredRecord
  | [] => []
  | stored :: records =>
    ⟨stored.key, heldRecord stored.record
      (answers 1 (.verify stored.record.target) : Environment).snapshot
      (answers 0 .clock : Environment).now⟩ :: heldRecords (answers.drop 3) records

/-- The journal's records that a restart interrupted, in key order. -/
def interrupted (s : Store) : List StoredRecord :=
  (storedRecords s).filter fun stored => isReconcilablePhase stored.record.phase

theorem verifiedSnapshot_own {command : RecoveryCommand} {observed : Except Error Docker.Snapshot}
    {snapshot : Docker.Snapshot} (h : verifiedSnapshot command observed = some snapshot) :
    observed = .ok snapshot ∧ snapshot.targetID = command.targetID := by
  unfold verifiedSnapshot at h
  split at h
  case h_1 =>
    split at h
    case isTrue htarget =>
      cases h
      exact ⟨rfl, htarget⟩
    case isFalse => cases h
  case h_2 => cases h

theorem verifyRecord_verified {record : JournalRecord}
    (hphase : isReconcilablePhase record.phase = true)
    (observed : Except Error Docker.Snapshot) (now : Time) :
    verifyRecord ((verifiedSnapshot record.command observed).getD {})
      (verifiedSnapshot record.command observed).isSome now record =
        .ok (heldRecord record observed now) := by
  unfold verifyRecord heldRecord
  rw [if_pos hphase]
  cases h : verifiedSnapshot record.command observed with
  | none => rfl
  | some snapshot => simp [(verifiedSnapshot_own h).2]

theorem heldRecord_spec (record : JournalRecord) (observed : Except Error Docker.Snapshot)
    (now : Time) :
    ∃ x, heldRecord record observed now =
        { record with phase := .verifyAndNotify, reconciliation := some x } ∧
      (x.verified = true → x.snapshot.targetID = record.command.targetID ∧
        observed = .ok x.snapshot) ∧
      (x.verified = false → x.snapshot = {}) := by
  refine ⟨_, rfl, ?_, ?_⟩
  · intro hverified
    obtain ⟨snapshot, hsnapshot⟩ := Option.isSome_iff_exists.mp hverified
    obtain ⟨hok, hown⟩ := verifiedSnapshot_own hsnapshot
    simp only [hsnapshot, Option.getD_some]
    exact ⟨hown, hok⟩
  · intro hfalse
    simp only [Option.isSome_eq_false_iff, Option.isNone_iff_eq_none] at hfalse
    simp only [hfalse, Option.getD_none]

theorem heldRecords_keys (answers : Answers interface) (records : List StoredRecord) :
    (heldRecords answers records).map StoredRecord.key = records.map StoredRecord.key := by
  induction records generalizing answers with
  | nil => rfl
  | cons stored records ih => simp only [heldRecords, List.map_cons, ih]

theorem heldRecords_commands (answers : Answers interface) (records : List StoredRecord) :
    (heldRecords answers records).map
      (ReconciliationResult.command ∘ fun stored => reconciliationResult stored.record) =
        records.map (·.record.command) := by
  induction records generalizing answers with
  | nil => rfl
  | cons stored records ih =>
    rw [heldRecords, List.map_cons, List.map_cons, ih]
    rfl

/-- What the store is after these records have been written over their old versions. -/
structure Held (s s' : Store) (held : List StoredRecord) : Prop where
  written : ∀ stored ∈ held, ∃ document, Written stored.key stored.record document ∧
    (s' .commandJournal)[stored.key]? = some document
  others : ∀ key, key ∉ held.map StoredRecord.key →
    (s' .commandJournal)[key]? = (s .commandJournal)[key]?
  buckets : ∀ bucket, bucket ≠ .commandJournal → s' bucket = s bucket

theorem now_exec (answers : Answers interface) (s : Store) :
    now.exec answers s =
      ⟨if Time.isZero (answers 0 .clock : Environment).now then .error errInvalidOptions
        else .ok (answers 0 .clock : Environment).now, s, [⟨.clock, answers 0 .clock, s⟩]⟩ := rfl

theorem exec_call_bind {α : Type} (o : Op) (f : o.Res → Prog α) (answers : Answers interface)
    (s : Store) :
    (call o >>= f).exec answers s =
      let rest := (f (perform o (answers 0 o) s).1).exec (answers.drop 1)
        (perform o (answers 0 o) s).2
      ⟨rest.value, rest.state, ⟨o, answers 0 o, s⟩ :: rest.trace⟩ := rfl

theorem exec_commit_bind {α : Type} (t : Transaction) (f : Except Error t.Out → Prog α)
    (answers : Answers interface) (s : Store) :
    (commit t >>= f).exec answers s =
      let env : Environment := answers 0 (.tx t)
      let rest := (f (t.run env.fault env.audit s).1).exec (answers.drop 1)
        (t.run env.fault env.audit s).2
      ⟨rest.value, rest.state, ⟨.tx t, env, s⟩ :: rest.trace⟩ := rfl

theorem reconcileRecords_round (stored : StoredRecord) (records : List StoredRecord)
    (results : List ReconciliationResult) (answers : Answers interface) (s : Store) :
    (∃ e, ((reconcileRecords (stored :: records) results).exec answers s).value = .error e) ∨
    ∃ updated s1, markVerifyAndNotify stored.key
        ((verifiedSnapshot stored.record.command
          (answers 1 (.verify stored.record.target) : Environment).snapshot).getD {})
        (verifiedSnapshot stored.record.command
          (answers 1 (.verify stored.record.target) : Environment).snapshot).isSome
        (answers 0 .clock : Environment).now s = .ok (updated, s1) ∧
      ((reconcileRecords (stored :: records) results).exec answers s).value =
        ((reconcileRecords records (results ++ [reconciliationResult updated])).exec
          (answers.drop 3) s1).value ∧
      ((reconcileRecords (stored :: records) results).exec answers s).state =
        ((reconcileRecords records (results ++ [reconciliationResult updated])).exec
          (answers.drop 3) s1).state ∧
      ∃ reading commit, ((reconcileRecords (stored :: records) results).exec answers s).trace =
        reading :: ⟨.verify stored.record.target, answers 1 (.verify stored.record.target), s⟩ ::
          commit :: ((reconcileRecords records (results ++ [reconciliationResult updated])).exec
            (answers.drop 3) s1).trace := by
  by_cases hzero : Time.isZero (answers 0 .clock : Environment).now = true
  · refine .inl ⟨errInvalidOptions, ?_⟩
    rw [reconcileRecords, Prog.exec_bind, now_exec, if_pos hzero]
    rfl
  · rw [reconcileRecords, Prog.exec_bind, now_exec, if_neg hzero]
    dsimp only
    rw [exec_call_bind]
    dsimp only
    rw [exec_commit_bind]
    dsimp only
    split
    case h_1 e hrun => exact .inl ⟨e, rfl⟩
    case h_2 updated hrun => exact .inr ⟨updated, _, Transaction.run_ok hrun, rfl, rfl, _, _, rfl⟩

theorem loads_of_insert {s : Store} {key key' document : Bytes} {r : JournalRecord}
    (hne : key ≠ key')
    (h : Loads s key' r) :
    Loads (Function.update s .commandJournal ((s .commandJournal).insert key document)) key' r := by
  obtain ⟨document', hdocument', hchecked⟩ := h
  refine ⟨document', ?_, hchecked⟩
  rw [Function.update_self, Std.ExtTreeMap.getElem?_insert]
  simp [hne, hdocument']

theorem reconcileRecords_exec (records : List StoredRecord) (results : List ReconciliationResult)
    (answers : Answers interface) (s : Store) {results' : List ReconciliationResult}
    (hloads : ∀ stored ∈ records, Loads s stored.key stored.record ∧
      isReconcilablePhase stored.record.phase = true)
    (hkeys : (records.map StoredRecord.key).Nodup)
    (h : ((reconcileRecords records results).exec answers s).value = .ok results') :
    results' = results ++ (heldRecords answers records).map (reconciliationResult ·.record) ∧
      Held s ((reconcileRecords records results).exec answers s).state
        (heldRecords answers records) ∧
      ∀ stored ∈ records, ∃ c ∈ ((reconcileRecords records results).exec answers s).trace, ∃ now,
        c.op = Op.verify stored.record.target ∧
          ⟨stored.key, heldRecord stored.record (c.answer : Environment).snapshot now⟩ ∈
            heldRecords answers records := by
  induction records generalizing results answers s with
  | nil =>
    cases h
    exact ⟨by simp [heldRecords], ⟨by simp [heldRecords], fun _ _ => rfl, fun _ _ => rfl⟩, by simp⟩
  | cons stored records ih =>
    obtain ⟨hload, hphase⟩ := hloads stored List.mem_cons_self
    rw [List.map_cons, List.nodup_cons] at hkeys
    obtain ⟨e, herror⟩ | ⟨updated, s1, hmark, hvalue, hstate, reading, commit, htrace⟩ :=
      reconcileRecords_round stored records results answers s
    · rw [herror] at h
      cases h
    · obtain ⟨old, document, hold, hupdate, hwritten, rfl⟩ := updateRecord_ok.mp hmark
      obtain rfl := Option.some.inj (hold.recordAt_eq.symm.trans hload.recordAt_eq)
      rw [verifyRecord_verified hphase] at hupdate
      obtain rfl := Except.ok.inj hupdate
      have hne : ∀ other ∈ records, stored.key ≠ other.key := fun other hother heq =>
        hkeys.1 (heq ▸ List.mem_map_of_mem hother)
      rw [hvalue] at h
      obtain ⟨hresults, hheld, hobserved⟩ := ih _ (answers.drop 3) _
        (fun other hother => ⟨loads_of_insert (hne other hother)
          (hloads other (List.mem_cons_of_mem stored hother)).1,
          (hloads other (List.mem_cons_of_mem stored hother)).2⟩) hkeys.2 h
      rw [hstate, htrace]
      refine ⟨?_, ⟨?_, ?_, ?_⟩, ?_⟩
      · rw [hresults]
        simp [heldRecords]
      · intro other hother
        rcases List.mem_cons.mp hother with rfl | hother
        · refine ⟨document, hwritten, ?_⟩
          rw [hheld.others _ (by rw [heldRecords_keys]; exact hkeys.1), Function.update_self,
            Std.ExtTreeMap.getElem?_insert_self]
        · exact hheld.written other hother
      · intro key hkey
        rw [heldRecords, List.map_cons, List.mem_cons, not_or] at hkey
        rw [hheld.others key hkey.2, Function.update_self, Std.ExtTreeMap.getElem?_insert]
        simp [Ne.symm hkey.1]
      · intro bucket hbucket
        rw [hheld.buckets bucket hbucket, Function.update_of_ne hbucket]
      · intro other hother
        rcases List.mem_cons.mp hother with rfl | hother
        · refine ⟨_, List.mem_cons_of_mem _ List.mem_cons_self, _, rfl, List.mem_cons_self⟩
        · obtain ⟨c, hc, now, hop, hmem⟩ := hobserved other hother
          exact ⟨c, by simp [hc], now, hop, List.mem_cons_of_mem _ hmem⟩

/-! ## Read records -/

theorem cleans_journalRecord : JournalRecord.codec.Cleans := by
  have hsnapshot : Docker.Snapshot.codec.Cleans := by
    refine Codec.cleans_struct ?_
    simp only [Docker.Snapshot.fields, List.forall_mem_cons, List.not_mem_nil, false_imp_iff,
      implies_true, and_true]
    exact ⟨.of Codec.cleans_string (fun _ _ => rfl) fun _ => rfl,
      .plain (fun _ => rfl) (fun _ _ => rfl) fun _ => rfl,
      .plain (fun _ => rfl) (fun _ _ => rfl) fun _ => rfl⟩
  have hreconciliation : Reconciliation.codec.Cleans := by
    refine Codec.cleans_struct ?_
    simp only [Reconciliation.fields, List.forall_mem_cons, List.not_mem_nil, false_imp_iff,
      implies_true, and_true]
    exact ⟨.plain (fun _ => rfl) (fun _ _ => rfl) fun _ => rfl,
      .plain (fun _ => rfl) (fun _ _ => rfl) fun _ => rfl,
      .of hsnapshot (fun _ _ => rfl) fun _ => rfl⟩
  have hphase : JournalPhase.codec.Cleans := Codec.cleans_named JournalPhase.text_ofText
  refine Codec.cleans_struct ?_
  simp only [JournalRecord.fields, List.forall_mem_cons, List.not_mem_nil, false_imp_iff,
    implies_true, and_true]
  exact ⟨.of Codec.cleans_string (fun _ _ => rfl) fun _ => rfl,
    .of cleans_recoveryCommand (fun _ _ => rfl) fun _ => rfl,
    .of cleans_serviceTarget (fun _ _ => rfl) fun _ => rfl,
    .of cleans_typedAction (fun _ _ => rfl) fun _ => rfl,
    .of hphase (fun _ _ => rfl) fun _ => rfl,
    .omitEmpty (Codec.cleans_pointer hreconciliation rfl) (fun _ _ => rfl) fun _ => rfl⟩

theorem Loads.norm_eq {s : Store} {key : Bytes} {r : JournalRecord} (h : Loads s key r) :
    JournalRecord.codec.norm r = r := by
  obtain ⟨document, -, hchecked⟩ := h
  exact norm_of_content cleans_journalRecord rfl (checkedRecord_ok hchecked).1

/-- A snapshot is kept only of the record's own target, so its text is that of the record. -/
theorem norm_heldRecord {record : JournalRecord}
    (hrecord : JournalRecord.codec.norm record = record)
    (observed : Except Error Docker.Snapshot) (now : Time) :
    JournalRecord.codec.norm (heldRecord record observed now) = heldRecord record observed now := by
  have htarget : Utf8.toValidUTF8 record.command.targetID = record.command.targetID :=
    congrArg (fun r => r.command.targetID) hrecord
  have hsnapshot : Docker.Snapshot.codec.norm ((verifiedSnapshot record.command observed).getD {}) =
      (verifiedSnapshot record.command observed).getD {} := by
    cases h : verifiedSnapshot record.command observed with
    | none => rfl
    | some snapshot =>
      have hown := (verifiedSnapshot_own h).2
      obtain ⟨targetID, running, healthy⟩ := snapshot
      change Docker.Snapshot.mk (Utf8.toValidUTF8 targetID) running healthy = _
      simp only at hown
      rw [hown, htarget]
      rfl
  unfold heldRecord
  rw [norm_held, hrecord]
  change { record with
    phase := JournalPhase.verifyAndNotify
    reconciliation := some (Reconciliation.mk now
      (verifiedSnapshot record.command observed).isSome (Docker.Snapshot.codec.norm _)) } = _
  rw [hsnapshot]

/-! ## One call and the next -/

theorem interrupted_spec {s : Store} {stored : StoredRecord} :
    stored ∈ interrupted s ↔ isRecordKey stored.key = true ∧ Loads s stored.key stored.record ∧
      isReconcilablePhase stored.record.phase = true := by
  rw [interrupted, List.mem_filter, mem_storedRecords, and_assoc]

theorem interrupted_keys (s : Store) : ((interrupted s).map StoredRecord.key).Nodup :=
  List.pairwise_map.mpr ((storedRecords_pairwise s).filter _)

/-- A call that runs alone and succeeds has read the whole journal and held every interrupted
record, each with what the adapter was asked about its own target. -/
theorem reconcile_exec {answers : Answers interface} {s : Store}
    {results : List ReconciliationResult} (h : (reconcile.exec answers s).value = .ok results) :
    Readable (s .commandJournal).toList ∧
      results = (heldRecords (answers.drop 1) (interrupted s)).map (reconciliationResult ·.record) ∧
      Held s (reconcile.exec answers s).state (heldRecords (answers.drop 1) (interrupted s)) ∧
      ∀ stored ∈ interrupted s, ∃ c ∈ (reconcile.exec answers s).trace, ∃ now,
        c.op = Op.verify stored.record.target ∧
          ⟨stored.key, heldRecord stored.record (c.answer : Environment).snapshot now⟩ ∈
            heldRecords (answers.drop 1) (interrupted s) := by
  rw [reconcile, exec_commit_bind] at h ⊢
  dsimp only at h ⊢
  split at h
  case h_1 => cases h
  case h_2 records hrun =>
    obtain ⟨hstate, hreadable, hrecords⟩ := reconcilableRecords_ok.mp (Transaction.run_ok hrun)
    change interrupted s = records at hrecords
    subst hrecords
    rw [hstate] at h ⊢
    obtain ⟨hresults, hheld, hobserved⟩ := reconcileRecords_exec (interrupted s) []
      (answers.drop 1) s (fun stored hstored => (interrupted_spec.mp hstored).2)
      (interrupted_keys s) h
    refine ⟨hreadable, by simpa using hresults, hheld, fun stored hstored => ?_⟩
    obtain ⟨c, hc, hrest⟩ := hobserved stored hstored
    exact ⟨c, List.mem_cons_of_mem _ hc, hrest⟩

theorem sat_reconcile_effectless (h : List (Occurrence interface)) :
    reconcile.Sat (fun _ o => executedEffect o = none) (fun _ _ => True) h := by
  have hloop : ∀ records results h, (reconcileRecords records results).Sat
      (fun _ o => executedEffect o = none) (fun _ _ => True) h := by
    intro records
    induction records with
    | nil => exact fun _ _ => trivial
    | cons stored records ih =>
      intro results h
      have hnow : now.Sat (fun _ o => executedEffect o = none) (fun _ _ => True) h :=
        ⟨rfl, fun _ _ => trivial⟩
      refine hnow.bind fun h reading _ => ?_
      cases reading with
      | error e => trivial
      | ok now =>
        refine Prog.Sat.call_bind rfl fun env s => Prog.Sat.call_bind rfl fun env' s' => ?_
        split
        case h_1 => trivial
        case h_2 => exact ih _ _
  refine .call_bind rfl fun env s => ?_
  split
  case h_1 => trivial
  case h_2 records _ => exact hloop records [] _

section Reconciled

variable {answers : Answers interface} {s s' : Store}

theorem checkedRecord_held (hheld : Held s s' (heldRecords answers (interrupted s)))
    {stored : StoredRecord} (hstored : stored ∈ heldRecords answers (interrupted s))
    (hnorm : JournalRecord.codec.norm stored.record = stored.record) {document : Bytes}
    (hdocument : (s' .commandJournal)[stored.key]? = some document) :
    (∃ r, checkedRecord stored.key document = .ok r) ↔
      encodedLength stored.record ≤ maxJournalDocumentBytes := by
  obtain ⟨written, hwritten, hlookup⟩ := hheld.written stored hstored
  obtain rfl := Option.some.inj (hdocument.symm.trans hlookup)
  have hlength : encodedLength stored.record = document.length := by
    rw [encodedLength, hwritten.marshal, Option.getD_some]
  have hloads := hwritten.loads_iff hdocument
  rw [hlength]
  constructor
  · rintro ⟨r, hr⟩
    have hcontent := (checkedRecord_ok hr).1
    rw [hwritten.content_eq, hnorm] at hcontent
    obtain rfl := Option.some.inj hcontent
    exact (hloads.mp ⟨document, hdocument, hr⟩).2
  · intro hsize
    obtain ⟨found, hfound, hchecked⟩ := hloads.mpr ⟨hnorm, hsize⟩
    obtain rfl := Option.some.inj (hdocument.symm.trans hfound)
    exact ⟨_, hchecked⟩

theorem norm_of_held {stored : StoredRecord} {records : List StoredRecord}
    (hrecords : ∀ stored ∈ records, JournalRecord.codec.norm stored.record = stored.record)
    (h : stored ∈ heldRecords answers records) :
    JournalRecord.codec.norm stored.record = stored.record ∧
      stored.record.phase = .verifyAndNotify := by
  induction records generalizing answers with
  | nil => cases h
  | cons first records ih =>
    rcases List.mem_cons.mp h with rfl | h
    · exact ⟨norm_heldRecord (hrecords first List.mem_cons_self) _ _, rfl⟩
    · exact ih (fun other hother => hrecords other (List.mem_cons_of_mem first hother)) h

theorem recordAt_of_held (hheld : Held s s' (heldRecords answers (interrupted s)))
    {stored : StoredRecord} (hstored : stored ∈ heldRecords answers (interrupted s)) :
    recordAt s' stored.key = some stored.record ∧
      JournalRecord.codec.norm stored.record = stored.record ∧
      stored.record.phase = .verifyAndNotify := by
  obtain ⟨hnorm, hphase⟩ := norm_of_held
    (fun other hother => (interrupted_spec.mp hother).2.1.norm_eq) hstored
  obtain ⟨document, hwritten, hlookup⟩ := hheld.written stored hstored
  exact ⟨by rw [recordAt_of_written hlookup hwritten, hnorm], hnorm, hphase⟩

theorem not_reconcilable_of_held (hreadable : Readable (s .commandJournal).toList)
    (hheld : Held s s' (heldRecords answers (interrupted s))) {key : Bytes} {r : JournalRecord}
    (hkey : isRecordKey key = true) (hr : recordAt s' key = some r) :
    isReconcilablePhase r.phase = false := by
  by_cases hmem : key ∈ (heldRecords answers (interrupted s)).map StoredRecord.key
  · obtain ⟨stored, hstored, rfl⟩ := List.mem_map.mp hmem
    obtain ⟨hrecord, -, hphase⟩ := recordAt_of_held hheld hstored
    obtain rfl := Option.some.inj (hrecord.symm.trans hr)
    rw [hphase]
    rfl
  · rw [recordAt, hheld.others key hmem, ← recordAt] at hr
    obtain ⟨document, hdocument, hcontent⟩ := Option.bind_eq_some_iff.mp hr
    obtain ⟨r', hchecked⟩ := hreadable (key, document)
      (Std.ExtTreeMap.mem_toList_iff_getElem?_eq_some.mpr hdocument) hkey
    obtain rfl := Option.some.inj (hcontent.symm.trans (checkedRecord_ok hchecked).1)
    by_contra hphase
    rw [Bool.not_eq_false] at hphase
    refine hmem ?_
    rw [heldRecords_keys]
    have hinterrupted : ⟨key, r⟩ ∈ interrupted s :=
      interrupted_spec.mpr ⟨hkey, ⟨document, hdocument, hchecked⟩, hphase⟩
    exact List.mem_map_of_mem hinterrupted

/-- The next scan reads the journal exactly if every held record fits. -/
theorem readable_held_iff (hreadable : Readable (s .commandJournal).toList)
    (hheld : Held s s' (heldRecords answers (interrupted s))) :
    Readable (s' .commandJournal).toList ↔
      ∀ stored ∈ heldRecords answers (interrupted s),
        encodedLength stored.record ≤ maxJournalDocumentBytes := by
  constructor
  · intro hreadable' stored hstored
    obtain ⟨-, hnorm, -⟩ := recordAt_of_held hheld hstored
    obtain ⟨document, hwritten, hlookup⟩ := hheld.written stored hstored
    have hkey : isRecordKey stored.key = true := by
      rw [← hwritten.key_eq]
      exact isRecordKey_recordKey _
    exact (checkedRecord_held hheld hstored hnorm hlookup).mp (hreadable' (stored.key, document)
      (Std.ExtTreeMap.mem_toList_iff_getElem?_eq_some.mpr hlookup) hkey)
  · rintro hfits ⟨key, document⟩ hentry hkey
    have hlookup := Std.ExtTreeMap.mem_toList_iff_getElem?_eq_some.mp hentry
    by_cases hmem : key ∈ (heldRecords answers (interrupted s)).map StoredRecord.key
    · obtain ⟨stored, hstored, rfl⟩ := List.mem_map.mp hmem
      obtain ⟨-, hnorm, -⟩ := recordAt_of_held hheld hstored
      exact (checkedRecord_held hheld hstored hnorm hlookup).mpr (hfits stored hstored)
    · rw [hheld.others key hmem] at hlookup
      exact hreadable (key, document)
        (Std.ExtTreeMap.mem_toList_iff_getElem?_eq_some.mpr hlookup) hkey

/-- With nothing interrupted a call only scans. -/
theorem reconcile_again_iff (again : Answers interface)
    (hfault : (again 0 (.tx .reconcilableRecords) : Environment).fault = none)
    (hnone : ∀ key r, isRecordKey key = true → recordAt s key = some r →
      isReconcilablePhase r.phase = false) :
    ((reconcile.exec again s).value = .ok [] ∧ (reconcile.exec again s).state = s) ↔
      Readable (s .commandJournal).toList := by
  constructor
  · rintro ⟨hvalue, -⟩
    exact (reconcile_exec hvalue).1
  · intro hreadable
    have hempty : interrupted s = [] := by
      refine List.eq_nil_iff_forall_not_mem.mpr fun stored hstored => ?_
      obtain ⟨hkey, hloads, hphase⟩ := interrupted_spec.mp hstored
      rw [hnone _ _ hkey hloads.recordAt_eq] at hphase
      cases hphase
    have hscan : reconcilableRecords s = .ok ([], s) :=
      reconcilableRecords_ok.mpr ⟨rfl, hreadable, hempty⟩
    have hrun : (Transaction.reconcilableRecords).run none
        (again 0 (.tx .reconcilableRecords) : Environment).audit s = (.ok [], s) := by
      simp only [Transaction.run, Transaction.body, hscan]
    rw [reconcile, exec_commit_bind]
    dsimp only
    rw [hfault, hrun]
    exact ⟨rfl, rfl⟩

/-- A call to `Reconcile` that runs alone and returns without error executes nothing, reports
every interrupted record once, leaves it held with a snapshot only of its own target, and leaves
all else as it was. The next call finds nothing to do exactly if every record that was written
fits the reader's limit. -/
theorem reconcile_complete_iff (s : Store) (answers : Answers interface)
    {results : List ReconciliationResult} (h : (reconcile.exec answers s).value = .ok results) :
    (∀ c ∈ (reconcile.exec answers s).trace, ∀ command target action,
      c.op ≠ Op.execute command target action) ∧
    results.map ReconciliationResult.command = (interrupted s).map (·.record.command) ∧
    (∀ stored ∈ interrupted s, ∃ x, recordAt (reconcile.exec answers s).state stored.key =
        some { stored.record with phase := .verifyAndNotify, reconciliation := some x } ∧
      (x.verified = true → x.snapshot.targetID = stored.record.command.targetID ∧
        ∃ c ∈ (reconcile.exec answers s).trace, c.op = Op.verify stored.record.target ∧
          (c.answer : Environment).snapshot = .ok x.snapshot) ∧
      (x.verified = false → x.snapshot = {})) ∧
    (∀ key r, isRecordKey key = true → recordAt (reconcile.exec answers s).state key = some r →
      isReconcilablePhase r.phase = false) ∧
    (∀ key, key ∉ (interrupted s).map StoredRecord.key →
      ((reconcile.exec answers s).state .commandJournal)[key]? = (s .commandJournal)[key]?) ∧
    (∀ bucket, bucket ≠ .commandJournal → (reconcile.exec answers s).state bucket = s bucket) ∧
    ∀ again : Answers interface, (again 0 (.tx .reconcilableRecords) : Environment).fault = none →
      ((reconcile.exec again (reconcile.exec answers s).state).value = .ok [] ∧
        (reconcile.exec again (reconcile.exec answers s).state).state =
          (reconcile.exec answers s).state ↔
      ∀ stored ∈ heldRecords (answers.drop 1) (interrupted s),
        encodedLength stored.record ≤ maxJournalDocumentBytes) := by
  obtain ⟨hreadable, hresults, hheld, hobserved⟩ := reconcile_exec h
  have hleft : ∀ key r, isRecordKey key = true →
      recordAt (reconcile.exec answers s).state key = some r →
        isReconcilablePhase r.phase = false :=
    fun _ _ => not_reconcilable_of_held hreadable hheld
  refine ⟨?_, ?_, ?_, hleft, ?_, hheld.buckets, ?_⟩
  · intro c hc command target action hop
    obtain ⟨_, heffect⟩ := ((sat_reconcile_effectless []).exec answers s).1 c hc
    rw [hop] at heffect
    cases heffect
  · rw [hresults, List.map_map]
    exact heldRecords_commands (answers.drop 1) (interrupted s)
  · intro stored hstored
    obtain ⟨c, hc, now, hop, hmem⟩ := hobserved stored hstored
    obtain ⟨hrecord, -, -⟩ := recordAt_of_held hheld hmem
    obtain ⟨x, hx, hverified, hunverified⟩ :=
      heldRecord_spec stored.record (c.answer : Environment).snapshot now
    refine ⟨x, hrecord.trans (congrArg some hx), fun htrue => ?_, hunverified⟩
    exact ⟨(hverified htrue).1, c, hc, hop, (hverified htrue).2⟩
  · intro key hkey
    exact hheld.others key (by rw [heldRecords_keys]; exact hkey)
  · intro again hfault
    rw [reconcile_again_iff again hfault hleft, readable_held_iff hreadable hheld]

end Reconciled

/-! ## A record near the limit -/

def longRule (n : Nat) : ProbeRule := { ruleID := List.replicate n 97 }

/-- The sample record with a rule whose name has this many letters. -/
def longRecord (n : Nat) : JournalRecord :=
  let record := sampleRecord (lit "n") (lit "c")
  { record with target := { record.target with probeRules := some [longRule n] } }

theorem longRule_length {n : Nat} {document document0 : Bytes}
    (h : ProbeRule.codec.marshal (longRule n) = some document)
    (h0 : ProbeRule.codec.marshal (longRule 0) = some document0) :
    document.length = document0.length + n := by
  have hlength := Member.marshal_struct_length_eq h
  have hlength0 := Member.marshal_struct_length_eq h0
  obtain ⟨text, htext, hsize⟩ := Codec.string_marshal_replicate n
  obtain ⟨text0, htext0, hsize0⟩ := Codec.string_marshal_replicate 0
  simp only [ProbeRule.fields, List.map_cons, List.map_nil, List.sum_cons, List.sum_nil,
    Member.size_of, longRule, htext, htext0, Member.textSize] at hlength hlength0
  omega

theorem longTarget_length {target : ServiceTarget} {n : Nat} {document document0 : Bytes}
    (h : ServiceTarget.codec.marshal { target with probeRules := some [longRule n] } =
      some document)
    (h0 : ServiceTarget.codec.marshal { target with probeRules := some [longRule 0] } =
      some document0) : document.length = document0.length + n := by
  have hlength := Member.marshal_struct_length_eq h
  have hlength0 := Member.marshal_struct_length_eq h0
  obtain ⟨rule, hrule⟩ : ∃ rule, ProbeRule.codec.marshal (longRule n) = some rule := ⟨_, rfl⟩
  obtain ⟨rule0, hrule0⟩ : ∃ rule, ProbeRule.codec.marshal (longRule 0) = some rule := ⟨_, rfl⟩
  have hgrow := longRule_length hrule hrule0
  simp only [ServiceTarget.fields, List.map_cons, List.map_nil, List.sum_cons, List.sum_nil,
    Member.size_of, Codec.slice_marshal_singleton hrule, Codec.slice_marshal_singleton hrule0,
    Member.textSize, List.length_cons, List.length_append, List.length_nil] at hlength hlength0
  omega

theorem longRecord_length (n : Nat) (phase : JournalPhase) (reconciliation : Option Reconciliation)
    {document document0 : Bytes}
    (h : JournalRecord.codec.marshal
      { longRecord n with phase := phase, reconciliation := reconciliation } = some document)
    (h0 : JournalRecord.codec.marshal
      { longRecord 0 with phase := phase, reconciliation := reconciliation } = some document0) :
    document.length = document0.length + n := by
  have hlength := Member.marshal_struct_length_eq h
  have hlength0 := Member.marshal_struct_length_eq h0
  obtain ⟨text, htext⟩ : ∃ text, ServiceTarget.codec.marshal (longRecord n).target = some text :=
    ⟨_, rfl⟩
  obtain ⟨text0, htext0⟩ : ∃ text, ServiceTarget.codec.marshal (longRecord 0).target = some text :=
    ⟨_, rfl⟩
  have hgrow : text.length = text0.length + n := longTarget_length htext htext0
  have hversion : (longRecord n).schemaVersion = (longRecord 0).schemaVersion := rfl
  have hcommand : (longRecord n).command = (longRecord 0).command := rfl
  have haction : (longRecord n).action = (longRecord 0).action := rfl
  have hreconciliation : Member.size
      { longRecord n with phase := phase, reconciliation := reconciliation }
        JournalRecord.fields[5] =
      Member.size { longRecord 0 with phase := phase, reconciliation := reconciliation }
        JournalRecord.fields[5] := rfl
  simp only [JournalRecord.fields, List.map_cons, List.map_nil, List.sum_cons, List.sum_nil,
    List.getElem_cons_succ, List.getElem_cons_zero, Member.size_of, htext, htext0,
    Member.textSize, hversion, hcommand, haction] at hlength hlength0 hreconciliation
  omega

theorem norm_longRecord (n : Nat) : JournalRecord.codec.norm (longRecord n) = longRecord n := by
  have hletters : Utf8.validString (List.replicate n 97) = true :=
    Utf8.validString_ascii fun b hb => by rw [List.eq_of_mem_replicate hb]; decide
  have hrule : ProbeRule.codec.norm (longRule n) = longRule n := by
    change { longRule n with ruleID := Utf8.toValidUTF8 (List.replicate n 97) } = longRule n
    rw [Utf8.toValidUTF8_of_valid hletters]
    rfl
  have hbase : JournalRecord.codec.norm (sampleRecord (lit "n") (lit "c")) =
      sampleRecord (lit "n") (lit "c") := by decide +kernel
  change { JournalRecord.codec.norm (sampleRecord (lit "n") (lit "c")) with
    target := { (JournalRecord.codec.norm (sampleRecord (lit "n") (lit "c"))).target with
      probeRules := some [ProbeRule.codec.norm (longRule n)] } } = longRecord n
  rw [hbase, hrule]
  rfl

section OneRecord

variable {record : JournalRecord} {document : Bytes}

theorem sampleStore_lookup (hmarshal : JournalRecord.codec.marshal record = some document)
    {key value : Bytes} (hkey : isRecordKey key = true) :
    (sampleStore record .commandJournal)[key]? = some value ↔
      key = recordKey record.command ∧ value = document := by
  have hindex : idempotencyIndexKey record.command.idempotencyKey ≠ key := by
    intro heq
    rw [← heq, isRecordKey_indexKey] at hkey
    cases hkey
  rw [sampleStore, hmarshal, Option.getD_some, Function.update_self,
    Std.ExtTreeMap.getElem?_insert, Std.ExtTreeMap.getElem?_insert]
  simp only [Std.LawfulEqCmp.compare_eq_iff_eq, hindex, if_false]
  split
  case isTrue heq =>
    rw [Option.some.injEq, eq_comm (a := value), ← heq]
    simp
  case isFalse hne =>
    constructor
    · intro h
      cases h
    · rintro ⟨rfl, -⟩
      exact absurd rfl hne

theorem storedRecords_sampleStore (hwritten : Written (recordKey record.command) record document)
    (hnorm : JournalRecord.codec.norm record = record)
    (hsize : document.length ≤ maxJournalDocumentBytes) :
    Readable (sampleStore record .commandJournal).toList ∧
      storedRecords (sampleStore record) = [⟨recordKey record.command, record⟩] := by
  have hkey := isRecordKey_recordKey record.command
  have hlookup := (sampleStore_lookup hwritten.marshal hkey).mpr ⟨rfl, rfl⟩
  have hloads : Loads (sampleStore record) (recordKey record.command) record :=
    (hwritten.loads_iff hlookup).mpr ⟨hnorm, hsize⟩
  have hmem : ∀ stored, stored ∈ storedRecords (sampleStore record) ↔
      stored ∈ [(⟨recordKey record.command, record⟩ : StoredRecord)] := by
    intro stored
    rw [mem_storedRecords, List.mem_singleton]
    constructor
    · obtain ⟨key, r⟩ := stored
      rintro ⟨hstored, hr⟩
      obtain ⟨found, hfound, -⟩ := id hr
      obtain ⟨rfl, -⟩ := (sampleStore_lookup hwritten.marshal hstored).mp hfound
      exact congrArg (StoredRecord.mk _)
        (Option.some.inj (hr.recordAt_eq.symm.trans hloads.recordAt_eq))
    · rintro rfl
      exact ⟨hkey, hloads⟩
  refine ⟨?_, ?_⟩
  · rintro ⟨key, value⟩ hentry hrecord
    obtain ⟨rfl, rfl⟩ := (sampleStore_lookup hwritten.marshal hrecord).mp
      (Std.ExtTreeMap.mem_toList_iff_getElem?_eq_some.mp hentry)
    obtain ⟨found, hfound, hchecked⟩ := hloads
    obtain ⟨-, rfl⟩ := (sampleStore_lookup hwritten.marshal hkey).mp hfound
    exact ⟨record, hchecked⟩
  · have hnodup : (storedRecords (sampleStore record)).Nodup := by
      refine (storedRecords_pairwise (sampleStore record)).imp ?_
      rintro a _ hne rfl
      exact hne rfl
    exact List.perm_singleton.mp
      ((List.perm_ext_iff_of_nodup hnodup (List.nodup_singleton _)).mpr hmem)

theorem interrupted_sampleStore (hwritten : Written (recordKey record.command) record document)
    (hnorm : JournalRecord.codec.norm record = record)
    (hsize : document.length ≤ maxJournalDocumentBytes)
    (hphase : isReconcilablePhase record.phase = true) :
    Readable (sampleStore record .commandJournal).toList ∧
      interrupted (sampleStore record) = [⟨recordKey record.command, record⟩] := by
  obtain ⟨hreadable, hrecords⟩ := storedRecords_sampleStore hwritten hnorm hsize
  refine ⟨hreadable, ?_⟩
  rw [interrupted, hrecords]
  exact List.filter_cons_of_pos hphase

end OneRecord

/-- The same answer to every call: time 1, no snapshot, and no failure of the store. -/
def restartAnswers : Answers interface := fun _ _ => sampleEnvironment 1 (lit "i") true

theorem reconcile_of_single {s s1 : Store} {stored : StoredRecord} {updated : JournalRecord}
    (hreadable : Readable (s .commandJournal).toList) (hrecords : interrupted s = [stored])
    (hmark : markVerifyAndNotify stored.key {} false 1 s = .ok (updated, s1)) :
    (reconcile.exec restartAnswers s).value = .ok [reconciliationResult updated] := by
  have hscan : reconcilableRecords s = .ok ([stored], s) :=
    reconcilableRecords_ok.mpr ⟨rfl, hreadable, hrecords⟩
  have hrun : Transaction.reconcilableRecords.run
      (Environment.fault (restartAnswers 0 (.tx .reconcilableRecords)))
      (Environment.audit (restartAnswers 0 (.tx .reconcilableRecords))) s = (.ok [stored], s) := by
    change Transaction.reconcilableRecords.run none _ s = _
    simp only [Transaction.run, Transaction.body, hscan]
  have hwrite : (Transaction.markVerifyAndNotify stored.key {} false 1).run none
      (sampleEnvironment 1 (lit "i") true).audit s = (.ok updated, s1) := by
    simp only [Transaction.run, Transaction.body, hmark]
  rw [reconcile, exec_commit_bind]
  dsimp only
  rw [hrun]
  dsimp only
  rw [reconcileRecords, Prog.exec_bind, now_exec, if_neg (by decide)]
  dsimp only
  rw [exec_call_bind]
  dsimp only
  rw [exec_commit_bind]
  dsimp only
  split
  case h_1 e herror => cases herror.symm.trans (congrArg Prod.fst hwrite)
  case h_2 other hother =>
    obtain rfl := Except.ok.inj (hother.symm.trans (congrArg Prod.fst hwrite))
    rfl

theorem sample_reconciled :
    ∃ results, (reconcile.exec
      restartAnswers (sampleStore (sampleRecord (lit "n") (lit "c")))).value =
        .ok results ∧ results.length = 1 ∧
      (reconcile.exec restartAnswers (reconcile.exec restartAnswers
        (sampleStore (sampleRecord (lit "n") (lit "c")))).state).value = .ok [] := by
  obtain ⟨results, hresults⟩ := exists_of_isOk
    (x := (reconcile.exec restartAnswers (sampleStore (sampleRecord (lit "n") (lit "c")))).value)
    (by decide +kernel)
  obtain ⟨-, hone, -, -, -, -, hagain⟩ := reconcile_complete_iff _ restartAnswers hresults
  obtain ⟨document, hmarshal⟩ := Option.isSome_iff_exists.mp
    (show (JournalRecord.codec.marshal (sampleRecord (lit "n") (lit "c"))).isSome = true by
      decide +kernel)
  have hshort : document.length ≤ maxJournalDocumentBytes := by
    have hencoded : encodedLength (sampleRecord (lit "n") (lit "c")) ≤ maxJournalDocumentBytes := by
      decide +kernel
    rw [encodedLength, hmarshal] at hencoded
    exact hencoded
  obtain ⟨-, hrecords⟩ := interrupted_sampleStore ⟨rfl, by decide +kernel, hmarshal⟩
    (by decide +kernel) hshort rfl
  have hlength := congrArg List.length hone
  rw [List.length_map, hrecords] at hlength
  refine ⟨results, hresults, hlength, ((hagain restartAnswers rfl).mpr ?_).1⟩
  rw [hrecords]
  decide +kernel

/-- A record of exactly the longest document a reader accepts, interrupted before it ran. The
adapter cannot be reached, so that the record is held without a snapshot: it is written, and from
then on no scan of the journal succeeds. -/
theorem reconcile_breaks_journal :
    (∃ results, (reconcile.exec restartAnswers (sampleStore (longRecord 130242))).value =
      .ok results) ∧
    ∀ again results, (reconcile.exec again (reconcile.exec restartAnswers
      (sampleStore (longRecord 130242))).state).value ≠ .ok results := by
  obtain ⟨document, hmarshal⟩ :
      ∃ document, JournalRecord.codec.marshal (longRecord 130242) = some document := ⟨_, rfl⟩
  obtain ⟨held, hheld⟩ : ∃ held, JournalRecord.codec.marshal
      (heldRecord (longRecord 130242) (.error errInvalidRequest) 1) = some held := ⟨_, rfl⟩
  have hlength : document.length = 131072 := by
    obtain ⟨document0, hdocument0⟩ :
        ∃ document0, JournalRecord.codec.marshal (longRecord 0) = some document0 := ⟨_, rfl⟩
    have hshort : encodedLength (longRecord 0) = 830 := by decide +kernel
    rw [encodedLength, hdocument0, Option.getD_some] at hshort
    rw [longRecord_length 130242 .pending none hmarshal hdocument0, hshort]
  have hheldLength : held.length = 131224 := by
    obtain ⟨held0, hheld0⟩ : ∃ held0, JournalRecord.codec.marshal
        (heldRecord (longRecord 0) (.error errInvalidRequest) 1) = some held0 := ⟨_, rfl⟩
    have hshort : encodedLength (heldRecord (longRecord 0) (.error errInvalidRequest) 1) = 982 := by
      decide +kernel
    rw [encodedLength, hheld0, Option.getD_some] at hshort
    rw [longRecord_length 130242 .verifyAndNotify (some { observedAt := 1 }) hheld hheld0, hshort]
  obtain ⟨_, hvalid⟩ := exists_of_isOk
    (show (validateRecord (longRecord 130242)).isOk = true by decide +kernel)
  obtain ⟨_, hheldValid⟩ := exists_of_isOk (show (validateRecord
    (heldRecord (longRecord 130242) (.error errInvalidRequest) 1)).isOk = true by decide +kernel)
  have hwritten : Written (recordKey (longRecord 130242).command) (longRecord 130242) document :=
    ⟨rfl, hvalid, hmarshal⟩
  obtain ⟨hreadable, hrecords⟩ := interrupted_sampleStore hwritten (norm_longRecord 130242)
    (by rw [hlength]; decide) rfl
  obtain ⟨-, hloads, hphase⟩ := interrupted_spec.mp (hrecords ▸ List.mem_singleton_self _)
  have hmark := updateRecord_ok.mpr ⟨longRecord 130242, held, hloads,
    verifyRecord_verified hphase (.error errInvalidRequest) 1, ⟨rfl, hheldValid, hheld⟩, rfl⟩
  have hfirst := reconcile_of_single hreadable hrecords hmark
  refine ⟨⟨_, hfirst⟩, fun again results hagain => ?_⟩
  obtain ⟨-, -, hstate, -⟩ := reconcile_exec hfirst
  have hfits := (readable_held_iff hreadable hstate).mp (reconcile_exec hagain).1
  rw [hrecords] at hfits
  have hlimit := hfits _ List.mem_cons_self
  change encodedLength (heldRecord (longRecord 130242) (.error errInvalidRequest) 1) ≤ _ at hlimit
  rw [encodedLength, hheld, Option.getD_some, hheldLength] at hlimit
  exact absurd hlimit (by decide)

end PulseAgent.Recovery
