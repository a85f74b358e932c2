import PulseAgent.Recovery.Encoding
import PulseAgent.Recovery.Effects

/-!
# Journals that can be read

If the requests of a run have valid text and leave room for the later phases of their records,
and the generated IDs are valid text and distinct, then no scan of the journal ever fails.
-/

namespace PulseAgent.Recovery

open Go Go.Json Contract Concurrent

/-! ## Clean records stay clean -/

theorem norm_reconciliation {r : JournalRecord} {x : Reconciliation}
    (hx : r.reconciliation = some x) (hvalid : validReconciliation r = true)
    (hcommand : Utf8.toValidUTF8 r.command.targetID = r.command.targetID) :
    Reconciliation.codec.norm x = x := by
  obtain ⟨observedAt, verified, targetID, running, healthy⟩ := x
  change Reconciliation.mk observedAt verified ⟨Utf8.toValidUTF8 targetID, running, healthy⟩ = _
  unfold validReconciliation at hvalid
  rw [hx] at hvalid
  split at hvalid
  case h_1 => cases hvalid
  case h_2 y _ hy =>
    obtain rfl := Option.some.inj hy
    simp only [Bool.and_eq_true, Bool.or_eq_true, Bool.not_eq_true', decide_eq_true_eq,
      Docker.Snapshot.mk.injEq] at hvalid
    obtain ⟨⟨-, htarget⟩, hsnapshot⟩ := hvalid
    cases verified with
    | true =>
      have heq : targetID = r.command.targetID := htarget.resolve_left (by simp)
      rw [heq, hcommand]
    | false =>
      obtain ⟨rfl, rfl, rfl⟩ := hsnapshot.resolve_left (by simp)
      rfl
  case h_3 => cases hvalid

theorem norm_of_advance {ids : Bytes → Prop} {r r' : JournalRecord}
    (hr : JournalRecord.codec.norm r = r) (h : Advance ids r r')
    (hvalid : validReconciliation r' = true) (hids : ∀ id, ids id → Utf8.validString id = true) :
    JournalRecord.codec.norm r' = r' := by
  cases h with
  | finished next hnext =>
    rw [norm_moved, hr]
    rcases hnext with rfl | rfl <;> rfl
  | settled => exact hr
  | held x =>
    rw [norm_held, hr, norm_reconciliation rfl hvalid]
    exact congrArg (fun r => r.command.targetID) hr
  | granted approvalID hid =>
    rw [norm_decided, hr, Utf8.toValidUTF8_of_valid (hids _ hid)]
  | refused approvalID hid =>
    rw [norm_moved, norm_decided, hr, Utf8.toValidUTF8_of_valid (hids _ hid)]
    rfl
  | _ =>
    rw [norm_moved, hr]
    rfl

/-! ## Legible journals -/

def maxPendingDocumentBytes : Nat := maxJournalDocumentBytes - 4096

/-- Every record is clean and was short when it was created. -/
def Legible (s : Store) : Prop :=
  ∀ key document, isRecordKey key = true → (s .commandJournal)[key]? = some document →
    ∃ r first firstDocument, Written key r document ∧ JournalRecord.codec.norm r = r ∧
      r.base = first.base ∧ JournalRecord.codec.marshal first = some firstDocument ∧
      firstDocument.length ≤ maxPendingDocumentBytes

section Legible

variable {s s' : Store}

theorem legible_empty (h : s .commandJournal = ∅) : Legible s := by
  intro key document _ hdocument
  rw [h] at hdocument
  cases hdocument

theorem Legible.checkedRecord (h : Legible s) {key document : Bytes} (hkey : isRecordKey key = true)
    (hdocument : (s .commandJournal)[key]? = some document) :
    ∃ r, checkedRecord key document = .ok r := by
  obtain ⟨r, first, firstDocument, hwritten, hnorm, hbase, hfirst, hsize⟩ :=
    h key document hkey hdocument
  have hlength := record_length_le hwritten.marshal hfirst hbase hwritten.valid
  have hlimit : document.length ≤ maxJournalDocumentBytes := by
    unfold maxPendingDocumentBytes maxJournalDocumentBytes at hsize
    unfold maxJournalDocumentBytes
    omega
  have hchecked := hwritten.checkedRecord hlimit (by rw [hnorm, hwritten.valid])
    (by rw [hnorm, hwritten.key_eq])
  exact ⟨_, hchecked⟩

theorem Legible.readable (h : Legible s) : Readable (s .commandJournal).toList := by
  intro entry hentry hkey
  exact h.checkedRecord hkey (Std.ExtTreeMap.mem_toList_iff_getElem?_eq_some.mp hentry)

theorem Legible.effect {intake : Intake} (h : Legible s) (heffect : JournalEffect intake s s')
    (hids : ∀ id, intake.approval id → Utf8.validString id = true)
    (hnew : ∀ r key document, intake.record r → Written key r document →
      JournalRecord.codec.norm r = r ∧ document.length ≤ maxPendingDocumentBytes) : Legible s' := by
  intro key document hkey hdocument
  cases heffect key hkey with
  | same heq => exact h key document hkey (heq ▸ hdocument)
  | created r document' _ hwritten heq hrecord =>
    obtain rfl := Option.some.inj (heq.symm.trans hdocument)
    obtain ⟨hnorm, hsize⟩ := hnew r key _ hrecord hwritten
    exact ⟨r, r, _, hwritten, hnorm, rfl, hwritten.marshal, hsize⟩
  | advanced old new document' hloads hadvance hwritten heq =>
    obtain rfl := Option.some.inj (heq.symm.trans hdocument)
    obtain ⟨oldDocument, hold, hchecked⟩ := hloads
    obtain ⟨r, first, firstDocument, hr, hnorm, hbase, hfirst, hsize⟩ :=
      h key oldDocument hkey hold
    -- the loaded record is the one that was written
    obtain rfl : r = old := by
      have hcontent := (checkedRecord_ok hchecked).1
      rw [hr.content_eq, hnorm] at hcontent
      exact Option.some.inj hcontent
    have hvalid := (validateRecord_ok.mp hwritten.valid).2.2.2.2.2
    exact ⟨new, first, firstDocument, hwritten, norm_of_advance hnorm hadvance hvalid hids,
      hadvance.base_eq.trans hbase, hfirst, hsize⟩

end Legible

/-! ## Runs with valid text -/

/-- The ID a call obtained from its generator. -/
def generatedID : Occurrence interface → Option Bytes
  | ⟨.newCommandID, env, _⟩ => env.id.toOption
  | ⟨.newApprovalID, env, _⟩ => env.id.toOption
  | _ => none

def ValidIDs (s : Store) (actions : List (Action system)) : Prop :=
  ∀ e ∈ (run s actions).log, ∀ id, generatedID e.toOccurrence = some id → Utf8.validString id = true

theorem validIDs_of_all {s : Store} {actions : List (Action system)}
    (h : ((run s actions).log.filterMap fun e => generatedID e.toOccurrence).all Utf8.validString =
      true) : ValidIDs s actions := by
  intro e he id hid
  exact List.all_eq_true.mp h id (List.mem_filterMap.mpr ⟨e, he, hid⟩)

structure ValidText (s : Store) (actions : List (Action system)) : Prop where
  requests : ∀ c request, Call.submit c request ∈ spawned actions → request.validText
  ids : ValidIDs s actions

/-- The pending record of the request leaves room for its later phases. -/
def Request.fits (request : Request) : Prop :=
  ∀ commandID now decision record document, validToken commandID maxCommandIDLength = true →
    Coordinator.prepareRecord request commandID now = .ok (decision, some record) →
    JournalRecord.codec.marshal record = some document →
    document.length ≤ maxPendingDocumentBytes

section Runs

variable {s : Store} {actions : List (Action system)}

theorem allowed_of_run {e : Event interface} (he : e ∈ (run s actions).log) :
    ∃ later earlier : List (Event interface), (run s actions).log = later ++ e :: earlier ∧
      Allowed (spawned actions) (history e.thread earlier) e.op := by
  obtain ⟨later, earlier, hlog⟩ := List.append_of_mem he
  exact ⟨later, earlier, hlog, (guaranteed_of_run s actions).events later e earlier hlog⟩

theorem mem_log_of_history {later earlier : List (Event interface)} {e : Event interface}
    {thread : Nat} {c : Occurrence interface} (hlog : (run s actions).log = later ++ e :: earlier)
    (hc : c ∈ history thread earlier) : ∃ x ∈ (run s actions).log, x.toOccurrence = c := by
  obtain ⟨x, hx, hc, -⟩ := mem_of_mem_history hc
  refine ⟨x, ?_, hc⟩
  rw [hlog]
  exact List.mem_append_right later (List.mem_cons_of_mem e hx)

theorem prepared_of_persist {e : Event interface} {record : JournalRecord}
    (he : e ∈ (run s actions).log) (hop : e.op = Op.tx (.persistPending record)) :
    ∃ c request commandID now decision, Call.submit c request ∈ spawned actions ∧
      validToken commandID maxCommandIDLength = true ∧
      Coordinator.prepareRecord request commandID now = .ok (decision, some record) ∧
      ∃ x ∈ (run s actions).log, generatedID x.toOccurrence = some commandID := by
  obtain ⟨later, earlier, hlog, hallowed⟩ := allowed_of_run he
  rw [hop] at hallowed
  obtain ⟨c, request, commandID, now, decision, env, s', rest, hcall, htoken, hid, hprepared,
    hhistory, -, -⟩ := hallowed
  obtain ⟨x, hx, hoccurrence⟩ :=
    mem_log_of_history hlog (by rw [hhistory]; exact List.mem_cons_self)
  refine ⟨c, request, commandID, now, decision, hcall, htoken, hprepared, x, hx, ?_⟩
  rw [hoccurrence]
  simp only [generatedID, hid, Except.toOption]

theorem generated_of_decide {e : Event interface} {request : ApprovalDecisionRequest}
    {approvalID : Bytes} {now : Time} (he : e ∈ (run s actions).log)
    (hop : e.op = Op.tx (.decide request approvalID now)) :
    ∃ x ∈ (run s actions).log, generatedID x.toOccurrence = some approvalID := by
  obtain ⟨later, earlier, hlog, hallowed⟩ := allowed_of_run he
  rw [hop] at hallowed
  obtain ⟨env, s', rest, hid, hhistory⟩ := hallowed
  obtain ⟨x, hx, hoccurrence⟩ :=
    mem_log_of_history hlog (by rw [hhistory]; exact List.mem_cons_self)
  refine ⟨x, hx, ?_⟩
  rw [hoccurrence]
  simp only [generatedID, hid, Except.toOption]

theorem intake_record {o : Op} {r : JournalRecord} (h : o.intake.record r) :
    o = .tx (.persistPending r) := by
  unfold Op.intake at h
  split at h
  case h_1 t =>
    unfold Transaction.intake at h
    split at h
    case h_1 record =>
      obtain rfl : r = record := h
      rfl
    case h_2 => cases h
    case h_3 => cases h
  case h_2 => cases h

theorem intake_approval {o : Op} {id : Bytes} (h : o.intake.approval id) :
    ∃ request now, o = .tx (.decide request id now) := by
  unfold Op.intake at h
  split at h
  case h_1 t =>
    unfold Transaction.intake at h
    split at h
    case h_1 => cases h
    case h_2 request approvalID now =>
      obtain rfl : id = approvalID := h
      exact ⟨request, now, rfl⟩
    case h_3 => cases h
  case h_2 => cases h

theorem norm_of_persist (htext : ValidText s actions) {e : Event interface}
    {record : JournalRecord} (he : e ∈ (run s actions).log)
    (hop : e.op = Op.tx (.persistPending record)) (hvalid : validateRecord record = .ok ()) :
    JournalRecord.codec.norm record = record := by
  obtain ⟨c, request, commandID, now, decision, hcall, htoken, hprepared, x, hx, hid⟩ :=
    prepared_of_persist he hop
  exact (norm_pendingRecord_iff hprepared hvalid).mpr
    ⟨htext.ids x hx commandID hid, htext.requests c request hcall⟩

theorem legible_of_run (hs : Legible s) (htext : ValidText s actions)
    (hfits : ∀ c request, Call.submit c request ∈ spawned actions → request.fits) :
    Legible (run s actions).state := by
  refine (invariant_of_events Legible hs actions ?_ ?_).1
  · intro e he hbefore
    refine hbefore.effect (perform_effect e.op e.answer e.before) ?_ ?_
    · intro id hid
      obtain ⟨request, now, hop⟩ := intake_approval hid
      obtain ⟨x, hx, hgenerated⟩ := generated_of_decide he hop
      exact htext.ids x hx id hgenerated
    · intro record key document hrecord hwritten
      have hop := intake_record hrecord
      obtain ⟨c, request, commandID, now, decision, hcall, htoken, hprepared, -⟩ :=
        prepared_of_persist he hop
      exact ⟨norm_of_persist htext he hop hwritten.valid, hfits c request hcall commandID now
        decision record document htoken hprepared hwritten.marshal⟩
  · intro m s h key document hkey hdocument
    rw [move_owned m s rfl] at hdocument
    exact h key document hkey hdocument

/-! ## Distinct command IDs -/

def newCommandIDOf : Occurrence interface → Option Bytes
  | ⟨.newCommandID, env, _⟩ => env.id.toOption
  | _ => none

def DistinctIDs (s : Store) (actions : List (Action system)) : Prop :=
  (run s actions).log.Pairwise fun a b => ∀ id, newCommandIDOf a.toOccurrence = some id →
    newCommandIDOf b.toOccurrence ≠ some id

theorem distinctIDs_of_nodup
    (h : ((run s actions).log.filterMap fun e => newCommandIDOf e.toOccurrence).Nodup) :
    DistinctIDs s actions := by
  refine (List.pairwise_filterMap.mp h).imp fun {a b} hab id ha hb => ?_
  exact hab id ha id hb rfl

def persistedID : Op → Option Bytes
  | .tx (.persistPending record) => some record.command.commandID
  | _ => none

theorem persistedID_some {o : Op} {id : Bytes} (h : persistedID o = some id) :
    ∃ record, o = .tx (.persistPending record) ∧ record.command.commandID = id := by
  unfold persistedID at h
  split at h
  case h_1 record => exact ⟨record, rfl, Option.some.inj h⟩
  case h_2 => cases h

theorem persisted_distinct (hdistinct : DistinctIDs s actions) :
    (run s actions).log.Pairwise fun a b => ∀ id, persistedID a.op = some id →
      persistedID b.op ≠ some id := by
  refine pairwise_of_preceded newCommandIDOf hdistinct ?_ ?_
  · intro e _ id hid
    obtain ⟨record, hop, -⟩ := persistedID_some hid
    obtain ⟨⟨o, env, s'⟩, thread⟩ := e
    subst hop
    rfl
  · intro later e earlier hlog id hid
    obtain ⟨record, hop, rfl⟩ := persistedID_some hid
    have hallowed := (guaranteed_of_run s actions).events later e earlier hlog
    rw [hop] at hallowed
    obtain ⟨c, request, commandID, now, decision, env, s', rest, -, -, hcommandID, hprepared,
      hhistory, -, -⟩ := hallowed
    obtain ⟨registered, action, -, rfl⟩ := prepareRecord_some hprepared
    refine ⟨_, by rw [hhistory]; rfl, ?_⟩
    simp only [newCommandIDOf, hcommandID, Except.toOption]
    rfl

theorem norm_commandID_of_persist (hids : ValidIDs s actions) {e : Event interface}
    {record : JournalRecord} (he : e ∈ (run s actions).log)
    (hop : e.op = Op.tx (.persistPending record)) :
    Utf8.toValidUTF8 record.command.commandID = record.command.commandID := by
  obtain ⟨c, request, commandID, now, decision, -, -, hprepared, x, hx, hgenerated⟩ :=
    prepared_of_persist he hop
  obtain ⟨registered, action, -, rfl⟩ := prepareRecord_some hprepared
  exact Utf8.toValidUTF8_of_valid (hids x hx commandID hgenerated)

/-- The record under a key was created by a transaction of the run. -/
def CreatedBy (log : List (Event interface)) (s : Store) : Prop :=
  ∀ key r, isRecordKey key = true → recordAt s key = some r →
    ∃ e ∈ log, ∃ record, e.op = Op.tx (.persistPending record) ∧
      recordKey record.command = key ∧
      Utf8.toValidUTF8 record.command.commandID = r.command.commandID

theorem createdBy_of_run (hempty : s .commandJournal = ∅) (actions : List (Action system)) :
    Clean (run s actions).state ∧ CreatedBy (run s actions).log (run s actions).state := by
  refine (invariant_of_events (fun t => Clean t ∧ CreatedBy (run s actions).log t)
    ⟨clean_empty hempty, ?_⟩ actions ?_ ?_).1
  · intro key r _ hr
    rw [recordAt, hempty] at hr
    cases hr
  · rintro e he ⟨hclean, hcreated⟩
    have heffect := perform_effect e.op e.answer e.before
    refine ⟨hclean.effect heffect, fun key r hkey hr => ?_⟩
    cases heffect key hkey with
    | same heq => exact hcreated key r hkey (by rw [recordAt, ← heq]; exact hr)
    | created record document _ hwritten heq hrecord =>
      have hread := recordAt_of_written heq hwritten
      obtain rfl := Option.some.inj (hread.symm.trans hr)
      exact ⟨e, he, record, intake_record hrecord, hwritten.key_eq, rfl⟩
    | advanced old new document hloads hadvance hwritten heq =>
      have hread := recordAt_of_written heq hwritten
      obtain rfl := Option.some.inj (hread.symm.trans hr)
      obtain ⟨x, hx, record, hop, hrecordKey, hid⟩ := hcreated key old hkey hloads.recordAt_eq
      refine ⟨x, hx, record, hop, hrecordKey, ?_⟩
      change _ = Utf8.toValidUTF8 new.command.commandID
      rw [hadvance.kept.2.2.2, ← hid, Utf8.toValidUTF8_idem]
  · rintro m t ⟨hclean, hcreated⟩
    refine ⟨hclean.effect (move_effect .nothing m t), fun key r hkey hr => ?_⟩
    rw [recordAt, move_owned m t rfl] at hr
    exact hcreated key r hkey hr

theorem key_of_commandID (hempty : s .commandJournal = ∅) (hids : ValidIDs s actions)
    (hdistinct : DistinctIDs s actions) {key key' : Bytes} {r r' : JournalRecord}
    (hkey : isRecordKey key = true) (hkey' : isRecordKey key' = true)
    (hr : recordAt (run s actions).state key = some r)
    (hr' : recordAt (run s actions).state key' = some r')
    (hid : r.command.commandID = r'.command.commandID) : key = key' := by
  obtain ⟨-, hcreated⟩ := createdBy_of_run hempty actions
  obtain ⟨e, he, record, hop, rfl, hrecord⟩ := hcreated key r hkey hr
  obtain ⟨e', he', record', hop', rfl, hrecord'⟩ := hcreated key' r' hkey' hr'
  have heq : record.command.commandID = record'.command.commandID := by
    rw [← norm_commandID_of_persist hids he hop, ← norm_commandID_of_persist hids he' hop', hrecord,
      hrecord', hid]
  have hsame : e = e' := eq_of_pairwise (f := fun x => persistedID x.op)
    (persisted_distinct hdistinct) he he' (by rw [hop]; rfl) (by rw [hop', heq]; rfl)
  subst hsame
  cases hop.symm.trans hop'
  rfl

end Runs

end PulseAgent.Recovery
