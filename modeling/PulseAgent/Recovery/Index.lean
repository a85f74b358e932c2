import PulseAgent.Recovery.Legible

/-!
# The idempotency index

Entries are never replaced, all submissions of one effect share a record, and a submission that is
refused by the journal has changed nothing.
-/

namespace PulseAgent.Recovery

open Go Go.Json Contract Concurrent

/-! ## Index entries -/

/-- Outside the records, a step keeps the bucket or binds one free idempotency key. -/
def IndexEffect (intake : Intake) (s s' : Store) : Prop :=
  ∀ key, isRecordKey key = false → (s' .commandJournal)[key]? = (s .commandJournal)[key]? ∨
    ∃ record, intake.record record ∧ key = idempotencyIndexKey record.command.idempotencyKey ∧
      (s .commandJournal)[key]? = none ∧
      (s' .commandJournal)[key]? = some (recordKey record.command) ∧
      (s' .commandJournal)[recordKey record.command]?.isSome = true

namespace IndexEffect

variable {intake : Intake} {s s' : Store}

theorem of_eq (h : s' .commandJournal = s .commandJournal) : IndexEffect intake s s' :=
  fun _ _ => .inl (by rw [h])

theorem of_insert {key document : Bytes} {r : JournalRecord} (hwritten : Written key r document)
    (h : s' .commandJournal = (s .commandJournal).insert key document) :
    IndexEffect intake s s' := by
  intro key' hkey'
  refine .inl ?_
  rw [h, Std.ExtTreeMap.getElem?_insert, if_neg]
  intro heq
  obtain rfl := Std.LawfulEqCmp.eq_of_compare heq
  rw [← hwritten.key_eq, isRecordKey_recordKey] at hkey'
  cases hkey'

theorem of_updateRecord {key : Bytes} {update : JournalRecord → Except Error JournalRecord}
    {r : JournalRecord} (h : updateRecord key update s = .ok (r, s')) :
      IndexEffect intake s s' := by
  obtain ⟨_, document, -, -, hwritten, rfl⟩ := updateRecord_ok.mp h
  exact of_insert hwritten (Function.update_self ..)

theorem of_decision {request : ApprovalDecisionRequest} {approvalID : Bytes} {now : Time}
    {result : Except Error ApprovalDecisionResult}
    (h : DecisionEffect s s' request approvalID now result) : IndexEffect intake s s' := by
  cases h with
  | rejected e hjournal => exact of_eq hjournal
  | expired stored document _ _ hwritten hjournal => exact of_insert hwritten hjournal
  | accepted stored approval document journalDocument _ _ _ _ _ _ _ _ hwritten hjournal =>
    exact of_insert hwritten hjournal

end IndexEffect

theorem persistPending_binds {record persisted : JournalRecord} {duplicate : Bool} {s s' : Store}
    (h : persistPending record s = .ok ((persisted, duplicate), s')) :
    (s' .commandJournal)[idempotencyIndexKey record.command.idempotencyKey]? =
        some (recordKey record.command) ∧
      (s' .commandJournal)[recordKey record.command]?.isSome = true ∧
      ∀ key, key ≠ recordKey record.command →
        key ≠ idempotencyIndexKey record.command.idempotencyKey →
        (s' .commandJournal)[key]? = (s .commandJournal)[key]? := by
  have hne := indexKey_ne_recordKey record.command.idempotencyKey record.command
  unfold persistPending at h
  obtain ⟨-, h⟩ := Tx.bind_get_ok.mp h
  cases hindexed : (s .commandJournal)[idempotencyIndexKey record.command.idempotencyKey]? with
  | some indexed =>
    rw [hindexed] at h
    obtain ⟨hsame, h⟩ := Tx.bind_require_ok.mp h
    obtain ⟨-, ⟨-, h⟩ | ⟨r, ⟨document, hdocument, -⟩, h⟩⟩ := bind_loadRecord_ok.mp h
    · cases h
    · cases h
      exact ⟨by rw [hindexed, hsame], by rw [hdocument]; rfl, fun _ _ _ => rfl⟩
  | none =>
    rw [hindexed] at h
    obtain ⟨-, ⟨-, h⟩ | ⟨r, ⟨document, hdocument, -⟩, h⟩⟩ := bind_loadRecord_ok.mp h
    · obtain ⟨_, s1, hput, h⟩ := Tx.bind_ok.mp h
      obtain ⟨document, -, rfl⟩ := putRecord_ok.mp hput
      obtain ⟨-, -, h⟩ := Tx.bind_put_ok.mp h
      cases h
      simp only [Function.update_self, Std.ExtTreeMap.getElem?_insert]
      refine ⟨by simp, by simp [hne], fun key hrecord hindex => ?_⟩
      rw [if_neg (by simpa using Ne.symm hindex), if_neg (by simpa using Ne.symm hrecord)]
    · obtain ⟨-, -, h⟩ := Tx.bind_put_ok.mp h
      cases h
      simp only [Function.update_self, Std.ExtTreeMap.getElem?_insert]
      refine ⟨by simp, by simp [hne, hdocument], fun key _ hindex => ?_⟩
      rw [if_neg (by simpa using Ne.symm hindex)]

theorem IndexEffect.of_persistPending {intake : Intake} {record : JournalRecord}
    {result : JournalRecord × Bool} {s s' : Store} (hnew : intake.record record)
    (h : persistPending record s = .ok (result, s')) : IndexEffect intake s s' := by
  intro key hkey
  have hrecord : key ≠ recordKey record.command := by
    rintro rfl
    rw [isRecordKey_recordKey] at hkey
    cases hkey
  obtain ⟨hbound, hstored, hkept⟩ := persistPending_binds h
  by_cases hindex : key = idempotencyIndexKey record.command.idempotencyKey
  · subst hindex
    cases hbefore : (s .commandJournal)[idempotencyIndexKey record.command.idempotencyKey]? with
    | none => exact .inr ⟨record, hnew, rfl, rfl, hbound, hstored⟩
    | some indexed =>
      left
      unfold persistPending at h
      obtain ⟨-, h⟩ := Tx.bind_get_ok.mp h
      rw [hbefore] at h
      obtain ⟨rfl, -⟩ := Tx.bind_require_ok.mp h
      exact hbound
  · exact .inl (hkept key hrecord hindex)

theorem body_index {t : Transaction} {inputs : AuditInputs} {s s' : Store} {a : t.Out}
    (h : t.body inputs s = .ok (a, s')) : IndexEffect t.intake s s' := by
  cases t with
  | persistPending record => exact .of_persistPending rfl h
  | decide request approvalID now => exact .of_decision (decideApproval_ok h)
  | reconcilableRecords | findRecord | recordRejected | loadApproval | loadResult | putResult =>
    exact .of_eq (body_keeps h (by simp [Transaction.writes]))
  | _ => exact .of_updateRecord h

theorem perform_index (o : Op) (env : Environment) (s : Store) :
    IndexEffect o.intake s (perform o env s).2 := by
  obtain heq | ⟨t, a, rfl, hbody⟩ := perform_cases o env s
  · exact .of_eq (congrFun heq _)
  · exact body_index hbody

theorem JournalEffect.isSome {intake : Intake} {s s' : Store} (h : JournalEffect intake s s')
    {key : Bytes} (hkey : isRecordKey key = true)
    (hsome : (s .commandJournal)[key]?.isSome = true) :
    (s' .commandJournal)[key]?.isSome = true := by
  cases h key hkey with
  | same heq => rw [heq, hsome]
  | created _ _ _ _ heq => rw [heq]; rfl
  | advanced _ _ _ _ _ _ heq => rw [heq]; rfl

def Indexed (s : Store) : Prop :=
  ∀ key value, isRecordKey key = false → (s .commandJournal)[key]? = some value →
    isRecordKey value = true ∧ (s .commandJournal)[value]?.isSome = true

theorem Indexed.effect {intake : Intake} {s s' : Store} (h : Indexed s)
    (hjournal : JournalEffect intake s s') (hindex : IndexEffect intake s s') : Indexed s' := by
  intro key value hkey hvalue
  rcases hindex key hkey with heq | ⟨record, -, rfl, -, hbound, hstored⟩
  · rw [heq] at hvalue
    obtain ⟨hvalueKey, hsome⟩ := h key value hkey hvalue
    exact ⟨hvalueKey, hjournal.isSome hvalueKey hsome⟩
  · obtain rfl := Option.some.inj (hbound.symm.trans hvalue)
    exact ⟨isRecordKey_recordKey _, hstored⟩

def IndexKept (s s' : Store) : Prop :=
  ∀ key value, isRecordKey key = false → (s .commandJournal)[key]? = some value →
    (s' .commandJournal)[key]? = some value

theorem IndexKept.refl (s : Store) : IndexKept s s := fun _ _ _ h => h

theorem IndexKept.trans {a b c : Store} (h : IndexKept a b) (h' : IndexKept b c) : IndexKept a c :=
  fun key value hkey hvalue => h' key value hkey (h key value hkey hvalue)

theorem IndexEffect.kept {intake : Intake} {s s' : Store} (h : IndexEffect intake s s') :
    IndexKept s s' := by
  intro key value hkey hvalue
  rcases h key hkey with heq | ⟨record, -, rfl, habsent, -⟩
  · rw [heq, hvalue]
  · rw [habsent] at hvalue
    cases hvalue

theorem move_index (m : Move) (s : Store) : IndexEffect .nothing s (system.move m s) :=
  .of_eq (move_owned m s rfl)

/-! ## Accepted submissions -/

/-- The journal took the record of a submission, or found an earlier one of the same effect. -/
def Accepts (c : Occurrence interface) (record persisted : JournalRecord)
    (duplicate : Bool) : Prop :=
  ∃ env s, c = ⟨.tx (.persistPending record), env, s⟩ ∧
    ((Transaction.persistPending record).run env.fault env.audit s).1 = .ok (persisted, duplicate)

namespace Accepts

variable {c : Occurrence interface} {record persisted : JournalRecord} {duplicate : Bool}

theorem op_eq (h : Accepts c record persisted duplicate) :
    c.op = Op.tx (.persistPending record) := by
  obtain ⟨env, s, rfl, -⟩ := h
  rfl

theorem body (h : Accepts c record persisted duplicate) :
    persistPending record c.before = .ok ((persisted, duplicate), c.after) := by
  obtain ⟨env, s, rfl, hrun⟩ := h
  exact Transaction.run_ok hrun

theorem resolved (h : Accepts c record persisted duplicate)
    (hid : Utf8.toValidUTF8 record.command.commandID = record.command.commandID) :
    ∃ r, recordAt c.after (recordKey record.command) = some r ∧
      r.command.commandID = persisted.command.commandID := by
  have hne := indexKey_ne_recordKey record.command.idempotencyKey record.command
  obtain ⟨-, hloads, hafter | hafter⟩ | ⟨-, rfl, -, document, hwritten, hafter⟩ :=
    persistPending_ok h.body
  · exact ⟨persisted, by rw [hafter, hloads.recordAt_eq], rfl⟩
  · refine ⟨persisted, ?_, rfl⟩
    rw [recordAt, hafter, Function.update_self, Std.ExtTreeMap.getElem?_insert,
      if_neg (by simpa using hne), ← recordAt, hloads.recordAt_eq]
  · refine ⟨_, recordAt_of_written ?_ hwritten, hid⟩
    rw [hafter, Function.update_self, Std.ExtTreeMap.getElem?_insert,
      if_neg (by simpa using hne), Std.ExtTreeMap.getElem?_insert_self]

theorem duplicate_of (h : Accepts c record persisted duplicate) {r : JournalRecord}
    (hr : recordAt c.before (recordKey record.command) = some r) :
    duplicate = true ∧ persisted = r := by
  obtain ⟨hduplicate, hloads, -⟩ | ⟨-, -, habsent, -⟩ := persistPending_ok h.body
  · exact ⟨hduplicate, Option.some.inj (hloads.recordAt_eq.symm.trans hr)⟩
  · rw [recordAt, habsent] at hr
    cases hr

end Accepts

/-! ## Effects told apart by their keys -/

/-- The values that make up the key of a request's effect. -/
def effectTuple (request : Request) : List Bytes :=
  [request.incidentID, request.policyInput.runbookID, request.policyInput.runbookDigest,
    request.target.targetID, Decimal.formatInt request.policyInput.actionIndex.toInt]

/-- SHA-256 has no collision among the effects of these calls. -/
def CollisionFree (calls : List Call) : Prop :=
  Set.InjOn Sha256.sum256 { input | ∃ c request, Call.submit c request ∈ calls ∧
    input = Strings.join [0] (effectTuple request) ++ [0] }

theorem stableKey_sum {keyPrefix : Bytes} {values values' : List Bytes}
    (h : stableKey keyPrefix values = stableKey keyPrefix values') :
    Sha256.sum256 (Strings.join [0] values ++ [0]) =
      Sha256.sum256 (Strings.join [0] values' ++ [0]) :=
  Hex.encode_injective (List.append_cancel_left h)

theorem zero_not_mem_of_validToken {value : Bytes} {limit : Nat}
    (h : validToken value limit = true) : (0 : UInt8) ∉ value := by
  simp only [validToken, Bool.and_eq_true, Bool.not_eq_true'] at h
  intro hmem
  rw [List.contains_iff_mem.mpr hmem] at h
  cases h.2

theorem effectTuple_no_zero {request : Request} (h : validateRequest request = .ok ()) :
    ∀ value ∈ effectTuple request, (0 : UInt8) ∉ value := by
  unfold validateRequest at h
  dsimp only at h
  split at h
  case isTrue hvalid =>
    simp only [Bool.and_eq_true, decide_eq_true_eq] at hvalid
    obtain ⟨⟨⟨⟨⟨⟨⟨⟨hincident, -⟩, hrunbook⟩, hdigest⟩, htarget⟩, -⟩, -⟩, -⟩,
      hserviceTarget⟩ := hvalid
    have hid : request.target.targetID = request.policyInput.targetID := by
      simp only [validTarget, Bool.and_eq_true, decide_eq_true_eq] at hserviceTarget
      exact hserviceTarget.1.1.1.2
    simp only [effectTuple, List.mem_cons, List.not_mem_nil, or_false, forall_eq_or_imp, forall_eq]
    refine ⟨zero_not_mem_of_validToken hincident, zero_not_mem_of_validToken hrunbook,
      zero_not_mem_of_validToken hdigest, ?_, Decimal.zero_not_mem_formatInt _⟩
    rw [hid]
    exact zero_not_mem_of_validToken htarget
  case isFalse => cases h

/-- The request a record was prepared for, which its key is computed from. -/
structure RequestOf (calls : List Call) (record : JournalRecord) (request : Request) : Prop where
  submitted : ∃ c, Call.submit c request ∈ calls
  valid : validateRequest request = .ok ()
  key_eq : recordKey record.command = stableKey journalRecordPrefix (effectTuple request)
  identity : effectIdentity record.command = ⟨request.incidentID, request.policyInput.runbookID,
    request.policyInput.runbookDigest, request.target.targetID, request.policyInput.actionIndex⟩

/-- Without collisions the key of a record tells its effect. -/
theorem effectIdentity_of_recordKey {calls : List Call} (hfree : CollisionFree calls)
    {record record' : JournalRecord} {request request' : Request}
    (h : RequestOf calls record request) (h' : RequestOf calls record' request')
    (hkey : recordKey record.command = recordKey record'.command) :
    effectIdentity record.command = effectIdentity record'.command := by
  rw [h.key_eq, h'.key_eq] at hkey
  obtain ⟨c, hcall⟩ := h.submitted
  obtain ⟨c', hcall'⟩ := h'.submitted
  have hjoin := hfree ⟨c, request, hcall, rfl⟩ ⟨c', request', hcall', rfl⟩ (stableKey_sum hkey)
  have htuple : effectTuple request = effectTuple request' :=
    Strings.join_sep_inj rfl (effectTuple_no_zero h.valid) (effectTuple_no_zero h'.valid) hjoin
  simp only [effectTuple, List.cons.injEq, and_true] at htuple
  obtain ⟨hincident, hrunbook, hdigest, htarget, hindex⟩ := htuple
  have haction := Int64.toInt_inj.mp (Decimal.formatInt_injective hindex)
  rw [h.identity, h'.identity, hincident, hrunbook, hdigest, htarget, haction]

section Runs

variable {s : Store} {actions : List (Action system)}

theorem requestOf_persist {e : Event interface} {record : JournalRecord}
    (he : e ∈ (run s actions).log) (hop : e.op = Op.tx (.persistPending record)) :
    ∃ request, RequestOf (spawned actions) record request := by
  obtain ⟨later, earlier, -, hallowed⟩ := allowed_of_run he
  rw [hop] at hallowed
  obtain ⟨c, request, commandID, now, decision, env, before, rest, hcall, -, -, hprepared, -,
    hvalid, -⟩ := hallowed
  obtain ⟨registered, action, -, rfl⟩ := prepareRecord_some hprepared
  exact ⟨request, ⟨c, hcall⟩, hvalid, rfl, rfl⟩

end Runs

/-! ## Refused submissions -/

def Refused (c : Occurrence interface) : Prop :=
  ∃ record env s err, c = ⟨.tx (.persistPending record), env, s⟩ ∧
    ((Transaction.persistPending record).run env.fault env.audit s).1 = .error err

section Unspoiled

variable {h : History}

theorem not_refused {calls : List Call} (hcalls : ∀ c request, Call.submit c request ∉ calls)
    (h : History) (o : Op) (env : Environment) (s : Store) (hallowed : Allowed calls h o) :
    ¬Refused ⟨o, env, s⟩ := by
  rintro ⟨record, _, _, err, heq, -⟩
  cases heq
  obtain ⟨c, request, -, -, -, -, -, -, hcall, -⟩ := hallowed
  exact hcalls c request hcall

theorem no_submit (c : Coordinator) : ∀ c' request,
    Call.submit c' request ∉ [Call.resume c []] := by
  intro c' request h
  cases List.mem_singleton.mp h

variable (c : Coordinator) (hstart : Prog.Unspoiled Refused h)
include hstart

theorem unspoiled_publish (publication : Publication) (context : String) :
    (c.publish publication context).Sat (fun h _ => Prog.Unspoiled Refused h)
      (fun h _ => Prog.Unspoiled Refused h) h := by
  have hsat : (c.publish publication context).Sat (Allowed [.resume c []]) (fun _ _ => True) h :=
    sat_publish c publication context (Q := fun _ => True) trivial fun _ _ => trivial
  exact (hsat.guard (not_refused (no_submit c)) hstart).mono fun _ _ h => h.2

theorem unspoiled_execute {record : JournalRecord} (horigin : Origin record h) :
    (c.execute record).Sat (fun h _ => Prog.Unspoiled Refused h) (fun _ _ => True) h := by
  have hsat : (c.execute record).Sat (Allowed [.resume c []]) (fun _ _ => True) h :=
    sat_execute c List.mem_cons_self rfl horigin
  exact (hsat.guard (not_refused (no_submit c)) hstart).mono fun _ _ _ => trivial

omit c in
theorem unspoiled_prepare (request : Request) (now : Time) :
    (Coordinator.prepare request now).Sat (fun h _ => Prog.Unspoiled Refused h)
      (fun h' result => ∀ prepared, result = .ok prepared → Prog.Unspoiled Refused h' ∧
        (prepared.duplicate = false → prepared.decision.verdict ≠ .deny →
          Origin prepared.record h')) h := by
  refine .call_bind hstart fun env s => ?_
  have hgenerated : Prog.Unspoiled Refused (⟨.newCommandID, env, s⟩ :: h) := by
    rintro _ heq ⟨record, _, _, _, hrefused, -⟩
    rw [← Option.some.inj heq] at hrefused
    cases hrefused
  split
  case h_1 => exact fun _ h => by cases h
  case h_2 commandID hid =>
    refine .ite (fun htoken => ?_) fun _ _ h => by cases h
    split
    case h_1 => exact fun _ h => by cases h
    case h_2 decision hprepared =>
      intro prepared hok
      cases hok
      exact ⟨hgenerated, fun _ hdeny => absurd (verdict_of_prepareRecord_none hprepared) hdeny⟩
    case h_3 decision record hprepared =>
      refine .call_bind hgenerated fun env' s' => ?_
      split
      case h_1 => exact fun _ h => by cases h
      case h_2 persisted duplicate hpersisted =>
        intro prepared hok
        cases hok
        refine ⟨?_, fun hnew _ => ?_⟩
        · rintro _ heq ⟨record', _, _, err, hrefused, herror⟩
          rw [← Option.some.inj heq] at hrefused
          cases hrefused
          cases hpersisted.symm.trans herror
        · cases hnew
          obtain rfl := persisted_of_new hpersisted
          exact .persisted env' s' _ hpersisted

theorem unspoiled_submitAt (request : Request) (now : Time) :
    (c.submitAt request now).Sat (fun h _ => Prog.Unspoiled Refused h) (fun _ _ => True) h := by
  refine .bind (unspoiled_prepare hstart request now) fun h' result hresult => ?_
  cases result with
  | error e => trivial
  | ok prepared =>
    obtain ⟨hunspoiled, horigin⟩ := hresult prepared rfl
    refine .ite (fun _ => ?_) fun hdeny => ?_
    · refine .bind (unspoiled_publish c hunspoiled _ _) fun _ published _ => ?_
      cases published <;> trivial
    · refine .ite (fun _ => ?_) fun _ => ?_
      · refine .bind (unspoiled_publish c hunspoiled _ _) fun _ published _ => ?_
        cases published <;> trivial
      · refine .ite (fun _ => trivial) fun hnew => ?_
        refine .ite (fun _ => trivial) fun _ => ?_
        exact unspoiled_execute c hunspoiled (horigin (Bool.not_eq_true _ ▸ hnew) hdeny)

theorem unspoiled_submit (request : Request) :
    (c.submit request).Sat (fun h _ => Prog.Unspoiled Refused h) (fun _ _ => True) h := by
  unfold Coordinator.submit
  split
  case h_1 => trivial
  case h_2 =>
    have hsat : now.Sat (Allowed [.resume c []]) (fun _ _ => True) h := sat_now
    refine .bind (hsat.guard (not_refused (no_submit c)) hstart) fun h reading hclock => ?_
    cases reading with
    | error e => trivial
    | ok now =>
      refine .ite (fun _ => ?_) fun _ => trivial
      refine .ite (fun _ => unspoiled_submitAt c hclock.2 request now) fun _ => ?_
      refine .bind (unspoiled_publish c hclock.2 _ _) fun h published hpublished => ?_
      cases published with
      | some e => trivial
      | none => exact unspoiled_submitAt c hpublished request now

end Unspoiled

theorem unspoiled_program (call : Call) :
    (program call).Sat (fun h _ => Prog.Unspoiled Refused h) (fun _ _ => True) [] := by
  have hstart : Prog.Unspoiled Refused ([] : History) := fun _ h => by cases h
  have hother : (∀ c request, Call.submit c request ∉ [call]) →
      (program call).Sat (fun h _ => Prog.Unspoiled Refused h) (fun _ _ => True) [] := fun hcalls =>
    ((sat_program List.mem_cons_self).guard (not_refused hcalls) hstart).mono fun _ _ _ => trivial
  cases call with
  | submit c request =>
    exact (unspoiled_submit c hstart request).bind fun _ _ _ => trivial
  | _ =>
    apply hother
    intro c request h
    cases List.mem_singleton.mp h

/-! ## The result -/

section Integrity

variable {s : Store} {actions : List (Action system)}

theorem indexed_of_run (hempty : s .commandJournal = ∅) (actions : List (Action system)) :
    Indexed (run s actions).state := by
  refine (@invariant_of_run _ system Indexed ?_ ?_ s ?_ actions).1
  · exact fun o env s h => h.effect (perform_effect o env s) (perform_index o env s)
  · exact fun m s h => h.effect (move_effect .nothing m s) (move_index m s)
  · intro key value _ hvalue
    rw [hempty] at hvalue
    cases hvalue

theorem indexKept_of_run (s : Store) (actions : List (Action system)) :
    (∀ e ∈ (run s actions).log, IndexKept s e.before ∧ IndexKept e.after (run s actions).state) ∧
      (run s actions).log.Pairwise fun later earlier => IndexKept earlier.after later.before :=
  related_of_run IndexKept.refl IndexKept.trans (fun o env s => (perform_index o env s).kept)
    (fun m s => (move_index m s).kept) s actions

theorem resolved_of_run (hempty : s .commandJournal = ∅) (hids : ValidIDs s actions)
    {e : Event interface} (he : e ∈ (run s actions).log) {record persisted : JournalRecord}
    {duplicate : Bool} (haccepts : Accepts e.toOccurrence record persisted duplicate) :
    ∃ r, recordAt (run s actions).state (recordKey record.command) = some r ∧
      r.command.commandID = persisted.command.commandID := by
  obtain ⟨r, hr, hid⟩ := haccepts.resolved (norm_commandID_of_persist hids he haccepts.op_eq)
  obtain ⟨r', hr', hdescends⟩ :=
    (((succeeds_of_run s actions).1 e he).2 (clean_of_event (clean_empty hempty) he).2).2 _ r
      (isRecordKey_recordKey _) hr
  refine ⟨r', hr', ?_⟩
  rw [hdescends.command]
  exact hid

/-- Of the submissions of one effect only the first is no duplicate. -/
theorem duplicate_of_later (hempty : s .commandJournal = ∅) (hids : ValidIDs s actions) :
    (run s actions).log.Pairwise fun later earlier =>
      ∀ record record' persisted persisted' duplicate duplicate',
        Accepts later.toOccurrence record persisted duplicate →
        Accepts earlier.toOccurrence record' persisted' duplicate' →
        effectIdentity record.command = effectIdentity record'.command → duplicate = true := by
  refine (succeeds_of_run s actions).2.imp_of_mem
    fun {later earlier} hlater hearlier hsucceeds => ?_
  intro record record' persisted persisted' duplicate duplicate' haccepts haccepts' hidentity
  obtain ⟨r, hr, -⟩ := haccepts'.resolved (norm_commandID_of_persist hids hearlier haccepts'.op_eq)
  obtain ⟨r', hr', -⟩ := (hsucceeds (clean_of_event (clean_empty hempty) hearlier).2).2 _ r
    (isRecordKey_recordKey _) hr
  rw [← recordKey_of_effectIdentity hidentity] at hr'
  exact (haccepts.duplicate_of hr').1

theorem identity_of_idempotencyKey (hfree : CollisionFree (spawned actions))
    {e e' : Event interface} (he : e ∈ (run s actions).log) (he' : e' ∈ (run s actions).log)
    {record record' persisted persisted' : JournalRecord} {duplicate duplicate' : Bool}
    (h : Accepts e.toOccurrence record persisted duplicate)
    (h' : Accepts e'.toOccurrence record' persisted' duplicate')
    (hkey : record.command.idempotencyKey = record'.command.idempotencyKey) :
    effectIdentity record.command = effectIdentity record'.command := by
  have hbound := ((indexKept_of_run s actions).1 e he).2 _ _ (isRecordKey_indexKey _)
    (persistPending_binds h.body).1
  have hbound' := ((indexKept_of_run s actions).1 e' he').2 _ _ (isRecordKey_indexKey _)
    (persistPending_binds h'.body).1
  rw [hkey] at hbound
  obtain ⟨request, hrequest⟩ := requestOf_persist he h.op_eq
  obtain ⟨request', hrequest'⟩ := requestOf_persist he' h'.op_eq
  exact effectIdentity_of_recordKey hfree hrequest hrequest'
    (Option.some.inj (hbound.symm.trans hbound'))

/-- A submission that the journal refused has changed nothing, before or after. -/
theorem unchanged_of_refused {e x : Event interface} (he : e ∈ (run s actions).log)
    (hrefused : Refused e.toOccurrence) (hx : x ∈ (run s actions).log)
    (hthread : x.thread = e.thread) :
    x.after = x.before ∧ ∀ publication, x.op = Op.publish publication →
      ∃ c request, Call.submit c request ∈ spawned actions ∧ c.publisher = true ∧
        request.policyInput.analysisAvailable = false := by
  obtain ⟨later, earlier, hlog⟩ := List.append_of_mem he
  have hguard := (sat_of_run (S := system) (P := fun h _ => Prog.Unspoiled Refused h)
    (Q := fun _ _ _ => True) s actions fun call _ => unspoiled_program call).events
  have hallowed := (guaranteed_of_run s actions).events later e earlier hlog
  obtain ⟨record, env, before, err, hoccurrence, herror⟩ := hrefused
  rw [hlog] at hx
  rcases List.mem_append.mp hx with hx | hx
  · -- nothing follows in this thread
    have hlast := @last_of_bad _ _ _ _ hguard later [] earlier e hlog
      ⟨record, env, before, err, hoccurrence, herror⟩ (fun _ h => absurd h List.not_mem_nil)
    exact absurd hthread (hlast x hx)
  · rcases List.mem_cons.mp hx with rfl | hx
    · rw [hoccurrence]
      exact ⟨Transaction.run_error herror, fun _ h => by cases h⟩
    · -- what came before only read the clock, published the notice and generated the ID
      have hop : e.op = Op.tx (.persistPending record) := by rw [hoccurrence]
      rw [hop] at hallowed
      obtain ⟨c, request, commandID, now, decision, env', before', rest, hcall, -, -, -, hhistory,
        -, hearlier⟩ := hallowed
      have hmem := mem_history hx
      rw [hthread, hhistory] at hmem
      obtain ⟨⟨o, answer, state⟩, thread⟩ := x
      rcases List.mem_cons.mp hmem with heq | hmem
      · cases heq
        exact ⟨rfl, fun _ h => by cases h⟩
      · have hpreliminary := hearlier _ hmem
        cases o with
        | clock => exact ⟨rfl, fun _ h => by cases h⟩
        | publish publication => exact ⟨rfl, fun _ _ => ⟨c, request, hcall, hpreliminary⟩⟩
        | _ => cases hpreliminary

/-- In every run that starts with an empty journal and generates valid command IDs, every index
entry leads to a record and is kept; the accepted submissions of one effect share one record and
its command ID, of which the first alone is no duplicate, those of one idempotency key have one
effect, and those of two effects have two records; a refused submission changes nothing, and
publishes nothing but the notice that its analysis is unavailable. -/
theorem idempotency_index_integrity (s : Store) (actions : List (Action system))
    (hempty : s .commandJournal = ∅) (hids : ValidIDs s actions)
    (hfree : CollisionFree (spawned actions)) :
    (∀ key value, isRecordKey key = false →
      ((run s actions).state .commandJournal)[key]? = some value →
      (isRecordKey value = true ∧
        ((run s actions).state .commandJournal)[value]?.isSome = true) ∧
      ∀ rest, ((run s (actions ++ rest)).state .commandJournal)[key]? = some value) ∧
    (∀ e ∈ (run s actions).log, ∀ record persisted duplicate,
      Accepts e.toOccurrence record persisted duplicate →
      (∃ r, recordAt (run s actions).state (recordKey record.command) = some r ∧
        r.command.commandID = persisted.command.commandID) ∧
      ∀ e' ∈ (run s actions).log, ∀ record' persisted' duplicate',
        Accepts e'.toOccurrence record' persisted' duplicate' →
        (record.command.idempotencyKey = record'.command.idempotencyKey →
          effectIdentity record.command = effectIdentity record'.command) ∧
        (effectIdentity record.command = effectIdentity record'.command ↔
          recordKey record.command = recordKey record'.command)) ∧
    ((run s actions).log.Pairwise fun later earlier =>
      ∀ record record' persisted persisted' duplicate duplicate',
        Accepts later.toOccurrence record persisted duplicate →
        Accepts earlier.toOccurrence record' persisted' duplicate' →
        effectIdentity record.command = effectIdentity record'.command → duplicate = true) ∧
    ∀ e ∈ (run s actions).log, Refused e.toOccurrence → ∀ x ∈ (run s actions).log,
      x.thread = e.thread → x.after = x.before ∧ ∀ publication, x.op = Op.publish publication →
        ∃ c request, Call.submit c request ∈ spawned actions ∧ c.publisher = true ∧
          request.policyInput.analysisAvailable = false := by
  refine ⟨fun key value hkey hvalue =>
    ⟨indexed_of_run hempty actions key value hkey hvalue, ?_⟩, ?_,
    duplicate_of_later hempty hids,
    fun e he hrefused x hx hthread => unchanged_of_refused he hrefused hx hthread⟩
  · intro rest
    have hkept : IndexKept (run s actions).state (run s (actions ++ rest)).state :=
      related_of_append IndexKept.refl IndexKept.trans
        (fun o env s => (perform_index o env s).kept) (fun m s => (move_index m s).kept)
        s actions rest
    exact hkept key value hkey hvalue
  · intro e he record persisted duplicate haccepts
    refine ⟨resolved_of_run hempty hids he haccepts, ?_⟩
    intro e' he' record' persisted' duplicate' haccepts'
    obtain ⟨request, hrequest⟩ := requestOf_persist he haccepts.op_eq
    obtain ⟨request', hrequest'⟩ := requestOf_persist he' haccepts'.op_eq
    exact ⟨identity_of_idempotencyKey hfree he he' haccepts haccepts',
      recordKey_of_effectIdentity, effectIdentity_of_recordKey hfree hrequest hrequest'⟩

end Integrity

/-! ## Two submissions of one effect -/

/-- Two submissions that wait for approval, under two idempotency keys, one after the other; the
first gets this command ID. -/
def twoSubmissions (commandID : Bytes) : List (Action system) :=
  [.spawn (.submit ⟨.withApprovals, false⟩ (highRiskRequest (lit "k"))),
    .spawn (.submit ⟨.withApprovals, false⟩ (highRiskRequest (lit "l")))] ++
    List.replicate 3 (.step 0 fun _ => sampleEnvironment 1 commandID true) ++
    List.replicate 3 (.step 1 fun _ => sampleEnvironment 2 (lit "j") true)

def submissionResults (w : World system) : List Result :=
  w.threads.filterMap fun thread =>
    match thread.2 with
    | some (.pure (.submitted result none)) => some result
    | _ => none

theorem two_submissions_indexed :
    (submissionResults (run Store.empty (twoSubmissions (lit "i")))).map (fun result =>
        (result.command.commandID, result.outcome, result.duplicate)) =
      [(lit "i", .awaitApproval, false), (lit "i", .awaitApproval, true)] ∧
    Indexed (run Store.empty (twoSubmissions (lit "i"))).state := by
  refine ⟨by decide +kernel, fun key value hkey hvalue => ?_⟩
  refine ((idempotency_index_integrity Store.empty (twoSubmissions (lit "i")) rfl ?_ ?_).1 key value
    hkey hvalue).1
  · exact validIDs_of_all (by decide +kernel)
  · -- both submissions hash the same tuple
    rintro x ⟨c, request, hcall, rfl⟩ y ⟨c', request', hcall', rfl⟩ -
    have htuple : ∀ {c request}, Call.submit c request ∈ spawned (twoSubmissions (lit "i")) →
        effectTuple request = effectTuple (highRiskRequest (lit "k")) := by
      intro c request hcall
      have hcalls : spawned (twoSubmissions (lit "i")) =
          [.submit ⟨.withApprovals, false⟩ (highRiskRequest (lit "k")),
            .submit ⟨.withApprovals, false⟩ (highRiskRequest (lit "l"))] := rfl
      rw [hcalls] at hcall
      rcases List.mem_cons.mp hcall with heq | hcall
      · cases heq
        rfl
      · cases List.mem_singleton.mp hcall
        rfl
    rw [htuple hcall, htuple hcall']

/-- With a command ID that is no valid UTF-8 the two submissions of one effect return two command
IDs. -/
theorem two_submissions_differ :
    (submissionResults (run Store.empty (twoSubmissions [0xff]))).map (fun result =>
        (result.command.commandID, result.outcome, result.duplicate)) =
      [([0xff], .awaitApproval, false), ([0xef, 0xbf, 0xbd], .awaitApproval, true)] := by
  decide +kernel

end PulseAgent.Recovery
