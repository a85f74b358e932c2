import PulseAgent.Recovery.Encoding
import PulseAgent.Stabilization.Deadline

/-!
# Scheduled retries

The caller has to submit the effect of a scheduled retry again. The journal knows a command by its
effect, and the failed one is still there.
-/

namespace PulseAgent.Recovery

open Go Go.Json Contract Concurrent

/-- A request for the effect of a command: the same incident, runbook, digest, target and action. -/
structure SameEffect (request : Request) (command : RecoveryCommand) : Prop where
  incidentID : request.incidentID = command.incidentID
  runbookID : request.policyInput.runbookID = command.runbookID
  runbookDigest : request.policyInput.runbookDigest = command.runbookDigest
  targetID : request.target.targetID = command.targetID
  actionIndex : request.policyInput.actionIndex = command.actionIndex

def SameRecords (s s' : Store) : Prop :=
  ∀ key, isRecordKey key = true → recordAt s' key = recordAt s key

section Journal

variable {s : Store} {key : Bytes} {existing record : JournalRecord}

theorem SameRecords.refl (s : Store) : SameRecords s s := fun _ _ => rfl

theorem sameRecords_index (s : Store) (idempotencyKey value : Bytes) :
    SameRecords s (Function.update s .commandJournal
      ((s .commandJournal).insert (idempotencyIndexKey idempotencyKey) value)) := by
  intro key hkey
  have hindex : idempotencyIndexKey idempotencyKey ≠ key := by
    intro heq
    rw [← heq, isRecordKey_indexKey] at hkey
    cases hkey
  rw [recordAt, recordAt, Function.update_self, Std.ExtTreeMap.getElem?_insert, if_neg]
  rwa [Std.LawfulEqCmp.compare_eq_iff_eq]

theorem persistPending_existing (hexisting : recordAt s key = some existing)
    (hkey : recordKey record.command = key) (fault : Option Error) (inputs : AuditInputs) :
    (∀ result, ((Transaction.persistPending record).run fault inputs s).1 = .ok result →
        result = (existing, true)) ∧
      SameRecords s ((Transaction.persistPending record).run fault inputs s).2 := by
  cases hrun : ((Transaction.persistPending record).run fault inputs s).1 with
  | error e =>
    rw [Transaction.run_error hrun]
    refine ⟨?_, .refl s⟩
    rintro _ ⟨⟩
  | ok result =>
    obtain ⟨persisted, duplicate⟩ := result
    have hbody : persistPending record s = .ok ((persisted, duplicate), _) :=
      Transaction.run_ok hrun
    rcases persistPending_ok hbody with ⟨rfl, hloads, hstate⟩ | ⟨-, -, habsent, -⟩
    · rw [hkey] at hloads
      obtain rfl := Option.some.inj (hexisting.symm.trans hloads.recordAt_eq)
      refine ⟨fun _ h => (Except.ok.inj h).symm, ?_⟩
      rcases hstate with hstate | hstate
      · rw [hstate]
        exact .refl s
      · rw [hstate]
        exact sameRecords_index s _ _
    · rw [hkey] at habsent
      rw [recordAt, habsent] at hexisting
      cases hexisting

theorem recordKey_pendingRecord {request : Request} {command : RecoveryCommand}
    (h : SameEffect request command) (commandID : Bytes) (now : Time)
    (registered : Policy.RegisteredRunbook) (action : TypedAction) (decision : Policy.Decision) :
    recordKey (Coordinator.pendingRecord request commandID now registered action decision).command =
      recordKey command := by
  change stableKey journalRecordPrefix [request.incidentID, request.policyInput.runbookID,
    request.policyInput.runbookDigest, request.target.targetID,
    Decimal.formatInt request.policyInput.actionIndex.toInt] = _
  rw [h.incidentID, h.runbookID, h.runbookDigest, h.targetID, h.actionIndex]
  rfl

end Journal

/-! ## A request for an effect the journal has -/

section Submit

variable {s : Store} {existing : JournalRecord} {request : Request}
  (hexisting : recordAt s (recordKey existing.command) = some existing)
  (hsame : SameEffect request existing.command)

include hexisting hsame

theorem prepare_existing (now : Time) :
    (Coordinator.prepare request now).Ends (Prog.anyhow interface)
    (fun value s' => SameRecords s s' ∧ ∀ prepared, value = .ok prepared →
      prepared.decision.verdict = .deny ∨
        prepared.duplicate = true ∧ prepared.record = existing) s := by
  refine .call_bind fun env _ => ?_
  split
  case h_1 => exact ⟨.refl s, by rintro _ ⟨⟩⟩
  case h_2 commandID _ =>
    split
    case isFalse => exact ⟨.refl s, by rintro _ ⟨⟩⟩
    case isTrue =>
      split
      case h_1 => exact ⟨.refl s, by rintro _ ⟨⟩⟩
      case h_2 decision hrecord =>
        refine ⟨.refl s, ?_⟩
        rintro _ ⟨⟩
        exact .inl (verdict_of_prepareRecord_none hrecord)
      case h_3 decision record hrecord =>
        obtain ⟨registered, action, -, rfl⟩ := prepareRecord_some hrecord
        refine .call_bind fun env' _ => ?_
        obtain ⟨hresult, hrecords⟩ := persistPending_existing hexisting
          (recordKey_pendingRecord hsame commandID now registered action decision)
          (Environment.fault env') (Environment.audit env')
        split
        case h_1 => exact ⟨hrecords, by rintro _ ⟨⟩⟩
        case h_2 persisted duplicate hpersisted =>
          obtain ⟨rfl, rfl⟩ := Prod.mk.inj (hresult _ hpersisted)
          refine ⟨hrecords, ?_⟩
          rintro _ ⟨⟩
          exact .inr ⟨rfl, rfl⟩

omit hexisting hsame in
theorem publish_ends (c : Coordinator) (publication : Publication) (context : String) (s' : Store) :
    (c.publish publication context).Ends (Prog.anyhow interface) (fun _ s'' => s' = s'') s' := by
  unfold Coordinator.publish
  split
  case isTrue =>
    refine .call_bind fun env _ => ?_
    split
    case h_1 => exact rfl
    case h_2 => exact rfl
  case isFalse => exact rfl

/-- Nothing is created, and an allowed request is answered with the record that is there. -/
def Absorbed (s : Store) (existing : JournalRecord) (value : Result × Option Error)
    (s' : Store) : Prop :=
  SameRecords s s' ∧ (value.2 = none → value.1.decision.verdict = .allow →
    value.1.duplicate = true ∧ value.1.command = existing.command)

omit hexisting hsame in
theorem absorbed_of_not_allow {s' : Store} {value : Result × Option Error}
    (hrecords : SameRecords s s')
    (h : value.1.decision.verdict ≠ .allow) : Absorbed s existing value s' :=
  ⟨hrecords, fun _ hallow => absurd hallow h⟩

omit hexisting hsame in
theorem absorbed_of_unset {s' : Store} {result : Result} (hrecords : SameRecords s s')
    (h : result.decision.verdict = .unset) (err : Option Error) :
    Absorbed s existing (result, err) s' :=
  absorbed_of_not_allow hrecords (by rw [h]; decide)

theorem submitAt_existing (c : Coordinator) (now : Time) :
    (c.submitAt request now).Ends (Prog.anyhow interface) (Absorbed s existing) s := by
  refine .bind (prepare_existing hexisting hsame now) ?_
  rintro (e | prepared) s' ⟨hrecords, hprepared⟩
  · exact absorbed_of_unset hrecords rfl _
  · dsimp only
    split
    case isTrue hdeny =>
      refine .bind (publish_ends c _ _ s') ?_
      rintro (_ | e) _ rfl
      · exact absorbed_of_not_allow hrecords (by rw [hdeny]; decide)
      · exact absorbed_of_unset hrecords rfl _
    case isFalse hdeny =>
      obtain ⟨hduplicate, rfl⟩ := (hprepared prepared rfl).resolve_left hdeny
      split
      case isTrue hawait =>
        refine .bind (publish_ends c _ _ s') ?_
        rintro (_ | e) _ rfl
        · exact absorbed_of_not_allow hrecords (by rw [hawait]; decide)
        · exact absorbed_of_unset hrecords rfl _
      case isFalse =>
        exact ⟨hrecords, fun _ _ => ⟨rfl, rfl⟩⟩

theorem submit_existing (c : Coordinator) :
    (c.submit request).Ends (Prog.anyhow interface) (Absorbed s existing) s := by
  unfold Coordinator.submit
  split
  case h_1 => exact absorbed_of_unset (.refl s) rfl _
  case h_2 =>
    have hclock : now.Ends (Prog.anyhow interface) (fun _ s' => s = s') s := fun _ _ => rfl
    refine .bind hclock ?_
    rintro (e | now) _ rfl
    · exact absorbed_of_unset (.refl s) rfl _
    · dsimp only
      split
      case isTrue =>
        split
        case isTrue => exact submitAt_existing hexisting hsame c now
        case isFalse =>
          refine .bind (publish_ends c _ _ s) ?_
          rintro (_ | e) _ rfl
          · exact submitAt_existing hexisting hsame c now
          · exact absorbed_of_unset (.refl s) rfl _
      case isFalse => exact absorbed_of_unset (.refl s) rfl _

end Submit

/-! ## Failed commands -/

theorem Attested.existing {s : Store} {actions : List (Action system)} (hclean : Clean s)
    {commandID : Bytes} {state : RecoveryCommandState}
    (h : Attested (run s actions).log (run s actions).state commandID state) :
    ∃ existing, recordAt (run s actions).state (recordKey existing.command) = some existing ∧
      existing.command.commandID = commandID ∧ existing.command.state = state := by
  obtain ⟨x, hx, key, record, existing, hfinds, hexisting, hid, -, hstate⟩ := h
  obtain ⟨hsame, hkey, hloads, -⟩ := hfinds.loads
  obtain ⟨r, hr, hdescends⟩ := (((succeeds_of_run s actions).1 x hx).2
    (clean_of_event hclean hx).2).2 key record hkey (by
      rw [show x.after = x.before from hsame]
      exact hloads.recordAt_eq)
  obtain rfl := Option.some.inj (hr.symm.trans hexisting)
  obtain ⟨document, -, hchecked⟩ := hloads
  have hrecordKey : recordKey r.command = key := by
    rw [← (checkedRecord_ok hchecked).2.2, hdescends.command]
    rfl
  refine ⟨r, ?_, hid, hstate⟩
  rw [hrecordKey]
  exact hexisting

/-- In every run whose results hold a scheduled retry, the journal has the failed command, and every
request for its effect is answered with it: whatever its idempotency key and its new command ID are,
no record is created. -/
theorem scheduled_retry_absorbed (s : Store) (hclean : Clean s)
    (hresults : s .stabilizationResults = ∅)
    (actions : List (Action system)) {key : Bytes} {r : Stabilization.ResultRecord}
    (hr : resultAt (run s actions).state key = some r) (hretry : r.outcome = .retryScheduled) :
    ∃ existing, recordAt (run s actions).state (recordKey existing.command) = some existing ∧
      existing.command.commandID = r.commandID ∧ existing.command.state = .failed ∧
      ∀ (c : Coordinator) (request : Request) (answers : Answers interface),
        SameEffect request existing.command →
        Absorbed (run s actions).state
          existing ((c.submit request).exec answers (run s actions).state).value
          ((c.submit request).exec answers (run s actions).state).state := by
  have hattested := (supported_of_run hclean hresults hr).attested .failed (by rw [hretry]; rfl)
  obtain ⟨existing, hexisting, hid, hstate⟩ := hattested.existing hclean
  exact ⟨existing, hexisting, hid, hstate, fun c request answers hsame =>
    (submit_existing hexisting hsame c).exec fun _ _ => trivial⟩

/-! ### One retry -/

/-- Answers at time 2 for an unhealthy target, with a policy that allows the retry. -/
def retryEnvironment : Environment :=
  { sampleEnvironment 2 (lit "j") false with
    state := .ok
      { target := sampleTarget (lit "c")
        policySnapshot := { runbooks := [sampleRunbook (lit "c")] }
        policyInput := { runbookID := lit "r", targetID := lit "t", analysisAvailable := true } } }

/-- One call that finds its target unhealthy and schedules a retry. -/
def retryVerification : List (Action system) :=
  .spawn (.verify sampleVerification) :: List.replicate 8 (.step 0 fun _ => retryEnvironment)

def retryStore : Store := (run (sampleStore stabilizingRecord) retryVerification).state

/-- The request for the retry: the effect of the first one under a new key. -/
def retryRequest : Request := sampleRequest (lit "n") (lit "c") (lit "k2")

theorem retryStore_result : (resultAt retryStore (Stabilization.resultKey (lit "i") 0)).map
    (fun r => (r.commandID, r.outcome)) = some (lit "i", .retryScheduled) := by
  decide +kernel

theorem sample_retry_absorbed :
    ∃ existing, recordAt retryStore (recordKey existing.command) = some existing ∧
      existing.command.commandID = lit "i" ∧ existing.command.state = .failed := by
  obtain ⟨r, hr, hfields⟩ := Option.map_eq_some_iff.mp retryStore_result
  obtain ⟨hid, hretry⟩ := Prod.mk.inj hfields
  obtain ⟨existing, hexisting, hexistingID, hstate, -⟩ := scheduled_retry_absorbed
    (sampleStore stabilizingRecord) clean_stabilizingRecord rfl retryVerification hr hretry
  exact ⟨existing, hexisting, hexistingID.trans hid, hstate⟩

/-- The retry is submitted under a new key and with a new command ID, and is allowed: it is taken
for a duplicate of the command that has failed. -/
theorem retry_taken_for_duplicate :
    (resultAt retryStore (Stabilization.resultKey (lit "i") 0)).map
      (fun r => (r.commandID, r.outcome)) =
        some (lit "i", .retryScheduled) ∧
      (fun value : Result × Option Error =>
        (value.2.isNone, value.1.decision.verdict, value.1.duplicate,
        value.1.command.commandID)) (((⟨.direct, false⟩ : Coordinator).submit retryRequest).exec
          (fun _ _ => retryEnvironment) retryStore).value = (true, .allow, true, lit "i") := by
  refine ⟨retryStore_result, ?_⟩
  decide +kernel

end PulseAgent.Recovery
