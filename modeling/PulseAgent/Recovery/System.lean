import PulseAgent.Recovery.Decision
import PulseAgent.Recovery.Readback
import PulseAgent.Stabilization.Verifier

/-!
# The recovery system

All calls of coordinator, approval manager and verifier on one store. The rest of the daemon may
replace the content of any other bucket at any time.
-/

namespace PulseAgent.Recovery

open Go Contract Concurrent

inductive Call where
  | submit (c : Coordinator) (request : Request)
  | resume (c : Coordinator) (commandID : Bytes)
  | reconcile
  | completeStabilization (commandID : Bytes) (succeeded : Bool)
  | decide (request : ApprovalDecisionRequest)
  | verify (request : Stabilization.Request)

inductive Returned where
  | submitted (result : Result) (err : Option Error)
  | resumed (result : Result) (err : Option Error)
  | reconciled (results : Except Error (List ReconciliationResult))
  | completed (command : Except Error RecoveryCommand)
  | decided (result : Except Error ApprovalDecisionResult)
  | verified (result : Stabilization.Result) (err : Option Error)

def program : Call → Prog Returned
  | .submit c request => do
    let (result, err) ← c.submit request
    pure (.submitted result err)
  | .resume c commandID => do
    let (result, err) ← c.resume commandID
    pure (.resumed result err)
  | .reconcile => do
    let results ← reconcile
    pure (.reconciled results)
  | .completeStabilization commandID succeeded => do
    let command ← completeCommand commandID succeeded
    pure (.completed command)
  | .decide request => do
    let result ← decideCommand request
    pure (.decided result)
  | .verify request => do
    let (result, err) ← Stabilization.verify request
    pure (.verified result err)

/-- The buckets only these calls write. -/
def owned : Bucket → Bool
  | .commandJournal | .approvals | .stabilizationResults => true
  | _ => false

structure Move where
  bucket : Bucket
  content : Collection
  foreign : owned bucket = false

abbrev system : System Store where
  interface := interface
  Call := Call
  Out := Returned
  program := program
  Move := Move
  move m s := Function.update s m.bucket m.content

abbrev run (s : Store) (actions : List (Action system)) : World system :=
  Concurrent.run s actions

/-! ## What single steps do -/

theorem move_owned (m : Move) (s : Store) {bucket : Bucket} (h : owned bucket = true) :
    (system.move m s) bucket = s bucket := by
  refine Function.update_of_ne ?_ _ _
  rintro rfl
  rw [m.foreign] at h
  cases h

def Transaction.intake : Transaction → Intake
  | .persistPending record => ⟨(· = record), fun _ => False⟩
  | .decide _ approvalID _ => ⟨fun _ => False, (· = approvalID)⟩
  | _ => .nothing

def Op.intake : Op → Intake
  | .tx t => t.intake
  | _ => .nothing

/-- The buckets a transaction may write. -/
def Transaction.writes : Transaction → List Bucket
  | .reconcilableRecords | .findRecord _ | .loadApproval _ | .loadResult .. => []
  | .recordRejected .. => [.audit]
  | .putResult .. => [.stabilizationResults]
  | .decide .. => [.commandJournal, .approvals, .audit]
  | _ => [.commandJournal]

theorem body_keeps {t : Transaction} {inputs : AuditInputs} {s s' : Store} {a : t.Out}
    (h : t.body inputs s = .ok (a, s')) {bucket : Bucket} (hbucket : bucket ∉ t.writes) :
    s' bucket = s bucket := by
  cases t with
  | persistPending record => exact persistPending_keeps (List.ne_of_not_mem_cons hbucket) _ _ _ _ h
  | reconcilableRecords => rw [(reconcilableRecords_ok.mp h).1]
  | findRecord commandID => rw [(findRecordByCommandID_ok.mp h).1]
  | decide request approvalID now => exact decideApproval_keeps hbucket _ _ _ h
  | recordRejected request reason =>
    obtain ⟨s1, hkept, rfl⟩ := appendAudit_change h
    exact hkept _ (List.ne_of_not_mem_cons hbucket)
  | loadApproval commandID => rw [(loadApproval_ok h).1]
  | loadResult commandID attempt => rw [Stabilization.loadResult_ok h]
  | putResult commandID attempt document =>
    change Stabilization.putResult commandID attempt document s = .ok (a, s') at h
    obtain ⟨-, -, rfl⟩ := Tx.put_ok.mp h
    exact Function.update_of_ne (List.ne_of_not_mem_cons hbucket) _ _
  | _ => exact updateRecord_keeps (List.ne_of_not_mem_cons hbucket) _ _ _ _ _ h

/-- An operation leaves the store alone, or is a transaction that commits. -/
theorem perform_cases (o : Op) (env : Environment) (s : Store) : (perform o env s).2 = s ∨
    ∃ t a, o = .tx t ∧ t.body env.audit s = .ok (a, (perform o env s).2) := by
  cases o with
  | tx t => exact (t.run_state env.fault env.audit s).imp_right fun ⟨a, h⟩ => ⟨t, a, rfl, h⟩
  | _ => exact .inl rfl

theorem body_effect {t : Transaction} {inputs : AuditInputs} {s s' : Store} {a : t.Out}
    (h : t.body inputs s = .ok (a, s')) : JournalEffect t.intake s s' := by
  cases t with
  | persistPending record => exact .of_persistPending rfl h
  | deny key => exact .of_updateRecord (fun _ _ => advance_of_denied) h
  | expire key => exact .of_updateRecord (fun _ _ => advance_of_expired) h
  | approve key => exact .of_updateRecord (fun _ _ => advance_of_approve) h
  | startExecution key => exact .of_updateRecord (fun _ _ => advance_of_start) h
  | finishExecution key next => exact .of_updateRecord (fun _ _ => advance_of_finish) h
  | completeStabilization key next => exact .of_updateRecord (fun _ _ => advance_of_complete) h
  | markVerifyAndNotify key snapshot verified now =>
    exact .of_updateRecord (fun _ _ => advance_of_verify) h
  | decide request approvalID now => exact (decideApproval_ok h).journal
  | _ => exact .of_eq (body_keeps h (by simp [Transaction.writes]))

theorem perform_effect (o : Op) (env : Environment) (s : Store) :
    JournalEffect o.intake s (perform o env s).2 := by
  obtain heq | ⟨t, a, rfl, hbody⟩ := perform_cases o env s
  · exact .of_eq (congrFun heq _)
  · exact body_effect hbody

theorem move_effect (intake : Intake) (m : Move) (s : Store) :
    JournalEffect intake s (system.move m s) :=
  .of_eq (move_owned m s rfl)

/-! ## The life of a journal record -/

section Lifecycle

variable {s s' : Store}

/-- A clean journal stays clean, and each of its records stays or descends. -/
def Succeeds (s s' : Store) : Prop :=
  Clean s → Clean s' ∧ ∀ key r, isRecordKey key = true → recordAt s key = some r →
    ∃ r', recordAt s' key = some r' ∧ Descends r r'

theorem Succeeds.refl (s : Store) : Succeeds s s :=
  fun hclean => ⟨hclean, fun _ r _ hr => ⟨r, hr, .refl r⟩⟩

theorem Succeeds.trans {a b c : Store} (h : Succeeds a b) (h' : Succeeds b c) : Succeeds a c := by
  intro hclean
  obtain ⟨hb, hab⟩ := h hclean
  obtain ⟨hc, hbc⟩ := h' hb
  refine ⟨hc, fun key r hkey hr => ?_⟩
  obtain ⟨r', hr', hdescends⟩ := hab key r hkey hr
  obtain ⟨r'', hr'', hdescends'⟩ := hbc key r' hkey hr'
  exact ⟨r'', hr'', hdescends.trans hdescends'⟩

theorem JournalEffect.succeeds {intake : Intake} (h : JournalEffect intake s s') :
    Succeeds s s' := by
  intro hclean
  refine ⟨hclean.effect h, fun key r hkey hr => ?_⟩
  obtain ⟨r', hr', rfl | hadvance⟩ := hclean.advance h hkey hr
  · exact ⟨r', hr', .refl r'⟩
  · exact ⟨r', hr', hadvance.descends⟩

theorem act_effect (w : World system) (a : Action system) :
    ∃ intake, JournalEffect intake w.state (w.act a).state :=
  w.act_related (R := fun s s' => ∃ intake, JournalEffect intake s s')
    (fun _ => ⟨.nothing, .of_eq rfl⟩)
    (fun o env s => ⟨Op.intake o, perform_effect o env s⟩)
    (fun m s => ⟨.nothing, move_effect .nothing m s⟩) a

theorem clean_of_run {s : Store} (hclean : Clean s) (actions : List (Action system)) :
    Clean (run s actions).state :=
  (invariant_of_run (fun o env s h => h.effect (perform_effect o env s))
    (fun m s h => h.effect (move_effect .nothing m s)) hclean actions).1

/-- In every run each record is valid, changes state only as commands may, keeps all but its
approval, which is set at most once, and rests once it is completed or held for verification. -/
theorem journal_lifecycle (s : Store) (hclean : Clean s) (actions : List (Action system))
    (key document : Bytes) (hkey : isRecordKey key = true)
    (hdocument : ((run s actions).state .commandJournal)[key]? = some document) :
    ∃ r, recordAt (run s actions).state key = some r ∧
      validRecordPhase r.phase r.command.state = true ∧ validReconciliation r = true ∧
      (∀ a, ∃ r', recordAt (run s (actions ++ [a])).state key = some r' ∧
        (r'.command.state = r.command.state ∨
          r.command.state.canTransitionTo r'.command.state = true)) ∧
      ∀ rest, ∃ r', recordAt (run s (actions ++ rest)).state key = some r' ∧ Descends r r' := by
  have hnow := clean_of_run hclean actions
  obtain ⟨r, hr⟩ := Option.isSome_iff_exists.mp (hnow.readable hkey hdocument)
  have hsound := hnow.sound hkey hr
  refine ⟨r, hr, hsound.phase, hsound.reconciliation, fun a => ?_, fun rest => ?_⟩
  · obtain ⟨intake, heffect⟩ := act_effect (run s actions) a
    obtain ⟨r', hr', heq | hadvance⟩ := hnow.advance heffect hkey hr
    · exact ⟨r', by rw [run, run_append, hr'], .inl (by rw [heq])⟩
    · exact ⟨r', by rw [run, run_append, hr'], hadvance.state⟩
  · have hsucceeds : Succeeds (run s actions).state (run s (actions ++ rest)).state :=
      related_of_append Succeeds.refl Succeeds.trans
        (fun o env s => (perform_effect o env s).succeeds)
          (fun m s => (move_effect .nothing m s).succeeds)
        s actions rest
    exact (hsucceeds hnow).2 key r hkey hr

end Lifecycle

/-! ## Records between events -/

section Events

variable {s : Store} {actions : List (Action system)}

theorem clean_of_event (hclean : Clean s) {e : Event interface} (he : e ∈ (run s actions).log) :
    Clean e.before ∧ Clean e.after :=
  (invariant_of_run (S := system) (fun o env s h => h.effect (perform_effect o env s))
    (fun m s h => h.effect (move_effect .nothing m s)) hclean actions).2 e he

theorem succeeds_of_run (s : Store) (actions : List (Action system)) :
    (∀ e ∈ (run s actions).log, Succeeds s e.before ∧ Succeeds e.after (run s actions).state) ∧
      (run s actions).log.Pairwise fun later earlier => Succeeds earlier.after later.before :=
  related_of_run Succeeds.refl Succeeds.trans (fun o env s => (perform_effect o env s).succeeds)
    (fun m s => (move_effect .nothing m s).succeeds) s actions

theorem succeeds_of_history (hclean : Clean s) {later earlier : List (Event interface)}
    {e : Event interface} {thread : Nat} {c : Occurrence interface}
    (hlog : (run s actions).log = later ++ e :: earlier) (hc : c ∈ history thread earlier) :
    ∃ x ∈ (run s actions).log, x.toOccurrence = c ∧ Clean c.after ∧ Succeeds c.after e.before := by
  obtain ⟨x, hx, rfl, -⟩ := mem_of_mem_history hc
  have hmem : x ∈ (run s actions).log := by
    rw [hlog]
    exact List.mem_append_right later (List.mem_cons_of_mem e hx)
  exact ⟨x, hmem, rfl, (clean_of_event hclean hmem).2,
    related_of_earlier (succeeds_of_run s actions).2 hlog hx⟩

end Events

/-! ## A journal with one record -/

def sampleTarget (selector : Bytes) : ServiceTarget where
  schemaVersion := schemaVersionV1
  targetID := lit "t"
  adapterType := Docker.adapterType
  selector := selector
  enabled := true

def sampleAction (selector : Bytes) : TypedAction where
  actionType := .dockerContainerRestart
  targetSelector := selector
  stopTimeout := 1

def sampleRunbook (selector : Bytes) : Policy.RegisteredRunbook where
  runbook :=
    { schemaVersion := schemaVersionV1
      runbookID := lit "r"
      digest := lit "d"
      typedActions := some [sampleAction selector]
      riskTier := .low
      autoExecute := true
      retryPolicy := { maxAttempts := 2 }
      stabilizationPolicy := { recoverySamples := 1, window := 1 } }
  targetID := lit "t"

def sampleRequest (incidentID selector idempotencyKey : Bytes) : Request where
  incidentID := incidentID
  target := sampleTarget selector
  policySnapshot := { runbooks := [sampleRunbook selector] }
  policyInput :=
    { runbookID := lit "r"
      runbookDigest := lit "d"
      targetID := lit "t"
      analysisAvailable := true }
  expiresAt := 100
  idempotencyKey := idempotencyKey

def highRiskRequest (idempotencyKey : Bytes) : Request :=
  { sampleRequest (lit "n") (lit "c") idempotencyKey with
    policySnapshot :=
      { runbooks := [{ sampleRunbook (lit "c") with
          runbook := { (sampleRunbook (lit "c")).runbook with riskTier := .high } }] } }

def sampleRecord (incidentID selector : Bytes) : JournalRecord :=
  Coordinator.pendingRecord (sampleRequest incidentID selector (lit "k")) (lit "i") 1
    (sampleRunbook selector) (sampleAction selector) ⟨.allow, .allowed⟩

def sampleStore (record : JournalRecord) : Store :=
  Function.update Store.empty .commandJournal
    (((Store.empty .commandJournal).insert (recordKey record.command)
      ((JournalRecord.codec.marshal record).getD [])).insert
        (idempotencyIndexKey record.command.idempotencyKey) (recordKey record.command))

/-- Answers at this time, with this generated ID and this reading of the target's health. -/
def sampleEnvironment (now : Time) (id : Bytes) (healthy : Bool) : Environment where
  now := now
  id := .ok id
  state := .error errInvalidRequest
  done := .ok ()
  snapshot := .error errInvalidRequest
  sample := .ok ⟨healthy, ∅⟩
  fault := none
  audit := ⟨.error errInvalidRequest, 0⟩

theorem persistPending_sample {record : JournalRecord}
    (hvalid : (validateRecord record).isOk = true)
    (hmarshal : (JournalRecord.codec.marshal record).isSome = true) :
    persistPending record Store.empty = .ok ((record, false), sampleStore record) := by
  obtain ⟨_, hok⟩ := exists_of_isOk hvalid
  obtain ⟨document, hdocument⟩ := Option.isSome_iff_exists.mp hmarshal
  rw [sampleStore, hdocument]
  exact persistPending_of_absent rfl rfl ⟨rfl, hok, hdocument⟩

theorem clean_sampleStore {record : JournalRecord} (hvalid : (validateRecord record).isOk = true)
    (hmarshal : (JournalRecord.codec.marshal record).isSome = true) : Clean (sampleStore record) :=
  have heffect : JournalEffect (Transaction.persistPending record).intake Store.empty
      (sampleStore record) := .of_persistPending rfl (persistPending_sample hvalid hmarshal)
  (clean_empty (s := Store.empty) rfl).effect heffect

/-- A submission that has to wait for approval, and a crash. -/
def awaitingRun : List (Action system) :=
  [.spawn (.submit ⟨.withApprovals, false⟩ (highRiskRequest (lit "k")))] ++
    List.replicate 3 (.step 0 fun _ => sampleEnvironment 1 (lit "i") true) ++ [.crash]

theorem journal_lifecycle_awaiting : ∃ key r,
    recordAt (run Store.empty awaitingRun).state key = some r ∧ r.phase = .awaitingApproval ∧
      ∀ rest, ∃ r', recordAt (run Store.empty (awaitingRun ++ rest)).state key = some r' ∧
        Descends r r' := by
  have hstored : ((run Store.empty awaitingRun).state .commandJournal)[
      recordKey (sampleRecord (lit "n") (lit "c")).command]?.isSome = true := by decide +kernel
  have hphase : (recordAt (run Store.empty awaitingRun).state
      (recordKey (sampleRecord (lit "n") (lit "c")).command)).map (·.phase) =
        some .awaitingApproval := by decide +kernel
  obtain ⟨document, hdocument⟩ := Option.isSome_iff_exists.mp hstored
  obtain ⟨r, hr, -, -, -, hlater⟩ := journal_lifecycle Store.empty (clean_empty rfl) awaitingRun _
    document (isRecordKey_recordKey _) hdocument
  rw [hr] at hphase
  exact ⟨_, r, hr, Option.some.inj hphase, hlater⟩

end PulseAgent.Recovery
