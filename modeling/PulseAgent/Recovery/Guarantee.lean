import PulseAgent.Recovery.System

/-!
# What each call guarantees before an effect

`Allowed` says what a call has behind it, in its own history, when it executes an action, persists a
new record, decides on one or stores a verification result.
-/

namespace PulseAgent.Recovery

open Go Contract Concurrent

abbrev History := List (Occurrence interface)

def Call.coordinator : Call → Option Coordinator
  | .submit c _ => some c
  | .resume c _ => some c
  | _ => none

/-! ## Histories -/

/-- The state source answered `state` for the command. -/
inductive Loaded (command : RecoveryCommand) : StateSource → ExecutionState → History →
    History → Prop where
  | direct (env : Environment) (s : Store) (state : ExecutionState) (h : History)
      (hload : env.state = .ok state) :
        Loaded command .direct state h (⟨.load command, env, s⟩ :: h)
  | unapproved (env : Environment) (s : Store) (state : ExecutionState) (h : History)
      (hload : env.state = .ok state) (happroval : command.approvalID = []) :
      Loaded command .withApprovals state h (⟨.load command, env, s⟩ :: h)
  | approved (env env' : Environment) (s s' : Store) (state : ExecutionState) (h : History)
      (found : Option Approval) (hload : env.state = .ok state)
      (hfound : ((Transaction.loadApproval command.commandID).run env'.fault env'.audit s').1 =
        .ok found) :
      Loaded command .withApprovals (attachApproval command state found) h
        (⟨.tx (.loadApproval command.commandID), env', s'⟩ :: ⟨.load command, env, s⟩ :: h)

/-- One revalidation of the record allowed its action. -/
inductive Passed (source : StateSource) (record : JournalRecord) : ExecutionState → Time →
    History → History → Prop where
  | intro (state : ExecutionState) (env : Environment) (s : Store) (h h' : History)
      (hload : Loaded record.command source state h h')
      (hunexpired : env.now < record.command.expiresAt)
      (hallow : (revalidateState state record env.now).verdict = .allow) :
      Passed source record state env.now h (⟨.clock, env, s⟩ :: h')

/-- The call persisted the record for a request, or found it in the journal. -/
inductive Origin (record : JournalRecord) : History → Prop where
  | persisted (env : Environment) (s : Store) (h : History)
      (hpersisted : ((Transaction.persistPending record).run env.fault env.audit s).1 =
        .ok (record, false)) :
      Origin record (⟨.tx (.persistPending record), env, s⟩ :: h)
  | found (commandID key : Bytes) (env : Environment) (s : Store) (h : History)
      (hfound : ((Transaction.findRecord commandID).run env.fault env.audit s).1 =
        .ok (some ⟨key, record⟩)) :
      Origin record (⟨.tx (.findRecord commandID), env, s⟩ :: h)

/-- The call passed the record's revalidation before and after the validation of its action. -/
inductive Rechecked (calls : List Call) (record : JournalRecord) : History → Prop where
  | intro (call : Call) (c : Coordinator) (first second : ExecutionState) (now now' : Time)
      (origin checked rechecked between : History) (env : Environment) (s : Store)
      (hcall : call ∈ calls) (hcoordinator : call.coordinator = some c)
      (horigin : Origin record origin)
      (hfirst : Passed c.stateSource record first now origin checked)
      (hvalidated : env.done = .ok ())
      (hsecond : Passed c.stateSource record second now'
        (⟨.validateAction record.target record.action, env, s⟩ :: checked) rechecked) :
      Rechecked calls record (between ++ rechecked)

theorem Rechecked.cons {calls : List Call} {record : JournalRecord} {h : History}
    (hrechecked : Rechecked calls record h) (e : Occurrence interface) :
    Rechecked calls record (e :: h) := by
  cases hrechecked with
  | intro call c first second now now' origin checked rechecked between env s hcall hcoordinator
      horigin hfirst hvalidated hsecond =>
    exact .intro call c first second now now' origin checked rechecked (e :: between) env s hcall
      hcoordinator horigin hfirst hvalidated hsecond

/-- The call itself just committed the start of the execution of what it executes. -/
def Authorized (calls : List Call) (command : RecoveryCommand) (target : ServiceTarget)
    (action : TypedAction) (h : History) : Prop :=
  ∃ record executing env s earlier,
    h = ⟨.tx (.startExecution (recordKey record.command)), env, s⟩ :: earlier ∧
    ((Transaction.startExecution (recordKey record.command)).run env.fault env.audit s).1 =
      .ok executing ∧
    executing.command = command ∧ executing.target = target ∧ executing.action = action ∧
    Rechecked calls record earlier

/-- What a submission does before it asks for a command ID: it reads the clock, and publishes a
notice if there is no analysis. -/
def Preliminary (c : Coordinator) (request : Request) : Op → Prop
  | .clock => True
  | .publish _ => c.publisher = true ∧ request.policyInput.analysisAvailable = false
  | _ => False

/-- The record was prepared for the request of a call, under the ID just generated. -/
def PreparedFor (calls : List Call) (record : JournalRecord) (h : History) : Prop :=
  ∃ c request commandID now decision env s earlier, Call.submit c request ∈ calls ∧
    validToken commandID maxCommandIDLength = true ∧ env.id = .ok commandID ∧
    Coordinator.prepareRecord request commandID now = .ok (decision, some record) ∧
    h = ⟨.newCommandID, env, s⟩ :: earlier ∧ validateRequest request = .ok () ∧
    ∀ x ∈ earlier, Preliminary c request x.op

/-- The command was found completed with this state, or the call just completed it. -/
inductive Completed (commandID : Bytes) (next : RecoveryCommandState) : History →
    History → Prop where
  | found (key : Bytes) (record : JournalRecord) (env : Environment) (s : Store) (h : History)
      (hfound : ((Transaction.findRecord commandID).run env.fault env.audit s).1 =
        .ok (some ⟨key, record⟩))
      (hphase : record.phase = .completed) (hstate : record.command.state = next) :
      Completed commandID next h (⟨.tx (.findRecord commandID), env, s⟩ :: h)
  | stored (key : Bytes) (record completed : JournalRecord) (env env' : Environment)
      (s s' : Store) (h : History)
      (hfound : ((Transaction.findRecord commandID).run env.fault env.audit s).1 =
        .ok (some ⟨key, record⟩))
      (hcompleted : ((Transaction.completeStabilization key next).run env'.fault env'.audit s').1 =
        .ok completed) :
      Completed commandID next h (⟨.tx (.completeStabilization key next), env', s'⟩ ::
        ⟨.tx (.findRecord commandID), env, s⟩ :: h)

/-- The call read the clock, loaded the result so far and goes on from it. -/
inductive Opened (calls : List Call) (request : Stabilization.Request) :
    Stabilization.ResultRecord → Time → History → Prop where
  | intro (env env' : Environment) (s s' : Store) (found : Option Stabilization.ResultRecord)
      (h : History) (hcall : Call.verify request ∈ calls)
      (hvalid : Stabilization.validateRequest request = .ok ())
      (hfound : ((Transaction.loadResult request.command.commandID request.attempt).run env'.fault
        env'.audit s').1 = .ok found)
      (hnamed : ∀ r, found = some r →
        r.commandID = request.command.commandID ∧ r.attempt = request.attempt)
      (hpending : (found.getD (Stabilization.newRecord request env.now)).outcome = .pending) :
      Opened calls request (found.getD (Stabilization.newRecord request env.now)) env.now
        (⟨.tx (.loadResult request.command.commandID request.attempt), env', s'⟩ ::
          ⟨.clock, env, s⟩ :: h)

/-- What a call makes of the result it loaded: one more sample, or an outcome that its command
was completed with. -/
inductive Recorded (calls : List Call) : Stabilization.ResultRecord → History → Prop where
  | counted (request : Stabilization.Request) (base : Stabilization.ResultRecord) (now : Time)
      (opened : History) (env : Environment) (s : Store)
      (hopened : Opened calls request base now opened) :
      Recorded calls { base with healthySamples := base.healthySamples + 1 }
        (⟨.observe request.target, env, s⟩ :: opened)
  | succeeded (request : Stabilization.Request) (base : Stabilization.ResultRecord) (now : Time)
      (opened between h : History) (hopened : Opened calls request base now opened)
      (hcompleted : Completed base.commandID .succeeded (between ++ opened) h) :
      Recorded calls { base with
        healthySamples := base.healthySamples + 1, outcome := .succeeded } h
  | failed (request : Stabilization.Request) (base : Stabilization.ResultRecord) (now : Time)
      (reason : Stabilization.FailureReason) (retry : Policy.ReasonCode)
      (opened between h : History) (hopened : Opened calls request base now opened)
      (hcompleted : Completed base.commandID .failed (between ++ opened) h) :
      Recorded calls { base with
        failureReason := reason, healthySamples := 0, nextAttempt := -1
        outcome := .failed, retryReason := retry } h
  | retried (request : Stabilization.Request) (base : Stabilization.ResultRecord) (now : Time)
      (reason : Stabilization.FailureReason) (retry : Policy.ReasonCode)
      (opened between h : History) (hopened : Opened calls request base now opened)
      (hattempts : request.attempt + 1 < request.retryPolicy.maxAttempts)
      (hcompleted : Completed base.commandID .failed (between ++ opened) h) :
      Recorded calls { base with
        failureReason := reason, healthySamples := 0, retryReason := retry
        outcome := .retryScheduled, nextAttempt := request.attempt + 1 } h

def Allowed (calls : List Call) (h : History) : Op → Prop
  | .execute command target action => Authorized calls command target action h
  | .tx (.persistPending record) => PreparedFor calls record h
  | .tx (.decide _ approvalID _) =>
    ∃ env s earlier, env.id = .ok approvalID ∧ h = ⟨.newApprovalID, env, s⟩ :: earlier
  | .tx (.putResult commandID attempt document) =>
    ∃ record, Recorded calls record h ∧ record.commandID = commandID ∧ record.attempt = attempt ∧
      Stabilization.validateRecord record = .ok () ∧
      Stabilization.ResultRecord.codec.marshal record = some document
  | _ => True

/-! ## The programs -/

section Programs

variable {calls : List Call} {h : History}

theorem sat_bind {α β : Type} {p : Prog α} {f : α → Prog β} {Q : History → β → Prop}
    (hp : p.Sat (Allowed calls) (fun _ _ => True) h)
    (hf : ∀ h a, (f a).Sat (Allowed calls) Q h) : (p >>= f).Sat (Allowed calls) Q h :=
  hp.bind fun h a _ => hf h a

theorem sat_now : now.Sat (Allowed calls) (fun _ _ => True) h :=
  ⟨trivial, fun _ _ => trivial⟩

theorem sat_complete (key : Bytes) (next : RecoveryCommandState) :
    (complete key next).Sat (Allowed calls)
      (fun h' result => ∀ completed, result = .ok completed → ∃ env s,
        h' = ⟨.tx (.completeStabilization key next), env, s⟩ :: h ∧
        ((Transaction.completeStabilization key next).run env.fault env.audit s).1 =
          .ok completed) h :=
  .ite (fun _ => ⟨trivial, fun env s _ hcompleted => ⟨env, s, rfl, hcompleted⟩⟩)
    fun _ _ h => by cases h

theorem sat_completeCommand (commandID : Bytes) (succeeded : Bool) :
    (completeCommand commandID succeeded).Sat (Allowed calls)
      (fun h' result => ∀ command, result = .ok command →
        Completed commandID (if succeeded then .succeeded else .failed) h h') h := by
  refine .ite (fun _ => ?_) fun _ _ h => by cases h
  refine .call_bind trivial fun env s => ?_
  split
  case h_1 => exact fun _ h => by cases h
  case h_2 => exact fun _ h => by cases h
  case h_3 stored hfound =>
    refine .ite (fun hdone _ _ => ?_) fun _ => ?_
    · exact .found stored.key stored.record env s h hfound hdone.1 hdone.2
    · refine .bind (sat_complete _ _) fun h' result hresult => ?_
      cases result with
      | error e => exact fun _ h => by cases h
      | ok completed =>
        obtain ⟨env', s', rfl, hcompleted⟩ := hresult completed rfl
        exact fun _ _ =>
          .stored stored.key stored.record completed env env' s s' h hfound hcompleted

theorem sat_reconcileRecords (records : List StoredRecord) (results : List ReconciliationResult) :
    (reconcileRecords records results).Sat (Allowed calls) (fun _ _ => True) h := by
  induction records generalizing results h with
  | nil => trivial
  | cons stored records ih =>
    refine sat_bind sat_now fun h reading => ?_
    cases reading with
    | error e => trivial
    | ok now =>
      refine Prog.Sat.call_bind trivial fun env s => ?_
      refine Prog.Sat.call_bind trivial fun env' s' => ?_
      split
      case h_1 => trivial
      case h_2 => exact ih _

theorem sat_reconcile : reconcile.Sat (Allowed calls) (fun _ _ => True) h := by
  refine Prog.Sat.call_bind trivial fun env s => ?_
  split
  case h_1 => trivial
  case h_2 => exact sat_reconcileRecords _ _

theorem sat_recordRejected (request : ApprovalDecisionRequest) (reason : Bytes) :
    (recordRejected request reason).Sat (Allowed calls) (fun _ _ => True) h :=
  .ite (fun _ => ⟨trivial, fun _ _ => trivial⟩) fun _ => trivial

theorem sat_approvalNow : approvalNow.Sat (Allowed calls) (fun _ _ => True) h :=
  ⟨trivial, fun _ _ => trivial⟩

theorem sat_decideCommand (request : ApprovalDecisionRequest) :
    (decideCommand request).Sat (Allowed calls) (fun _ _ => True) h := by
  refine .ite (fun _ => ?_) fun _ => ?_
  · refine sat_bind sat_approvalNow fun h reading => ?_
    cases reading with
    | error e => trivial
    | ok now =>
      refine .call_bind trivial fun env s => ?_
      split
      case h_1 => trivial
      case h_2 approvalID hid =>
        refine .ite (fun _ => ?_) fun _ => trivial
        refine .call_bind ⟨env, s, _, hid, rfl⟩ fun env' s' => ?_
        split <;> trivial
  · refine sat_bind (sat_recordRejected request _) fun h result => ?_
    cases result <;> trivial

theorem sat_persist {record : Stabilization.ResultRecord} (hrecorded : Recorded calls record h) :
    (Stabilization.persist record).Sat (Allowed calls) (fun _ _ => True) h := by
  unfold Stabilization.persist
  split
  case h_1 => trivial
  case h_2 => trivial
  case h_3 document hvalid hencode =>
    exact ⟨⟨record, hrecorded, rfl, rfl, hvalid, encode_ok.mp hencode⟩, fun _ _ => trivial⟩

theorem sat_finish {record : Stabilization.ResultRecord} {succeeded : Bool} (err : Option Error)
    (hrecorded : ∀ h', Completed record.commandID (if succeeded then .succeeded else .failed) h h' →
      Recorded calls record h') :
    (Stabilization.finish record succeeded err).Sat (Allowed calls) (fun _ _ => True) h := by
  have hcomplete : (Stabilization.complete record.commandID succeeded).Sat (Allowed calls)
      (fun h' result => result = .ok () → Recorded calls record h') h := by
    refine .bind (sat_completeCommand _ _) fun h' result hresult => ?_
    cases result with
    | error e => exact fun h => by cases h
    | ok command => exact fun _ => hrecorded h' (hresult command rfl)
  refine .bind hcomplete fun h' result hresult => ?_
  cases result with
  | error e => trivial
  | ok _ =>
    refine sat_bind (sat_persist (hresult rfl)) fun h result => ?_
    cases result <;> trivial

section Verify

variable {request : Stabilization.Request} {base : Stabilization.ResultRecord} {now : Time}
  {opened : History} (between : History) (hopened : Opened calls request base now opened)
include hopened

theorem sat_fail (reason : Stabilization.FailureReason) :
    (Stabilization.fail request base now reason).Sat (Allowed calls) (fun _ _ => True)
      (between ++ opened) := by
  refine .ite (fun hattempts => ?_) fun _ => ?_
  · refine .call_bind trivial fun env s => ?_
    split
    case h_1 =>
      exact sat_finish _ fun h' hcompleted =>
        .failed request base now reason _ opened (_ :: between) h' hopened hcompleted
    case h_2 =>
      refine .ite (fun _ => ?_) fun _ => ?_
      · exact sat_finish _ fun h' hcompleted =>
          .retried request base now reason _ opened (_ :: between) h' hopened hattempts hcompleted
      · exact sat_finish _ fun h' hcompleted =>
          .failed request base now reason _ opened (_ :: between) h' hopened hcompleted
  · exact sat_finish _ fun h' hcompleted =>
      .failed request base now reason _ opened between h' hopened hcompleted

theorem sat_observe (deadline : Time) :
    (Stabilization.observe request base now deadline).Sat (Allowed calls) (fun _ _ => True)
      opened := by
  refine .call_bind trivial fun env s => ?_
  have hfail := fun reason => sat_fail [⟨.observe request.target, env, s⟩] hopened reason
  split
  case h_1 => exact hfail _
  case h_2 =>
    refine .ite (fun _ => hfail _) fun _ => ?_
    refine .ite (fun _ => hfail _) fun _ => ?_
    refine .ite (fun _ => hfail _) fun _ => ?_
    refine .ite (fun _ => ?_) fun _ => ?_
    · exact sat_finish _ fun h' hcompleted =>
        .succeeded request base now opened [⟨.observe request.target, env, s⟩] h' hopened hcompleted
    · refine sat_bind (sat_persist (.counted request base now opened env s hopened))
        fun h result => ?_
      cases result <;> trivial

end Verify

theorem sat_load (commandID : Bytes) (attempt : Int64) :
    (Stabilization.load commandID attempt).Sat (Allowed calls)
      (fun h' result => ∀ found, result = .ok found → ∃ env s,
        h' = ⟨.tx (.loadResult commandID attempt), env, s⟩ :: h ∧
        ((Transaction.loadResult commandID attempt).run env.fault env.audit s).1 = .ok found ∧
        ∀ r, found = some r → r.commandID = commandID ∧ r.attempt = attempt) h := by
  refine .call_bind trivial fun env s => ?_
  split
  case h_1 => exact fun _ h => by cases h
  case h_2 hfound =>
    intro found h
    cases h
    exact ⟨env, s, rfl, hfound, fun _ h => by cases h⟩
  case h_3 record hfound =>
    refine .ite (fun _ _ h => by cases h) fun hnamed found h => ?_
    cases h
    refine ⟨env, s, rfl, hfound, fun r h => ?_⟩
    cases h
    rw [not_or, not_not, not_not] at hnamed
    exact hnamed

theorem sat_verify {request : Stabilization.Request} (hcall : Call.verify request ∈ calls) :
    (Stabilization.verify request).Sat (Allowed calls) (fun _ _ => True) h := by
  unfold Stabilization.verify
  split
  case h_1 => trivial
  case h_2 hvalid =>
    refine .bind (Q := fun h' reading => ∀ now, reading = .ok now →
      ∃ env s, env.now = now ∧ h' = ⟨.clock, env, s⟩ :: h) ?_ ?_
    · refine ⟨trivial, fun env s now hnow => ?_⟩
      split at hnow
      case isTrue => cases hnow
      case isFalse => exact ⟨env, s, Except.ok.inj hnow, rfl⟩
    · intro h' reading hreading
      cases reading with
      | error e => trivial
      | ok now =>
        obtain ⟨env, s, rfl, rfl⟩ := hreading now rfl
        refine .bind (sat_load _ _) fun h' loaded hloaded => ?_
        cases loaded with
        | error e => trivial
        | ok found =>
          obtain ⟨env', s', rfl, hfound, hnamed⟩ := hloaded found rfl
          refine .ite (fun _ => trivial) fun hpending => ?_
          have hopened := Opened.intro env env' s s' found h hcall hvalid hfound hnamed
            (not_not.mp hpending)
          refine .ite (fun _ => sat_fail [] hopened _) fun _ => sat_observe hopened _

end Programs

/-! ## Submissions and resumptions -/

section Coordinators

variable {calls : List Call} {h : History} (c : Coordinator)

theorem sat_publish (publication : Publication) (context : String) {Q : History → Prop}
    (hQ : Q h) (hpublished : ∀ env s, Q (⟨.publish publication, env, s⟩ :: h)) :
    (c.publish publication context).Sat (Allowed calls) (fun h' _ => Q h') h := by
  refine .ite (fun _ => ?_) fun _ => hQ
  refine .call_bind trivial fun env s => ?_
  split
  case h_1 => exact hpublished env s
  case h_2 => exact hpublished env s

theorem sat_stateSource (source : StateSource) (command : RecoveryCommand) :
    (source.load command).Sat (Allowed calls)
      (fun h' result => ∀ state, result = .ok state → Loaded command source state h h') h := by
  cases source with
  | direct => exact ⟨trivial, fun env s state hstate => .direct env s state h hstate⟩
  | withApprovals =>
    refine .call_bind trivial fun env s => ?_
    split
    case h_1 => exact fun _ h => by cases h
    case h_2 loaded hloaded =>
      refine .ite (fun hempty => ?_) fun _ => ?_
      · intro state hstate
        cases hstate
        exact .unapproved env s loaded h hloaded hempty
      · refine .bind (Q := fun h' result => ∀ found, result = .ok found → Loaded command
          .withApprovals (attachApproval command loaded found) h h') ?_ ?_
        · refine .ite (fun _ => ⟨trivial, fun env' s' found hfound => ?_⟩) fun _ _ h => by cases h
          exact .approved env env' s s' loaded h found hloaded hfound
        · intro h' result hresult
          cases result with
          | error e => exact fun _ h => by cases h
          | ok found =>
            intro state hstate
            cases hstate
            exact hresult found rfl

theorem sat_revalidate (record : JournalRecord) :
    (c.revalidate record).Sat (Allowed calls)
      (fun h' checked => checked.err = none → checked.expired = false →
        checked.decision.verdict = .allow →
        ∃ state now, Passed c.stateSource record state now h h') h := by
  refine .bind (sat_stateSource c.stateSource record.command) fun h' result hresult => ?_
  cases result with
  | error e => exact fun herr => by cases herr
  | ok state =>
    refine .bind (Q := fun h'' reading => ∀ now, reading = .ok now →
      ∃ env s, env.now = now ∧ h'' = ⟨.clock, env, s⟩ :: h') ?_ ?_
    · refine ⟨trivial, fun env s now hnow => ?_⟩
      split at hnow
      case isTrue => cases hnow
      case isFalse => exact ⟨env, s, Except.ok.inj hnow, rfl⟩
    · intro h'' reading hreading
      cases reading with
      | error e => exact fun herr => by cases herr
      | ok now =>
        obtain ⟨env, s, rfl, rfl⟩ := hreading now rfl
        refine .ite (fun hunexpired _ _ hallow => ?_) fun _ _ hexpired => by cases hexpired
        exact ⟨state, env.now, .intro state env s h h' (hresult state rfl) hunexpired hallow⟩

theorem sat_denyAfterRevalidation (record : JournalRecord) (decision : Policy.Decision)
    (cause : Option Error) :
    (Coordinator.denyAfterRevalidation record decision cause).Sat (Allowed calls)
      (fun _ _ => True) h := by
  refine .call_bind trivial fun env s => ?_
  split <;> trivial

theorem sat_expireCommand (record : JournalRecord) :
    (Coordinator.expireCommand record).Sat (Allowed calls) (fun _ _ => True) h := by
  refine .call_bind trivial fun env s => ?_
  split <;> trivial

theorem sat_whenAllowed (record : JournalRecord)
    {next : Policy.Decision → Time → Prog (Result × Option Error)}
    (hnext : ∀ h' decision reading state now, Passed c.stateSource record state now h h' →
      (next decision reading).Sat (Allowed calls) (fun _ _ => True) h') :
    (c.whenAllowed record next).Sat (Allowed calls) (fun _ _ => True) h := by
  refine .bind (sat_revalidate c record) fun h' checked hchecked => ?_
  cases herr : checked.err with
  | some e => exact sat_denyAfterRevalidation _ _ _
  | none =>
    refine .ite (fun _ => sat_expireCommand record) fun hexpired => ?_
    refine .ite (fun _ => sat_denyAfterRevalidation _ _ _) fun hallow => ?_
    obtain ⟨state, now, hpassed⟩ :=
      hchecked herr (Bool.not_eq_true _ ▸ hexpired) (not_not.mp hallow)
    exact hnext h' _ _ state now hpassed

theorem sat_perform {record : JournalRecord} (decision : Policy.Decision) (now : Time)
    (hrechecked : Rechecked calls record h) :
    (Coordinator.perform record decision now).Sat (Allowed calls) (fun _ _ => True) h := by
  refine .call_bind trivial fun env s => ?_
  split
  case h_1 => trivial
  case h_2 executing hstarted =>
    refine .call_bind ⟨record, executing, env, s, h, rfl, hstarted, rfl, rfl, rfl, hrechecked⟩
      fun env' s' => ?_
    split
    case h_1 =>
      refine .call_bind trivial fun env s => ?_
      split <;> trivial
    case h_2 =>
      refine .call_bind trivial fun env s => ?_
      split <;> trivial

theorem sat_approveAndPerform {record : JournalRecord} (decision : Policy.Decision) (now : Time)
    (hrechecked : Rechecked calls record h) :
    (Coordinator.approveAndPerform record decision now).Sat (Allowed calls)
    (fun _ _ => True) h := by
  refine .ite (fun _ => sat_perform decision now hrechecked) fun _ => ?_
  refine .call_bind trivial fun env s => ?_
  split
  case h_1 => trivial
  case h_2 => exact sat_perform decision now (hrechecked.cons _)

theorem sat_execute {call : Call} (hcall : call ∈ calls) (hcoordinator : call.coordinator = some c)
    {record : JournalRecord} (horigin : Origin record h) :
    (c.execute record).Sat (Allowed calls) (fun _ _ => True) h := by
  refine sat_whenAllowed c record fun checked decision _ first now hfirst => ?_
  refine .call_bind trivial fun env s => ?_
  split
  case h_1 => exact sat_denyAfterRevalidation _ _ _
  case h_2 hvalidated =>
    refine sat_whenAllowed c record fun rechecked decision reading second now' hsecond => ?_
    have hrechecked : Rechecked calls record rechecked :=
      .intro call c first second now now' h checked rechecked [] env s hcall hcoordinator horigin
        hfirst hvalidated hsecond
    refine .bind (sat_publish c _ _ (Q := Rechecked calls record) hrechecked
      fun env s => hrechecked.cons _) fun h' published hpublished => ?_
    cases published with
    | some e => trivial
    | none => exact sat_approveAndPerform decision reading hpublished

theorem verdict_of_prepareRecord_none {request : Request} {commandID : Bytes} {now : Time}
    {decision : Policy.Decision}
    (hprepared : Coordinator.prepareRecord request commandID now = .ok (decision, none)) :
    decision.verdict = .deny := by
  unfold Coordinator.prepareRecord at hprepared
  dsimp only at hprepared
  split at hprepared
  case isTrue hdeny =>
    cases hprepared
    exact hdeny
  case isFalse =>
    split at hprepared
    case h_1 => cases hprepared
    case h_2 =>
      split at hprepared
      case h_1 => cases hprepared
      case h_2 => cases hprepared

theorem persisted_of_new {record persisted : JournalRecord} {env : Environment} {s : Store}
    (h : ((Transaction.persistPending record).run env.fault env.audit s).1 =
      .ok (persisted, false)) : persisted = record := by
  have hbody : persistPending record s = .ok ((persisted, false), _) := Transaction.run_ok h
  obtain ⟨hduplicate, -⟩ | ⟨-, heq, -⟩ := persistPending_ok hbody
  · cases hduplicate
  · exact heq

theorem sat_prepare {request : Request} (now : Time) (hcall : Call.submit c request ∈ calls)
    (hvalid : validateRequest request = .ok ()) (hearlier : ∀ x ∈ h, Preliminary c request x.op) :
    (Coordinator.prepare request now).Sat (Allowed calls)
      (fun h' result => ∀ prepared, result = .ok prepared → prepared.duplicate = false →
        prepared.decision.verdict ≠ .deny → Origin prepared.record h') h := by
  refine .call_bind trivial fun env s => ?_
  split
  case h_1 => exact fun _ h => by cases h
  case h_2 commandID hid =>
    refine .ite (fun htoken => ?_) fun _ _ h => by cases h
    split
    case h_1 => exact fun _ h => by cases h
    case h_2 decision hprepared =>
      intro prepared hok _ hdeny
      cases hok
      exact absurd (verdict_of_prepareRecord_none hprepared) hdeny
    case h_3 decision record hprepared =>
      refine .call_bind ⟨c, request, commandID, now, decision, env, s, h, hcall, htoken, hid,
        hprepared, rfl, hvalid, hearlier⟩ fun env' s' => ?_
      split
      case h_1 => exact fun _ h => by cases h
      case h_2 persisted duplicate hpersisted =>
        intro prepared hok hnew _
        cases hok
        cases hnew
        obtain rfl := persisted_of_new hpersisted
        exact .persisted env' s' _ hpersisted

theorem sat_submitAt {request : Request} (now : Time) (hcall : Call.submit c request ∈ calls)
    (hvalid : validateRequest request = .ok ()) (hearlier : ∀ x ∈ h, Preliminary c request x.op) :
    (c.submitAt request now).Sat (Allowed calls) (fun _ _ => True) h := by
  refine .bind (sat_prepare c now hcall hvalid hearlier) fun h' result hresult => ?_
  cases result with
  | error e => trivial
  | ok prepared =>
    refine .ite (fun _ => ?_) fun hdeny => ?_
    · refine .bind (sat_publish c _ _ (Q := fun _ => True) trivial fun _ _ => trivial)
        fun _ published _ => ?_
      cases published <;> trivial
    · refine .ite (fun _ => ?_) fun _ => ?_
      · refine .bind (sat_publish c _ _ (Q := fun _ => True) trivial fun _ _ => trivial)
          fun _ published _ => ?_
        cases published <;> trivial
      · refine .ite (fun _ => trivial) fun hnew => ?_
        refine .ite (fun _ => trivial) fun _ => ?_
        exact sat_execute c hcall rfl
          (hresult prepared rfl (Bool.not_eq_true _ ▸ hnew) hdeny)

theorem sat_submit {request : Request} (hcall : Call.submit c request ∈ calls) :
    (c.submit request).Sat (Allowed calls) (fun _ _ => True) [] := by
  unfold Coordinator.submit
  split
  case h_1 => trivial
  case h_2 hvalid =>
    have hnow : now.Sat (Allowed calls) (fun h _ => ∀ x ∈ h, x.op = Op.clock) [] :=
      ⟨trivial, fun env s x hx => by rw [List.mem_singleton.mp hx]⟩
    refine .bind hnow fun h reading hclock => ?_
    have hearlier : ∀ x ∈ h, Preliminary c request x.op := by
      intro x hx
      rw [hclock x hx]
      trivial
    cases reading with
    | error e => trivial
    | ok now =>
      refine .ite (fun _ => ?_) fun _ => trivial
      refine .ite (fun _ => sat_submitAt c now hcall hvalid hearlier) fun hanalysis => ?_
      have hnotice : (c.publishAnalysisUnavailable request).Sat (Allowed calls)
          (fun h _ => ∀ x ∈ h, Preliminary c request x.op) h := by
        refine .ite (fun hpublisher => ?_) fun _ => hearlier
        refine .call_bind trivial fun env s => ?_
        have hpublished : ∀ x ∈ (⟨.publish _, env, s⟩ : Occurrence interface) :: h,
            Preliminary c request x.op := by
          intro x hx
          rcases List.mem_cons.mp hx with rfl | hx
          · exact ⟨hpublisher, Bool.not_eq_true _ ▸ hanalysis⟩
          · exact hearlier x hx
        split
        case h_1 => exact hpublished
        case h_2 => exact hpublished
      refine .bind hnotice fun h published hearlier => ?_
      cases published with
      | some e => trivial
      | none => exact sat_submitAt c now hcall hvalid hearlier

theorem sat_resume {commandID : Bytes} (hcall : Call.resume c commandID ∈ calls) :
    (c.resume commandID).Sat (Allowed calls) (fun _ _ => True) h := by
  refine .ite (fun _ => ?_) fun _ => trivial
  refine .call_bind trivial fun env s => ?_
  split
  case h_1 => trivial
  case h_2 => trivial
  case h_3 stored hfound =>
    refine .ite (fun _ => ?_) fun _ => trivial
    refine .ite (fun _ => trivial) fun _ => ?_
    exact sat_execute c hcall rfl (.found commandID stored.key env s h hfound)

end Coordinators

theorem sat_program {calls : List Call} {call : Call} (hcall : call ∈ calls) :
    (program call).Sat (Allowed calls) (fun _ _ => True) [] := by
  cases call with
  | submit c request => exact sat_bind (sat_submit c hcall) fun _ _ => trivial
  | resume c commandID => exact sat_bind (sat_resume c hcall) fun _ _ => trivial
  | reconcile => exact sat_bind sat_reconcile fun _ _ => trivial
  | completeStabilization commandID succeeded =>
    exact (sat_completeCommand commandID succeeded).bind fun _ _ _ => trivial
  | decide request => exact sat_bind (sat_decideCommand request) fun _ _ => trivial
  | verify request => exact sat_bind (sat_verify hcall) fun _ _ => trivial

end PulseAgent.Recovery
