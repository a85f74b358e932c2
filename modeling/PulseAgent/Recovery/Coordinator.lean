import PulseAgent.Recovery.Interface

/-!
# The coordinator and the approval manager

Every store transaction, clock reading, state load and adapter call is one call of the program, with
other calls possibly in between. Where a Go method returns a result beside an error, the program
returns both.
-/

namespace PulseAgent.Recovery

open Go Contract

/-- The state source a coordinator was built with: the daemon's own, or `ApprovalStateSource`
around it. -/
inductive StateSource where
  | direct
  | withApprovals

structure Coordinator where
  stateSource : StateSource
  /-- Whether a lifecycle publisher is configured. -/
  publisher : Bool

structure Request where
  incidentID : Bytes
  target : ServiceTarget
  policySnapshot : Policy.Snapshot
  policyInput : Policy.Input
  expiresAt : Time
  idempotencyKey : Bytes

/-- `unset` is the empty outcome of a zero result. -/
inductive Outcome where
  | unset
  | stabilizing
  | denied
  | expired
  | awaitApproval
  | duplicate
  | verifyAndNotify
deriving DecidableEq

structure Result where
  command : RecoveryCommand := {}
  outcome : Outcome := .unset
  decision : Policy.Decision := {}
  duplicate : Bool := false

structure ReconciliationResult where
  command : RecoveryCommand
  outcome : Outcome
  verified : Bool
  snapshot : Docker.Snapshot

/-! ## Checks -/

def validateRequest (request : Request) : Except Error Unit :=
  let input := request.policyInput
  if validToken request.incidentID maxCommandIDLength &&
      validToken request.idempotencyKey maxIdempotencyKeyLength &&
      validToken input.runbookID maxCommandIDLength &&
      validToken input.runbookDigest maxIdempotencyKeyLength &&
      validToken input.targetID maxCommandIDLength && 0 ≤ input.actionIndex &&
      input.commandID = [] && !request.expiresAt.isZero &&
      validTarget request.target input.targetID then .ok ()
  else .error errInvalidRequest

/-- An empty slice of rules is copied to a nil one. -/
def cloneTarget (target : ServiceTarget) : ServiceTarget :=
  { target with
    probeRules := if elems target.probeRules = [] then none else target.probeRules }

def sameExecutionTarget (current recorded : ServiceTarget) : Bool :=
  current.schemaVersion = recorded.schemaVersion && current.targetID = recorded.targetID &&
    current.adapterType = recorded.adapterType && current.selector = recorded.selector &&
    current.enabled = recorded.enabled

def policyInput (input : Policy.Input) (commandID : Bytes) (now : Time) : Policy.Input :=
  { input with commandID := commandID, now := now }

def registeredRunbook (snapshot : Policy.Snapshot) (runbookID : Bytes) :
    Option Policy.RegisteredRunbook :=
  snapshot.runbooks.find? fun registered => registered.runbook.runbookID == runbookID

def registeredAction (registered : Policy.RegisteredRunbook) (index : Int64) : Option TypedAction :=
  if index < 0 then none else (elems registered.runbook.typedActions)[index.toInt.toNat]?

def invalidPolicy : Policy.Decision := ⟨.deny, .invalidPolicy⟩

def revalidateState (state : ExecutionState) (record : JournalRecord) (now : Time) :
    Policy.Decision :=
  let command := record.command
  let input := state.policyInput
  if input.runbookID ≠ command.runbookID || input.runbookDigest ≠ command.runbookDigest ||
      input.targetID ≠ command.targetID || input.actionIndex ≠ command.actionIndex ||
      !sameExecutionTarget state.target record.target then invalidPolicy
  else
    match registeredRunbook state.policySnapshot command.runbookID with
    | none => invalidPolicy
    | some registered =>
      if registeredAction registered command.actionIndex ≠ some record.action then invalidPolicy
      else Policy.evaluate state.policySnapshot (policyInput input command.commandID now)

def existingOutcome (record : JournalRecord) : Outcome :=
  if record.phase = .awaitingApproval then .awaitApproval
  else if record.phase = .verifyAndNotify then .verifyAndNotify
  else if record.phase = .stabilizing then .stabilizing
  else .duplicate

/-! ## State sources -/

def now : Prog (Except Error Time) := do
  let t ← call .clock
  pure (if Time.isZero t then .error errInvalidOptions else .ok t)

/-- `ApprovalManager.LoadApproval`. -/
def loadApprovalOf (commandID : Bytes) : Prog (Except Error (Option Approval)) :=
  if validToken commandID maxCommandIDLength then commit (.loadApproval commandID)
  else pure (.error errInvalidApprovalDecision)

/-- A missing or mismatched approval counts as revoked. -/
def attachApproval (command : RecoveryCommand) (state : ExecutionState) (found : Option Approval) :
    ExecutionState :=
  match found with
  | some approval =>
    if approval.approvalID = command.approvalID ∧ approval.commandID = command.commandID then
      { state with policyInput := { state.policyInput with approval := some approval } }
    else
      { state with
        policyInput := { state.policyInput with approval := some {}, approvalRevoked := true } }
  | none =>
    { state with
      policyInput := { state.policyInput with approval := some {}, approvalRevoked := true } }

/-- `ApprovalStateSource.Load`. -/
def loadWithApproval (command : RecoveryCommand) : Prog (Except Error ExecutionState) := do
  match ← call (.load command) with
  | .error e => pure (.error e)
  | .ok state =>
    if command.approvalID = [] then pure (.ok state)
    else
      match ← loadApprovalOf command.commandID with
      | .error e => pure (.error e)
      | .ok found => pure (.ok (attachApproval command state found))

def StateSource.load (source : StateSource) (command : RecoveryCommand) :
    Prog (Except Error ExecutionState) :=
  match source with
  | .direct => call (.load command)
  | .withApprovals => loadWithApproval command

/-! ## Execution -/

def finish (key : Bytes) (next : RecoveryCommandState) : Prog (Except Error JournalRecord) :=
  if next = .stabilizing ∨ next = .failed then commit (.finishExecution key next)
  else pure (.error errInvalidRequest)

def complete (key : Bytes) (next : RecoveryCommandState) : Prog (Except Error JournalRecord) :=
  if next = .succeeded ∨ next = .failed then commit (.completeStabilization key next)
  else pure (.error errInvalidRequest)

structure Revalidation where
  decision : Policy.Decision := {}
  now : Time := 0
  expired : Bool := false
  err : Option Error := none

namespace Coordinator

variable (c : Coordinator)

def publish (publication : Publication) (context : String) : Prog (Option Error) :=
  if c.publisher then do
    match ← call (.publish publication) with
    | .ok _ => pure none
    | .error e => pure (some (.wrap context e ""))
  else pure none

def publishAnalysisUnavailable (request : Request) : Prog (Option Error) :=
  c.publish (.analysisUnavailable request.incidentID request.idempotencyKey
    (lit "analysis_unavailable")) "publish analysis unavailable: "

def publishPolicyDenied (request : Request) (decision : Policy.Decision) : Prog (Option Error) :=
  c.publish (.policyDenied request.incidentID request.idempotencyKey decision.reasonCode.text)
    "publish policy denied: "

def publishApprovalRequested (command : RecoveryCommand) : Prog (Option Error) :=
  c.publish (.approvalRequested command) "publish approval requested: "

def publishRecoveryStarted (command : RecoveryCommand) : Prog (Option Error) :=
  c.publish (.recoveryStarted command) "publish recovery started: "

def revalidate (record : JournalRecord) : Prog Revalidation := do
  match ← c.stateSource.load record.command with
  | .error e =>
    pure { decision := invalidPolicy, err := some (.wrap "load current recovery state: " e "") }
  | .ok state =>
    match ← now with
    | .error e => pure { err := some e }
    | .ok now =>
      if now < record.command.expiresAt then
        pure { decision := revalidateState state record now, now := now }
      else pure { now := now, expired := true }

def denyAfterRevalidation (record : JournalRecord) (decision : Policy.Decision)
    (cause : Option Error) : Prog (Result × Option Error) := do
  match ← commit (.deny (recordKey record.command)) with
  | .error e => pure ({}, some e)
  | .ok updated =>
    pure ({ command := updated.command, outcome := .denied, decision := decision }, cause)

def expireCommand (record : JournalRecord) : Prog (Result × Option Error) := do
  match ← commit (.expire (recordKey record.command)) with
  | .error e => pure ({}, some e)
  | .ok updated => pure ({ command := updated.command, outcome := .expired }, none)

/-- Goes on with `next` only after a revalidation that allows the action. -/
def whenAllowed (record : JournalRecord)
    (next : Policy.Decision → Time → Prog (Result × Option Error)) :
    Prog (Result × Option Error) := do
  let checked ← c.revalidate record
  match checked.err with
  | some e => denyAfterRevalidation record checked.decision (some e)
  | none =>
    if checked.expired then expireCommand record
    else if checked.decision.verdict ≠ .allow then
      denyAfterRevalidation record checked.decision none
    else next checked.decision checked.now

/-- The part of `execute` after the last check: the effect and its outcome. -/
def perform (record : JournalRecord) (decision : Policy.Decision) (now : Time) :
    Prog (Result × Option Error) := do
  match ← commit (.startExecution (recordKey record.command)) with
  | .error e => pure ({}, some e)
  | .ok executing =>
    match ← call (.execute executing.command executing.target executing.action) with
    | .error e =>
      match ← commit (.markVerifyAndNotify (recordKey record.command) {} false now) with
      | .error updateErr => pure ({}, some updateErr)
      | .ok uncertain =>
        pure ({ command := uncertain.command, outcome := .verifyAndNotify, decision := decision },
          some (.wrap "execute recovery action: " e ""))
    | .ok _ =>
      match ← finish (recordKey record.command) .stabilizing with
      | .error e => pure ({}, some e)
      | .ok stabilizing =>
        pure ({ command := stabilizing.command, outcome := .stabilizing, decision := decision },
          none)

def approveAndPerform (record : JournalRecord) (decision : Policy.Decision) (now : Time) :
    Prog (Result × Option Error) := do
  if record.phase = .approved then perform record decision now
  else
    match ← commit (.approve (recordKey record.command)) with
    | .error e => pure ({}, some e)
    | .ok _ => perform record decision now

def execute (record : JournalRecord) : Prog (Result × Option Error) :=
  c.whenAllowed record fun decision _ => do
    match ← call (.validateAction record.target record.action) with
    | .error e =>
      denyAfterRevalidation record decision (some (.wrap "validate recovery action: " e ""))
    | .ok _ =>
      c.whenAllowed record fun decision now => do
        match ← c.publishRecoveryStarted record.command with
        | some e =>
          pure ({ command := record.command, decision := decision },
            some (.wrap "publish recovery started: " e ""))
        | none => approveAndPerform record decision now

/-! ## Requests -/

structure Prepared where
  record : JournalRecord := {}
  duplicate : Bool := false
  decision : Policy.Decision := {}

def pendingRecord (request : Request) (commandID : Bytes) (now : Time)
    (registered : Policy.RegisteredRunbook) (action : TypedAction) (decision : Policy.Decision) :
    JournalRecord :=
  let input := request.policyInput
  { schemaVersion := schemaVersionV1
    command :=
      { schemaVersion := schemaVersionV1
        commandID := commandID
        incidentID := request.incidentID
        runbookID := input.runbookID
        runbookDigest := input.runbookDigest
        targetID := request.target.targetID
        actionIndex := input.actionIndex
        riskTier := registered.runbook.riskTier
        approvalID := match input.approval with | some approval => approval.approvalID | none => []
        issuedAt := now
        expiresAt := request.expiresAt
        idempotencyKey := request.idempotencyKey
        state := .pending }
    target := cloneTarget request.target
    action := action
    phase := if decision.verdict = .awaitApproval then .awaitingApproval else .pending }

/-- What `prepare` makes of a request before it touches the journal: the decision, and unless
that is a denial the record to persist. -/
def prepareRecord (request : Request) (commandID : Bytes) (now : Time) :
    Except Error (Policy.Decision × Option JournalRecord) :=
  let input := policyInput request.policyInput commandID now
  let decision := Policy.evaluate request.policySnapshot input
  if decision.verdict = .deny then .ok (decision, none)
  else
    match registeredRunbook request.policySnapshot input.runbookID with
    | none => .error errInvalidRequest
    | some registered =>
      match registeredAction registered input.actionIndex with
      | none => .error errInvalidRequest
      | some action =>
        .ok (decision, some (pendingRecord request commandID now registered action decision))

def prepare (request : Request) (now : Time) : Prog (Except Error Prepared) := do
  match ← call .newCommandID with
  | .error e => pure (.error (.wrap "create recovery command ID: " e ""))
  | .ok commandID =>
    if validToken commandID maxCommandIDLength then
      match prepareRecord request commandID now with
      | .error e => pure (.error e)
      | .ok (decision, none) => pure (.ok { decision := decision })
      | .ok (decision, some record) =>
        match ← commit (.persistPending record) with
        | .error e => pure (.error e)
        | .ok (persisted, duplicate) =>
          pure (.ok { record := persisted, duplicate := duplicate, decision := decision })
    else pure (.error errInvalidOptions)

def submitAt (request : Request) (now : Time) : Prog (Result × Option Error) := do
  match ← prepare request now with
  | .error e => pure ({}, some e)
  | .ok prepared =>
    let command := prepared.record.command
    if prepared.decision.verdict = .deny then
      match ← c.publishPolicyDenied request prepared.decision with
      | some e => pure ({}, some e)
      | none => pure ({ outcome := .denied, decision := prepared.decision }, none)
    else if prepared.decision.verdict = .awaitApproval then
      match ← c.publishApprovalRequested command with
      | some e => pure ({}, some e)
      | none =>
        pure ({ command := command
                outcome := if prepared.duplicate then existingOutcome prepared.record
                  else .awaitApproval
                decision := prepared.decision
                duplicate := prepared.duplicate }, none)
    else if prepared.duplicate then
      pure ({ command := command, outcome := existingOutcome prepared.record
              decision := prepared.decision, duplicate := true }, none)
    else if prepared.decision.verdict ≠ .allow then pure ({}, some errInvalidRequest)
    else c.execute prepared.record

def submit (request : Request) : Prog (Result × Option Error) := do
  match validateRequest request with
  | .error e => pure ({}, some e)
  | .ok _ =>
    match ← now with
    | .error e => pure ({}, some e)
    | .ok now =>
      if now < request.expiresAt then
        if request.policyInput.analysisAvailable then c.submitAt request now
        else
          match ← c.publishAnalysisUnavailable request with
          | some e => pure ({}, some e)
          | none => c.submitAt request now
      else pure ({ outcome := .expired }, none)

def resume (commandID : Bytes) : Prog (Result × Option Error) :=
  if validToken commandID maxCommandIDLength then do
    match ← commit (.findRecord commandID) with
    | .error e => pure ({}, some e)
    | .ok none => pure ({}, some errInvalidRequest)
    | .ok (some stored) =>
      let record := stored.record
      if record.phase = .awaitingApproval ∧ record.command.state = .pending then
        if record.command.approvalID = [] then
          pure ({ command := record.command, outcome := .awaitApproval }, none)
        else c.execute record
      else
        pure ({ command := record.command, outcome := existingOutcome record, duplicate := true },
          none)
  else pure ({}, some errInvalidRequest)

end Coordinator

/-! ## Reconciliation and completion -/

def verifiedSnapshot (command : RecoveryCommand) (observed : Except Error Docker.Snapshot) :
    Option Docker.Snapshot :=
  match observed with
  | .ok snapshot => if snapshot.targetID = command.targetID then some snapshot else none
  | .error _ => none

/-- `updated` always carries the reconciliation that `markVerifyAndNotify` stored. -/
def reconciliationResult (updated : JournalRecord) : ReconciliationResult :=
  let reconciliation := updated.reconciliation.getD {}
  { command := updated.command, outcome := .verifyAndNotify, verified := reconciliation.verified
    snapshot := if reconciliation.verified then reconciliation.snapshot else {} }

def reconcileRecords : List StoredRecord → List ReconciliationResult →
    Prog (Except Error (List ReconciliationResult))
  | [], results => pure (.ok results)
  | stored :: records, results => do
    match ← now with
    | .error e => pure (.error e)
    | .ok now =>
      let observed ← call (.verify stored.record.target)
      let snapshot := verifiedSnapshot stored.record.command observed
      match ← commit (.markVerifyAndNotify stored.key (snapshot.getD {}) snapshot.isSome now) with
      | .error e => pure (.error e)
      | .ok updated => reconcileRecords records (results ++ [reconciliationResult updated])

def reconcile : Prog (Except Error (List ReconciliationResult)) := do
  match ← commit .reconcilableRecords with
  | .error e => pure (.error e)
  | .ok records => reconcileRecords records []

/-- `Coordinator.CompleteStabilization`. -/
def completeCommand (commandID : Bytes) (succeeded : Bool) :
    Prog (Except Error RecoveryCommand) :=
  if validToken commandID maxCommandIDLength then do
    match ← commit (.findRecord commandID) with
    | .error e => pure (.error e)
    | .ok none => pure (.error errInvalidRequest)
    | .ok (some stored) =>
      let next : RecoveryCommandState := if succeeded then .succeeded else .failed
      if stored.record.phase = .completed ∧ stored.record.command.state = next then
        pure (.ok stored.record.command)
      else
        match ← complete stored.key next with
        | .error e => pure (.error e)
        | .ok completed => pure (.ok completed.command)
  else pure (.error errInvalidRequest)

/-! ## The approval manager -/

def approvalNow : Prog (Except Error Time) := do
  let t ← call .clock
  pure (if Time.isZero t then .error errInvalidApprovalOptions else .ok t)

def recordRejected (request : ApprovalDecisionRequest) (reason : Bytes) :
    Prog (Except Error Unit) :=
  if validAuditRequest request then commit (.recordRejected request reason) else pure (.ok ())

/-- `ApprovalManager.Decide`. -/
def decideCommand (request : ApprovalDecisionRequest) :
    Prog (Except Error ApprovalDecisionResult) := do
  if validApprovalDecisionRequest request then
    match ← approvalNow with
    | .error e => pure (.error e)
    | .ok now =>
      match ← call .newApprovalID with
      | .error _ => pure (.error errInvalidApprovalOptions)
      | .ok approvalID =>
        if validToken approvalID maxCommandIDLength then
          match ← commit (.decide request approvalID now) with
          | .error e => pure (.error e)
          | .ok result => pure result
        else pure (.error errInvalidApprovalOptions)
  else
    match ← recordRejected request approvalAuditInvalid with
    | .error e => pure (.error e)
    | .ok _ => pure (.error errInvalidApprovalDecision)

end PulseAgent.Recovery
