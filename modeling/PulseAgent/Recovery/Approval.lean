import PulseAgent.Recovery.Scan
import PulseAgent.Audit.Chain

/-!
# Local approval decisions

`decideApproval` is the transaction of `ApprovalManager.Decide`. A refused attempt is audited too,
and commits without a decision.
-/

namespace PulseAgent.Recovery

open Go Go.Json Contract

def approvalRecordPrefix : Bytes := lit "record/"
def approvalCommandPrefix : Bytes := lit "command/"

def maxApprovalReasonLength : Nat := 96

def approvalAuditAggregateType : Bytes := lit "recovery_approval"
def approvalAuditAction : Bytes := lit "approval.decide"
def approvalAuditAccepted : Bytes := lit "accepted"
def approvalAuditRejected : Bytes := lit "rejected"
def approvalAuditInvalid : Bytes := lit "invalid_approval"
def approvalAuditNotFound : Bytes := lit "command_not_found"
def approvalAuditConflict : Bytes := lit "decision_conflict"
def approvalAuditExpired : Bytes := lit "command_expired"

def errInvalidApprovalOptions : Error := .new "invalid approval manager options"
def errInvalidApprovalDecision : Error := .new "invalid approval decision"
def errApprovalCommandNotFound : Error := .new "approval command not found"
def errApprovalConflict : Error := .new "approval decision conflict"
def errApprovalCommandExpired : Error := .new "approval command expired"

structure ApprovalDecisionRequest where
  commandID : Bytes
  decision : ApprovalDecision
  actorIdentity : Bytes
  requestID : Bytes
  reasonCode : Bytes
  expiresAt : Time

structure ApprovalDecisionResult where
  approval : Approval
  command : RecoveryCommand

def approvalRecordKey (approvalID : Bytes) : Bytes := approvalRecordPrefix ++ approvalID

def approvalCommandKey (commandID : Bytes) : Bytes := approvalCommandPrefix ++ commandID

def approvalAggregateID (commandID : Bytes) : Bytes :=
  lit "command-" ++ Hex.encode (Sha256.sum256 commandID)

/-- Every rune outside this set of ASCII characters, so every byte outside it, is refused. -/
def reasonCharacter (b : UInt8) : Bool :=
  (97 ≤ b && b ≤ 122) || (65 ≤ b && b ≤ 90) || (48 ≤ b && b ≤ 57) || (lit "._-:/@").contains b

def validApprovalReason (value : Bytes) : Bool :=
  value ≠ [] && value.length ≤ maxApprovalReasonLength && value.all reasonCharacter

def validAuditRequest (request : ApprovalDecisionRequest) : Bool :=
  validToken request.commandID maxCommandIDLength &&
    validToken request.actorIdentity maxCommandIDLength &&
    validToken request.requestID maxCommandIDLength && validApprovalReason request.reasonCode

def validApprovalDecisionRequest (request : ApprovalDecisionRequest) : Bool :=
  validAuditRequest request && (request.decision = .granted || request.decision = .denied) &&
    !request.expiresAt.isZero

def validateApproval (approval : Approval) : Except Error Unit :=
  if approval.schemaVersion = schemaVersionV1 &&
    validToken approval.approvalID maxCommandIDLength &&
      validToken approval.commandID maxCommandIDLength &&
      (approval.decision = .granted || approval.decision = .denied) &&
      validToken approval.approverIdentity maxCommandIDLength &&
      validApprovalReason approval.reason && !approval.createdAt.isZero &&
      !approval.expiresAt.isZero && approval.createdAt < approval.expiresAt then .ok ()
  else .error errInvalidApprovalDecision

/-! ## The audited transaction -/

/-- What a transaction obtains from the manager's generator and clock for its audit event. -/
structure AuditInputs where
  eventID : Except Error Bytes
  now : Time

def auditEventID (inputs : AuditInputs) : Except Error Bytes :=
  match inputs.eventID with
  | .ok eventID =>
    if validToken eventID maxCommandIDLength then .ok eventID else .error errInvalidApprovalOptions
  | .error _ => .error errInvalidApprovalOptions

def appendAudit (inputs : AuditInputs) (request : ApprovalDecisionRequest) (result reason : Bytes)
    (mutation : Option Audit.Mutation) : Tx Unit := do
  let eventID ← Tx.liftExcept (auditEventID inputs)
  Tx.require (inputs.now.isZero = false) errInvalidApprovalOptions
  let _ ← Audit.append
    { schemaVersion := schemaVersionV1
      eventID := eventID
      aggregateType := approvalAuditAggregateType
      aggregateID := approvalAggregateID request.commandID
      actorIdentity := request.actorIdentity
      action := approvalAuditAction
      result := result
      reasonCode := reason
      occurredAt := inputs.now } mutation
  pure ()

/-- A write after which the callback goes on only if it succeeded. -/
def putThen (bucket : Bucket) (key value : Bytes) (next : TxProg Unit) : TxProg Unit :=
  .put bucket key value fun
    | .ok _ => next
    | .error e => .ret (.error e)

/-- `putRecord` as part of a transaction callback. -/
def putRecordProg (key : Bytes) (record : JournalRecord) : TxProg Unit :=
  if recordKey record.command = key ∧ (validateRecord record).isOk then
    match encode JournalRecord.codec "encode recovery command: " record with
    | .ok document => putThen .commandJournal key document (.ret (.ok ()))
    | .error e => .ret (.error e)
  else .ret (.error errCorruptJournal)

/-- Audits a refused attempt and leaves its error to the caller. -/
def rejectDecision (inputs : AuditInputs) (request : ApprovalDecisionRequest) (reason : Bytes)
    (mutation : Option Audit.Mutation) (e : Error) : Tx (Except Error ApprovalDecisionResult) := do
  appendAudit inputs request approvalAuditRejected reason mutation
  pure (.error e)

def newApproval (request : ApprovalDecisionRequest) (record : JournalRecord) (approvalID : Bytes)
    (now : Time) : Approval where
  schemaVersion := schemaVersionV1
  approvalID := approvalID
  commandID := record.command.commandID
  decision := request.decision
  approverIdentity := request.actorIdentity
  reason := request.reasonCode
  createdAt := now
  expiresAt := request.expiresAt

def acceptDecision (inputs : AuditInputs) (request : ApprovalDecisionRequest)
    (stored : StoredRecord) (approval : Approval) : Tx (Except Error ApprovalDecisionResult) := do
  Tx.require (validateApproval approval).isOk errInvalidApprovalDecision
  let record := { stored.record with
    command := { stored.record.command with approvalID := approval.approvalID } }
  let record ← Tx.liftExcept
    (if approval.decision = .denied then transitionToDenied record else .ok record)
  let document ← Tx.liftExcept (encode Approval.codec "encode approval: " approval)
  appendAudit inputs request approvalAuditAccepted request.reasonCode
    (some (putThen .approvals (approvalRecordKey approval.approvalID) document
      (putThen .approvals (approvalCommandKey approval.commandID) approval.approvalID
        (putRecordProg stored.key record))))
  pure (.ok ⟨approval, record.command⟩)

def decideApproval (request : ApprovalDecisionRequest) (approvalID : Bytes) (now : Time)
    (inputs : AuditInputs) : Tx (Except Error ApprovalDecisionResult) := do
  match ← findRecordByCommandID request.commandID with
  | none => rejectDecision inputs request approvalAuditNotFound none errApprovalCommandNotFound
  | some stored =>
    let record := stored.record
    if record.phase ≠ .awaitingApproval || record.command.state ≠ .pending ||
        record.command.approvalID ≠ [] then
      rejectDecision inputs request approvalAuditConflict none errApprovalConflict
    else if !(now < record.command.expiresAt) || !(now < request.expiresAt) then
      let expired ← Tx.liftExcept (transitionToExpired record)
      rejectDecision inputs request approvalAuditExpired (some (putRecordProg stored.key expired))
        errApprovalCommandExpired
    else if record.command.expiresAt < request.expiresAt then
      rejectDecision inputs request approvalAuditInvalid none errInvalidApprovalDecision
    else
      match ← Tx.get .approvals (approvalRecordKey approvalID) with
      | some _ => throw errInvalidApprovalOptions
      | none =>
        match ← Tx.get .approvals (approvalCommandKey request.commandID) with
        | some _ => rejectDecision inputs request approvalAuditConflict none errApprovalConflict
        | none => acceptDecision inputs request stored (newApproval request record approvalID now)

/-- The transaction of `recordRejected`. -/
def auditRejected (request : ApprovalDecisionRequest) (reason : Bytes) (inputs : AuditInputs) :
    Tx Unit :=
  appendAudit inputs request approvalAuditRejected reason none

/-! ## Reading a decision -/

def checkedApproval (commandID approvalID document : Bytes) : Except Error Approval :=
  match decode Approval.codec ⟨maxDocumentBytes, schemaVersionV1, validateApproval⟩ document with
  | .error _ => .error errCorruptJournal
  | .ok decoded =>
    if decoded.commandID = commandID ∧ decoded.approvalID = approvalID then .ok decoded
    else .error errCorruptJournal

def loadApproval (commandID : Bytes) : Tx (Option Approval) := do
  match ← Tx.get .approvals (approvalCommandKey commandID) with
  | none => pure none
  | some approvalID =>
    match ← Tx.get .approvals (approvalRecordKey approvalID) with
    | none => throw errCorruptJournal
    | some document => some <$> Tx.liftExcept (checkedApproval commandID approvalID document)

end PulseAgent.Recovery
