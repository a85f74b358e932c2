import PulseAgent.Contract.Decode
import PulseAgent.Go.Sha256

/-!
# Records of the command journal

A record is stored under a digest of the command's effect: incident, runbook, digest, target and
action index.
-/

namespace PulseAgent

open Go Go.Json Contract

namespace Docker

def adapterType : Bytes := lit "docker"

structure Snapshot where
  targetID : Bytes := []
  running : Bool := false
  healthy : Bool := false
deriving DecidableEq

def Snapshot.fields : List (Member Snapshot) :=
  [.of (lit "TargetID") .string (·.targetID) fun x s => { s with targetID := x },
   .of (lit "Running") .bool (·.running) fun x s => { s with running := x },
   .of (lit "Healthy") .bool (·.healthy) fun x s => { s with healthy := x }]

def Snapshot.codec : Codec Snapshot :=
  .struct Snapshot.fields {} (by decide +kernel) (by decide +kernel) fun _ => by
    repeat' constructor

end Docker

namespace Recovery

def maxCommandIDLength : Nat := 128
def maxIdempotencyKeyLength : Nat := 256
def maxJournalDocumentBytes : Nat := 128 * 1024

def errInvalidOptions : Error := .new "invalid recovery coordinator options"
def errInvalidRequest : Error := .new "invalid recovery request"
def errCorruptJournal : Error := .new "corrupt recovery journal"
def errIdempotencyConflict : Error := .new "recovery idempotency conflict"
def errCommandNotExecutable : Error := .new "recovery command is not executable"

def JournalPhase.names : List Bytes :=
  [lit "pending", lit "awaiting_approval", lit "approved", lit "executing", lit "stabilizing",
    lit "completed", lit "verify_and_notify"]

inductive JournalPhase where
  | pending
  | awaitingApproval
  | approved
  | executing
  | stabilizing
  | completed
  | verifyAndNotify
  | other (text : Bytes) (unnamed : text ∉ JournalPhase.names)
deriving DecidableEq

namespace JournalPhase

def unset : JournalPhase := other [] (by decide)

def text : JournalPhase → Bytes
  | pending => lit "pending"
  | awaitingApproval => lit "awaiting_approval"
  | approved => lit "approved"
  | executing => lit "executing"
  | stabilizing => lit "stabilizing"
  | completed => lit "completed"
  | verifyAndNotify => lit "verify_and_notify"
  | other s _ => s

def ofText : Bytes → JournalPhase :=
  ofTable [(pending.text, pending), (awaitingApproval.text, awaitingApproval),
    (approved.text, approved), (executing.text, executing), (stabilizing.text, stabilizing),
    (completed.text, completed), (verifyAndNotify.text, verifyAndNotify)] fun s h => other s h

theorem text_ofText (s : Bytes) : text (ofText s) = s :=
  text_ofTable (by simp) (fun _ _ => rfl) s

def codec : Codec JournalPhase := .named text ofText

end JournalPhase

structure Reconciliation where
  observedAt : Time := 0
  verified : Bool := false
  snapshot : Docker.Snapshot := {}
deriving DecidableEq

def Reconciliation.fields : List (Member Reconciliation) :=
  [.of (lit "observed_at") .time (·.observedAt) fun x s => { s with observedAt := x },
   .of (lit "verified") .bool (·.verified) fun x s => { s with verified := x },
   .of (lit "snapshot") Docker.Snapshot.codec (·.snapshot) fun x s => { s with snapshot := x }]

def Reconciliation.codec : Codec Reconciliation :=
  .struct Reconciliation.fields {} (by decide +kernel) (by decide +kernel) fun _ => by
    repeat' constructor

structure JournalRecord where
  schemaVersion : Bytes := []
  command : RecoveryCommand := {}
  target : ServiceTarget := {}
  action : TypedAction := {}
  phase : JournalPhase := .unset
  reconciliation : Option Reconciliation := none
deriving DecidableEq

def JournalRecord.fields : List (Member JournalRecord) :=
  [.of (lit "schema_version") .string (·.schemaVersion) fun x s => { s with schemaVersion := x },
   .of (lit "command") RecoveryCommand.codec (·.command) fun x s => { s with command := x },
   .of (lit "target") ServiceTarget.codec (·.target) fun x s => { s with target := x },
   .of (lit "action") TypedAction.codec (·.action) fun x s => { s with action := x },
   .of (lit "phase") JournalPhase.codec (·.phase) fun x s => { s with phase := x },
   .omitEmpty (lit "reconciliation") (.pointer Reconciliation.codec Codec.struct_ne_null)
     (·.reconciliation) (fun x s => { s with reconciliation := x }) Option.isNone
     (fun _ h => by rw [Option.isNone_iff_eq_none.mp h]; rfl) (fun _ => rfl)]

def JournalRecord.codec : Codec JournalRecord :=
  .struct JournalRecord.fields {} (by decide +kernel) (by decide +kernel) fun _ => by
    repeat' constructor

def journalDocument : Document JournalRecord where
  codec := JournalRecord.codec
  version := JournalRecord.schemaVersion
  header := header_of_members (by decide +kernel)

/-! ## Keys -/

def journalRecordPrefix : Bytes := lit "command/"
def idempotencyIndexPrefix : Bytes := lit "idempotency/"

def stableKey (keyPrefix : Bytes) (values : List Bytes) : Bytes :=
  keyPrefix ++ Hex.encode (Sha256.sum256 (Strings.join [0] values ++ [0]))

def recordKey (command : RecoveryCommand) : Bytes :=
  stableKey journalRecordPrefix [command.incidentID, command.runbookID, command.runbookDigest,
    command.targetID, Decimal.formatInt command.actionIndex.toInt]

def idempotencyIndexKey (idempotencyKey : Bytes) : Bytes :=
  stableKey idempotencyIndexPrefix [idempotencyKey]

/-! ## Validation -/

def validToken (value : Bytes) (limit : Nat) : Bool :=
  value ≠ [] && value.length ≤ limit && Strings.trimSpace value = value && !value.contains 0

def validRecordPhase : JournalPhase → RecoveryCommandState → Bool
  | .pending, state | .awaitingApproval, state => state = .pending
  | .approved, state => state = .approved
  | .executing, state => state = .executing
  | .stabilizing, state => state = .stabilizing
  | .completed, state =>
    state = .succeeded || state = .failed || state = .denied || state = .expired
  | .verifyAndNotify, state => state = .pending || state = .approved || state = .executing
  | .other .., _ => false

def validRiskTier (risk : RiskTier) : Bool := risk = .low || risk = .medium || risk = .high

def validAction (action : TypedAction) (selector : Bytes) : Bool :=
  action.targetSelector = selector && 0 < action.stopTimeout && 0 ≤ action.cooldown &&
    (action.actionType = .dockerContainerRestart ||
      action.actionType = .dockerComposeServiceRestart)

def isReconcilablePhase (phase : JournalPhase) : Bool :=
  phase = .pending || phase = .approved || phase = .executing

def validCommand (command : RecoveryCommand) : Bool :=
  command.validate.isOk && validToken command.commandID maxCommandIDLength &&
    validToken command.incidentID maxCommandIDLength &&
    validToken command.runbookID maxCommandIDLength &&
    validToken command.runbookDigest maxIdempotencyKeyLength &&
    validToken command.targetID maxCommandIDLength &&
    validToken command.idempotencyKey maxIdempotencyKeyLength &&
    (command.approvalID = [] || validToken command.approvalID maxCommandIDLength) &&
    validRiskTier command.riskTier

def validTarget (target : ServiceTarget) (targetID : Bytes) : Bool :=
  target.schemaVersion = schemaVersionV1 && target.targetID = targetID &&
    target.adapterType = Docker.adapterType && target.enabled &&
    validToken target.selector maxIdempotencyKeyLength

/-- Only a record held for verification carries a reconciliation, and one that could not be
verified carries no snapshot. -/
def validReconciliation (record : JournalRecord) : Bool :=
  match record.phase, record.reconciliation with
  | .verifyAndNotify, none => false
  | .verifyAndNotify, some r =>
    !r.observedAt.isZero && (!r.verified || r.snapshot.targetID = record.command.targetID) &&
      (r.verified || r.snapshot = {})
  | _, reconciliation => reconciliation.isNone

def validateRecord (record : JournalRecord) : Except Error Unit :=
  if record.schemaVersion = schemaVersionV1 && validCommand record.command &&
      validTarget record.target record.command.targetID &&
      validAction record.action record.target.selector &&
      validRecordPhase record.phase record.command.state && validReconciliation record then .ok ()
  else .error errCorruptJournal

def decodeRecord (document : Bytes) : Except Error JournalRecord :=
  match decode JournalRecord.codec ⟨maxJournalDocumentBytes, schemaVersionV1, validateRecord⟩
      document with
  | .ok record => .ok record
  | .error _ => .error errCorruptJournal

end Recovery
end PulseAgent
