import PulseAgent.Delivery.Dispatcher
import PulseAgent.Redaction

/-!
# Lifecycle events

A transition is stored together with the queue item that refers to it. Publishing its event ID again
is a duplicate if the whole event is the same, and an error if it is not.
-/

namespace Go

/-- The tables of package `unicode` that the program asks. -/
class UnicodeTables where
  isLetter : Nat → Bool
  isDigit : Nat → Bool

/-- The tables as far as they concern ASCII. -/
@[reducible] def asciiTables : UnicodeTables where
  isLetter r := (65 ≤ r && r ≤ 90) || (97 ≤ r && r ≤ 122)
  isDigit r := 48 ≤ r && r ≤ 57

end Go

namespace PulseAgent.Lifecycle

open Go Go.Json Contract Delivery

def maxDeliveryTTL : Int := 30 * 24 * 3600 * 1000000000
def maxEventIDLength : Nat := 128
def maxReasonCodeLength : Nat := 96
def maxEvidenceRefLength : Nat := 128
def lifecycleRecordPrefix : Bytes := lit "event/"

def errInvalidEvent : Error := .new "invalid lifecycle event"
def errCorruptPayload : Error := .new "corrupt lifecycle payload"
def errEventExists : Error := .new "lifecycle event already exists"

def validIdentifier (value : Bytes) (limit : Nat) : Bool :=
  value ≠ [] && value.length ≤ limit && Strings.trimSpace value = value && !value.contains 0 &&
    !Redaction.containsSensitive value

def reasonCharacter (r : Nat) : Bool :=
  (97 ≤ r && r ≤ 122) || (48 ≤ r && r ≤ 57) || r == 95 || r == 45 || r == 46

def validReasonCode (value : Bytes) : Bool :=
  value ≠ [] && value.length ≤ maxReasonCodeLength && !Redaction.containsSensitive value &&
    (Utf8.runes value).all reasonCharacter

section

variable [UnicodeTables]

def referenceCharacter (r : Nat) : Bool :=
  UnicodeTables.isLetter r || UnicodeTables.isDigit r || r == 45 || r == 95 || r == 46 || r == 58

def validEvidenceRefs (references : List Bytes) : Bool :=
  references.length ≤ 64 &&
    references.all (fun reference => validIdentifier reference maxEvidenceRefLength &&
      (Utf8.runes reference).all referenceCharacter) &&
    references.Nodup

structure Input where
  eventID : Bytes
  eventType : LifecycleEventType
  incidentID : Bytes
  reasonCode : Bytes
  evidenceRefs : List Bytes := []
  occurredAt : Time

/-- `append([]T(nil), values...)`: a nil slice if there are no values. -/
def cloneSlice {α : Type} (values : List α) : Option (List α) :=
  if values.isEmpty then none else some values

def event (input : Input) : Except Error LifecycleEvent :=
  if validIdentifier input.eventID maxEventIDLength &&
    validIdentifier input.incidentID maxEventIDLength &&
      validReasonCode input.reasonCode && !input.occurredAt.isZero &&
      validEvidenceRefs input.evidenceRefs then
    let event : LifecycleEvent :=
      { schemaVersion := schemaVersionV1
        eventID := input.eventID
        eventType := input.eventType
        incidentID := input.incidentID
        occurredAt := input.occurredAt
        reasonCode := input.reasonCode
        evidenceRefs := cloneSlice input.evidenceRefs }
    if event.validate.isOk then .ok event else .error errInvalidEvent
  else .error errInvalidEvent

def decodeEvent (document : Bytes) : Except Error LifecycleEvent :=
  match decode LifecycleEvent.codec
      ⟨maxDocumentBytes, schemaVersionV1, LifecycleEvent.validate⟩ document with
  | .error _ => .error errCorruptPayload
  | .ok event =>
    if validIdentifier event.eventID maxEventIDLength &&
        validIdentifier event.incidentID maxEventIDLength && validReasonCode event.reasonCode &&
        validEvidenceRefs (elems event.evidenceRefs) then .ok event
    else .error errCorruptPayload

def recordKey (eventID : Bytes) : Bytes :=
  lifecycleRecordPrefix ++ Hex.encode (Sha256.sum256 eventID)

def sameEvent (left right : LifecycleEvent) : Bool :=
  left.schemaVersion = right.schemaVersion && left.eventID = right.eventID &&
    left.eventType = right.eventType && left.incidentID = right.incidentID &&
    left.occurredAt = right.occurredAt && left.reasonCode = right.reasonCode &&
    elems left.evidenceRefs = elems right.evidenceRefs

def stableEventID (eventType : LifecycleEventType) (incidentID idempotencyKey : Bytes) : Bytes :=
  lit "lifecycle-" ++
    Hex.encode (Sha256.sum256 (eventType.text ++ 0 :: incidentID ++ 0 :: idempotencyKey))

/-- The options `New` accepts. -/
structure Publisher where
  queue : Dispatcher
  destinationRef : Bytes
  deliveryTTL : Int
  destination : validIdentifier destinationRef maxEventIDLength = true
  ttl : 1000000000 ≤ deliveryTTL ∧ deliveryTTL ≤ maxDeliveryTTL

structure Result where
  event : LifecycleEvent
  queueItem : Option Item
  duplicate : Bool

/-- The payload is stored unless one is there already. -/
def storePayload (bucket : Bucket) (key document : Bytes) (present : Error) : TxProg Unit :=
  .get bucket key fun
    | .error e => .ret (.error e)
    | .ok (some _) => .ret (.error present)
    | .ok none => .put bucket key document .ret

namespace Publisher

def checkedEvent (eventID : Bytes) : Option Bytes → Except Error (Option LifecycleEvent)
  | none => .ok none
  | some document =>
    match decodeEvent document with
    | .error _ => .error errCorruptPayload
    | .ok event => if event.eventID = eventID then .ok (some event) else .error errCorruptPayload

def load (eventID : Bytes) : Prog (Except Error (Option LifecycleEvent)) := do
  match ← commit (.read "load lifecycle event: " .lifecycleEvents (recordKey eventID)) with
  | .error e => pure (.error e)
  | .ok found => pure (checkedEvent eventID found)

def enqueueRequest (p : Publisher) (event : LifecycleEvent) : EnqueueRequest where
  payloadType := .lifecycleEvent
  payloadRef := event.eventID
  destinationRef := p.destinationRef
  expiresAt := event.occurredAt + p.deliveryTTL

/-- The event was stored between the look at the store and the transaction. -/
def publishLost (event : LifecycleEvent) : Prog (Except Error Result) := do
  match ← load event.eventID with
  | .error e => pure (.error e)
  | .ok none => pure (.error errCorruptPayload)
  | .ok (some existing) =>
    if sameEvent existing event then pure (.ok ⟨existing, none, true⟩)
    else pure (.error errCorruptPayload)

def publishNew (p : Publisher) (event : LifecycleEvent) (document : Bytes) :
    Prog (Except Error Result) := do
  match ← p.queue.enqueue (p.enqueueRequest event)
      (some (storePayload .lifecycleEvents (recordKey event.eventID) document errEventExists)) with
  | .ok item => pure (.ok ⟨event, some item, false⟩)
  | .error e =>
    if e.is errEventExists then publishLost event
    else pure (.error (.wrap "enqueue lifecycle event: " e ""))

def publish (p : Publisher) (input : Input) : Prog (Except Error Result) := do
  match ← call .ctxErr with
  | some e => pure (.error e)
  | none =>
    match event input with
    | .error e => pure (.error e)
    | .ok event =>
      match encode LifecycleEvent.codec "encode lifecycle event: " event with
      | .error e => pure (.error e)
      | .ok document =>
        match ← load event.eventID with
        | .error e => pure (.error e)
        | .ok (some existing) =>
          if sameEvent existing event then pure (.ok ⟨existing, none, true⟩)
          else pure (.error errInvalidEvent)
        | .ok none => p.publishNew event document

/-! The transitions of a recovery request. Three take their time from the clock, the request for
an approval takes that of its command. -/

/-- What a transition is published as. -/
inductive Transition where
  | analysisUnavailable (incidentID idempotencyKey reasonCode : Bytes)
  | policyDenied (incidentID idempotencyKey reasonCode : Bytes)
  | approvalRequested (command : RecoveryCommand)
  | recoveryStarted (command : RecoveryCommand)

/-- The input of a transition that occurred at the given time. -/
def Transition.input (occurredAt : Time) : Transition → Input
  | .analysisUnavailable incidentID idempotencyKey reasonCode =>
    { eventID := stableEventID .analysisUnavailable incidentID idempotencyKey
      eventType := .analysisUnavailable
      incidentID := incidentID
      reasonCode := reasonCode
      occurredAt := occurredAt }
  | .policyDenied incidentID idempotencyKey reasonCode =>
    { eventID := stableEventID .policyDenied incidentID idempotencyKey
      eventType := .policyDenied
      incidentID := incidentID
      reasonCode := reasonCode
      occurredAt := occurredAt }
  | .approvalRequested command =>
    { eventID := stableEventID .approvalRequested command.incidentID command.commandID
      eventType := .approvalRequested
      incidentID := command.incidentID
      reasonCode := lit "approval_required"
      occurredAt := command.issuedAt }
  | .recoveryStarted command =>
    { eventID := stableEventID .recoveryStarted command.incidentID command.commandID
      eventType := .recoveryStarted
      incidentID := command.incidentID
      reasonCode := lit "recovery_started"
      occurredAt := occurredAt }

def publishAt (p : Publisher) (transition : Transition) (occurredAt : Time) :
    Prog (Option Error) := do
  let result ← p.publish (transition.input occurredAt)
  pure (errorOf result)

def publishAnalysisUnavailable (p : Publisher) (incidentID idempotencyKey reasonCode : Bytes) :
    Prog (Option Error) := do
  let now ← call .clock
  p.publishAt (.analysisUnavailable incidentID idempotencyKey reasonCode) now

def publishPolicyDenied (p : Publisher) (incidentID idempotencyKey reasonCode : Bytes) :
    Prog (Option Error) := do
  let now ← call .clock
  p.publishAt (.policyDenied incidentID idempotencyKey reasonCode) now

def publishApprovalRequested (p : Publisher) (command : RecoveryCommand) : Prog (Option Error) :=
  p.publishAt (.approvalRequested command) command.issuedAt

def publishRecoveryStarted (p : Publisher) (command : RecoveryCommand) : Prog (Option Error) := do
  let now ← call .clock
  p.publishAt (.recoveryStarted command) now

def publishTransition (p : Publisher) : Transition → Prog (Option Error)
  | .analysisUnavailable incidentID idempotencyKey reasonCode =>
    p.publishAnalysisUnavailable incidentID idempotencyKey reasonCode
  | .policyDenied incidentID idempotencyKey reasonCode =>
    p.publishPolicyDenied incidentID idempotencyKey reasonCode
  | .approvalRequested command => p.publishApprovalRequested command
  | .recoveryStarted command => p.publishRecoveryStarted command

end Publisher

end

end PulseAgent.Lifecycle
