import PulseAgent.Go.Errors
import PulseAgent.Go.Float
import PulseAgent.Go.JsonTable

/-!
# Versioned data contracts

The string types are inductive types with a constructor for every text that names no constant, since
values are decoded first and validated later.
-/

namespace PulseAgent

open Go

namespace Contract

def schemaVersionV1 : Bytes := lit "v1"

def maxReferenceCount : Nat := 64

def errInvalidContract : Error := .new "invalid contract"

def errInvalidStateTransition : Error := .new "invalid state transition"

theorem not_mem_of_find {α : Type} {table : List (Bytes × α)} {s : Bytes}
    (h : (table.find? fun entry => entry.1 == s) = none) : s ∉ table.map Prod.fst := by
  intro hs
  obtain ⟨entry, hentry, rfl⟩ := List.mem_map.mp hs
  exact absurd (beq_self_eq_true entry.1) (List.find?_eq_none.mp h entry hentry)

/-- The constant a text names, or the text itself. -/
def ofTable {α : Type} (table : List (Bytes × α)) (other : ∀ s, s ∉ table.map Prod.fst → α)
    (s : Bytes) : α :=
  match h : table.find? fun entry => entry.1 == s with
  | some entry => entry.2
  | none => other s (not_mem_of_find h)

theorem ofTable_of_not_mem {α : Type} {table : List (Bytes × α)}
    {other : ∀ s, s ∉ table.map Prod.fst → α} {s : Bytes} (hs : s ∉ table.map Prod.fst) :
    ofTable table other s = other s hs := by
  unfold ofTable
  split
  case h_1 entry h =>
    have heq := List.find?_some h
    rw [beq_iff_eq] at heq
    exact absurd (List.mem_map.mpr ⟨entry, List.mem_of_find?_eq_some h, heq⟩) hs
  case h_2 => rfl

theorem text_ofTable {α : Type} {table : List (Bytes × α)}
    {other : ∀ s, s ∉ table.map Prod.fst → α} {text : α → Bytes}
    (htable : ∀ entry ∈ table, text entry.2 = entry.1) (hother : ∀ s h, text (other s h) = s)
    (s : Bytes) : text (ofTable table other s) = s := by
  unfold ofTable
  split
  case h_1 entry h =>
    have heq := List.find?_some h
    rw [htable entry (List.mem_of_find?_eq_some h)]
    exact beq_iff_eq.mp heq
  case h_2 => exact hother s _

def Severity.names : List Bytes := [lit "info", lit "warning", lit "critical"]

inductive Severity where
  | info
  | warning
  | critical
  | other (text : Bytes) (unnamed : text ∉ Severity.names)
deriving DecidableEq

namespace Severity

def unset : Severity := other [] (by decide)

def text : Severity → Bytes
  | info => lit "info"
  | warning => lit "warning"
  | critical => lit "critical"
  | other s _ => s

def ofText : Bytes → Severity :=
  ofTable [(info.text, info), (warning.text, warning), (critical.text, critical)]
    fun s h => other s h

theorem text_ofText (s : Bytes) : text (ofText s) = s :=
  text_ofTable (by simp) (fun _ _ => rfl) s

theorem ofText_text (severity : Severity) : ofText severity.text = severity := by
  cases severity with
  | other s h => exact ofTable_of_not_mem h
  | _ => rfl

end Severity

def NormalizedState.names : List Bytes := [lit "healthy", lit "unhealthy", lit "unknown"]

inductive NormalizedState where
  | healthy
  | unhealthy
  | unknown
  | other (text : Bytes) (unnamed : text ∉ NormalizedState.names)
deriving DecidableEq

namespace NormalizedState

def unset : NormalizedState := other [] (by decide)

def text : NormalizedState → Bytes
  | healthy => lit "healthy"
  | unhealthy => lit "unhealthy"
  | unknown => lit "unknown"
  | other s _ => s

def ofText : Bytes → NormalizedState :=
  ofTable [(healthy.text, healthy), (unhealthy.text, unhealthy), (unknown.text, unknown)]
    fun s h => other s h

end NormalizedState

def RiskTier.names : List Bytes := [lit "low", lit "medium", lit "high"]

inductive RiskTier where
  | low
  | medium
  | high
  | other (text : Bytes) (unnamed : text ∉ RiskTier.names)
deriving DecidableEq

namespace RiskTier

def unset : RiskTier := other [] (by decide)

def text : RiskTier → Bytes
  | low => lit "low"
  | medium => lit "medium"
  | high => lit "high"
  | other s _ => s

def ofText : Bytes → RiskTier :=
  ofTable [(low.text, low), (medium.text, medium), (high.text, high)] fun s h => other s h

theorem text_ofText (s : Bytes) : text (ofText s) = s :=
  text_ofTable (by simp) (fun _ _ => rfl) s

end RiskTier

def ActionType.names : List Bytes :=
  [lit "docker.container.restart", lit "docker.compose_service.restart"]

inductive ActionType where
  | dockerContainerRestart
  | dockerComposeServiceRestart
  | other (text : Bytes) (unnamed : text ∉ ActionType.names)
deriving DecidableEq

namespace ActionType

def unset : ActionType := other [] (by decide)

def text : ActionType → Bytes
  | dockerContainerRestart => lit "docker.container.restart"
  | dockerComposeServiceRestart => lit "docker.compose_service.restart"
  | other s _ => s

def ofText : Bytes → ActionType :=
  ofTable [(dockerContainerRestart.text, dockerContainerRestart),
    (dockerComposeServiceRestart.text, dockerComposeServiceRestart)] fun s h => other s h

theorem text_ofText (s : Bytes) : text (ofText s) = s :=
  text_ofTable (by simp) (fun _ _ => rfl) s

end ActionType

def ApprovalDecision.names : List Bytes := [lit "grant", lit "deny"]

inductive ApprovalDecision where
  | granted
  | denied
  | other (text : Bytes) (unnamed : text ∉ ApprovalDecision.names)
deriving DecidableEq

namespace ApprovalDecision

def unset : ApprovalDecision := other [] (by decide)

def text : ApprovalDecision → Bytes
  | granted => lit "grant"
  | denied => lit "deny"
  | other s _ => s

def ofText : Bytes → ApprovalDecision :=
  ofTable [(granted.text, granted), (denied.text, denied)] fun s h => other s h

end ApprovalDecision

def IncidentState.names : List Bytes :=
  [lit "open", lit "analyzing", lit "awaiting_approval", lit "recovering", lit "stabilizing",
    lit "closed", lit "failed"]

inductive IncidentState where
  | opened
  | analyzing
  | awaitingApproval
  | recovering
  | stabilizing
  | closed
  | failed
  | other (text : Bytes) (unnamed : text ∉ IncidentState.names)
deriving DecidableEq

namespace IncidentState

def unset : IncidentState := other [] (by decide)

def text : IncidentState → Bytes
  | opened => lit "open"
  | analyzing => lit "analyzing"
  | awaitingApproval => lit "awaiting_approval"
  | recovering => lit "recovering"
  | stabilizing => lit "stabilizing"
  | closed => lit "closed"
  | failed => lit "failed"
  | other s _ => s

def ofText : Bytes → IncidentState :=
  ofTable [(opened.text, opened), (analyzing.text, analyzing),
    (awaitingApproval.text, awaitingApproval), (recovering.text, recovering),
    (stabilizing.text, stabilizing), (closed.text, closed), (failed.text, failed)]
      fun s h => other s h

theorem text_ofText (s : Bytes) : text (ofText s) = s :=
  text_ofTable (by simp) (fun _ _ => rfl) s

def canTransitionTo : IncidentState → IncidentState → Bool
  | opened, next => next = analyzing || next = closed || next = failed
  | analyzing, next =>
    next = awaitingApproval || next = recovering || next = closed || next = failed
  | awaitingApproval, next => next = recovering || next = closed || next = failed
  | recovering, next => next = stabilizing || next = failed
  | stabilizing, next => next = closed || next = failed
  | _, _ => false

def terminal (state : IncidentState) : Bool := state = closed || state = failed

end IncidentState

def RecoveryCommandState.names : List Bytes :=
  [lit "pending", lit "approved", lit "executing", lit "stabilizing", lit "succeeded",
    lit "failed", lit "denied", lit "expired"]

inductive RecoveryCommandState where
  | pending
  | approved
  | executing
  | stabilizing
  | succeeded
  | failed
  | denied
  | expired
  | other (text : Bytes) (unnamed : text ∉ RecoveryCommandState.names)
deriving DecidableEq

namespace RecoveryCommandState

def unset : RecoveryCommandState := other [] (by decide)

def text : RecoveryCommandState → Bytes
  | pending => lit "pending"
  | approved => lit "approved"
  | executing => lit "executing"
  | stabilizing => lit "stabilizing"
  | succeeded => lit "succeeded"
  | failed => lit "failed"
  | denied => lit "denied"
  | expired => lit "expired"
  | other s _ => s

def ofText : Bytes → RecoveryCommandState :=
  ofTable [(pending.text, pending), (approved.text, approved), (executing.text, executing),
    (stabilizing.text, stabilizing), (succeeded.text, succeeded), (failed.text, failed),
    (denied.text, denied), (expired.text, expired)] fun s h => other s h

theorem text_ofText (s : Bytes) : text (ofText s) = s :=
  text_ofTable (by simp) (fun _ _ => rfl) s

def canTransitionTo : RecoveryCommandState → RecoveryCommandState → Bool
  | pending, next => next = approved || next = denied || next = expired
  | approved, next => next = executing || next = expired
  | executing, next => next = stabilizing || next = failed
  | stabilizing, next => next = succeeded || next = failed
  | _, _ => false

def validateTransition (state next : RecoveryCommandState) : Except Error Unit :=
  if state.canTransitionTo next then .ok () else .error errInvalidStateTransition

def valid : RecoveryCommandState → Bool
  | other .. => false
  | _ => true

end RecoveryCommandState

def DeliveryPayloadType.names : List Bytes := [lit "lifecycle_event", lit "incident_report"]

inductive DeliveryPayloadType where
  | lifecycleEvent
  | incidentReport
  | other (text : Bytes) (unnamed : text ∉ DeliveryPayloadType.names)
deriving DecidableEq

namespace DeliveryPayloadType

def unset : DeliveryPayloadType := other [] (by decide)

def text : DeliveryPayloadType → Bytes
  | lifecycleEvent => lit "lifecycle_event"
  | incidentReport => lit "incident_report"
  | other s _ => s

def ofText : Bytes → DeliveryPayloadType :=
  ofTable [(lifecycleEvent.text, lifecycleEvent), (incidentReport.text, incidentReport)]
    fun s h => other s h

theorem text_ofText (s : Bytes) : text (ofText s) = s :=
  text_ofTable (by simp) (fun _ _ => rfl) s

end DeliveryPayloadType

def DeliveryState.names : List Bytes :=
  [lit "pending", lit "delivered", lit "expired", lit "failed"]

inductive DeliveryState where
  | pending
  | delivered
  | expired
  | failed
  | other (text : Bytes) (unnamed : text ∉ DeliveryState.names)
deriving DecidableEq

namespace DeliveryState

def unset : DeliveryState := other [] (by decide)

def text : DeliveryState → Bytes
  | pending => lit "pending"
  | delivered => lit "delivered"
  | expired => lit "expired"
  | failed => lit "failed"
  | other s _ => s

def ofText : Bytes → DeliveryState :=
  ofTable [(pending.text, pending), (delivered.text, delivered), (expired.text, expired),
    (failed.text, failed)] fun s h => other s h

theorem text_ofText (s : Bytes) : text (ofText s) = s :=
  text_ofTable (by simp) (fun _ _ => rfl) s

def valid : DeliveryState → Bool
  | other .. => false
  | _ => true

end DeliveryState

def LifecycleEventType.names : List Bytes :=
  [lit "incident.confirmed", lit "analysis.unavailable", lit "policy.denied",
    lit "approval.requested", lit "recovery.started", lit "incident.closed", lit "incident.failed"]

inductive LifecycleEventType where
  | incidentConfirmed
  | analysisUnavailable
  | policyDenied
  | approvalRequested
  | recoveryStarted
  | incidentClosed
  | incidentFailed
  | other (text : Bytes) (unnamed : text ∉ LifecycleEventType.names)
deriving DecidableEq

namespace LifecycleEventType

def unset : LifecycleEventType := other [] (by decide)

def text : LifecycleEventType → Bytes
  | incidentConfirmed => lit "incident.confirmed"
  | analysisUnavailable => lit "analysis.unavailable"
  | policyDenied => lit "policy.denied"
  | approvalRequested => lit "approval.requested"
  | recoveryStarted => lit "recovery.started"
  | incidentClosed => lit "incident.closed"
  | incidentFailed => lit "incident.failed"
  | other s _ => s

def ofText : Bytes → LifecycleEventType :=
  ofTable [(incidentConfirmed.text, incidentConfirmed),
    (analysisUnavailable.text, analysisUnavailable), (policyDenied.text, policyDenied),
    (approvalRequested.text, approvalRequested), (recoveryStarted.text, recoveryStarted),
    (incidentClosed.text, incidentClosed), (incidentFailed.text, incidentFailed)]
      fun s h => other s h

def valid : LifecycleEventType → Bool
  | other .. => false
  | _ => true

end LifecycleEventType

def NotificationRecommendation.names : List Bytes := [lit "none", lit "notify", lit "page"]

inductive NotificationRecommendation where
  | none
  | notify
  | page
  | other (text : Bytes) (unnamed : text ∉ NotificationRecommendation.names)
deriving DecidableEq

namespace NotificationRecommendation

def unset : NotificationRecommendation := other [] (by decide)

def valid : NotificationRecommendation → Bool
  | other .. => false
  | _ => true

end NotificationRecommendation

def ConfidenceLabel.names : List Bytes := [lit "low", lit "medium", lit "high"]

inductive ConfidenceLabel where
  | low
  | medium
  | high
  | other (text : Bytes) (unnamed : text ∉ ConfidenceLabel.names)
deriving DecidableEq

namespace ConfidenceLabel

def valid : ConfidenceLabel → Bool
  | other .. => false
  | _ => true

end ConfidenceLabel

/-! ## Records -/

structure EvidencePolicy where
  redactionProfile : Bytes := []
  maxBytes : Int64 := 0
deriving DecidableEq

structure StabilizationPolicy where
  recoverySamples : Int64 := 0
  window : Duration := 0
deriving DecidableEq

structure ProbeRule where
  ruleID : Bytes := []
  signalType : Bytes := []
  interval : Duration := 0
  timeout : Duration := 0
  threshold : Float64 := .zero
  consecutiveFailures : Int64 := 0
  recoverySamples : Int64 := 0
  sloWindow : Duration := 0
  severity : Severity := .unset
deriving DecidableEq

structure ServiceTarget where
  schemaVersion : Bytes := []
  targetID : Bytes := []
  adapterType : Bytes := []
  selector : Bytes := []
  probeRules : Option (List ProbeRule) := none
  evidencePolicy : EvidencePolicy := {}
  stabilizationPolicy : StabilizationPolicy := {}
  enabled : Bool := false
deriving DecidableEq

/-- A normalized observation; the snapshot version is that of the whole cycle. -/
structure HealthObservation where
  schemaVersion : Bytes := []
  observationID : Bytes := []
  targetID : Bytes := []
  ruleID : Bytes := []
  targetSnapshotVersion : UInt64 := 0
  observedAt : Time := 0
  normalizedState : NormalizedState := .unset
  boundedValues : Option (Json.TextMap Float64) := none
  evidenceRefs : Option (List Bytes) := none
  sequence : UInt64 := 0
deriving DecidableEq

structure Incident where
  schemaVersion : Bytes := []
  incidentID : Bytes := []
  dedupeKey : Bytes := []
  targetID : Bytes := []
  ruleIDs : Option (List Bytes) := none
  state : IncidentState := .unset
  severity : Severity := .unset
  openedAt : Time := 0
  analysisRef : Bytes := []
  selectedRunbookID : Bytes := []
  terminalAt : Time := 0
deriving DecidableEq

/-- Names retained evidence without its content. -/
structure EvidenceRef where
  schemaVersion : Bytes := []
  evidenceID : Bytes := []
  sourceType : Bytes := []
  collectorID : Bytes := []
  start : Time := 0
  «end» : Time := 0
  redactionProfile : Bytes := []
  digest : Bytes := []
  byteCount : Int64 := 0
  retentionUntil : Time := 0
deriving DecidableEq

structure TargetConstraint where
  field : Bytes := []
  value : Bytes := []
deriving DecidableEq

/-- A registered action; it has no command, argument or script field. -/
structure TypedAction where
  actionType : ActionType := .unset
  targetSelector : Bytes := []
  stopTimeout : Duration := 0
  cooldown : Duration := 0
deriving DecidableEq

structure ApprovalPolicy where
  required : Bool := false
deriving DecidableEq

structure RetryPolicy where
  maxAttempts : Int64 := 0
deriving DecidableEq

structure Runbook where
  schemaVersion : Bytes := []
  runbookID : Bytes := []
  version : Bytes := []
  digest : Bytes := []
  adapterType : Bytes := []
  targetConstraints : Option (List TargetConstraint) := none
  typedActions : Option (List TypedAction) := none
  riskTier : RiskTier := .unset
  autoExecute : Bool := false
  approvalPolicy : ApprovalPolicy := {}
  preconditions : Option (List Bytes) := none
  retryPolicy : RetryPolicy := {}
  stabilizationPolicy : StabilizationPolicy := {}
deriving DecidableEq

structure RecoveryCommand where
  schemaVersion : Bytes := []
  commandID : Bytes := []
  incidentID : Bytes := []
  runbookID : Bytes := []
  runbookDigest : Bytes := []
  targetID : Bytes := []
  actionIndex : Int64 := 0
  riskTier : RiskTier := .unset
  approvalID : Bytes := []
  issuedAt : Time := 0
  expiresAt : Time := 0
  idempotencyKey : Bytes := []
  state : RecoveryCommandState := .unset
deriving DecidableEq

structure Approval where
  schemaVersion : Bytes := []
  approvalID : Bytes := []
  commandID : Bytes := []
  decision : ApprovalDecision := .unset
  approverIdentity : Bytes := []
  reason : Bytes := []
  createdAt : Time := 0
  expiresAt : Time := 0
deriving DecidableEq

structure AuditEvent where
  schemaVersion : Bytes := []
  eventID : Bytes := []
  aggregateType : Bytes := []
  aggregateID : Bytes := []
  actorIdentity : Bytes := []
  action : Bytes := []
  result : Bytes := []
  reasonCode : Bytes := []
  occurredAt : Time := 0
  previousDigest : Bytes := []
  digest : Bytes := []
deriving DecidableEq

structure DeliveryQueueItem where
  schemaVersion : Bytes := []
  deliveryID : Bytes := []
  payloadType : DeliveryPayloadType := .unset
  payloadRef : Bytes := []
  webhookID : Bytes := []
  destinationRef : Bytes := []
  attemptCount : Int64 := 0
  nextAttemptAt : Time := 0
  expiresAt : Time := 0
  state : DeliveryState := .unset
deriving DecidableEq

structure LifecycleEvent where
  schemaVersion : Bytes := []
  eventID : Bytes := []
  eventType : LifecycleEventType := .unset
  incidentID : Bytes := []
  occurredAt : Time := 0
  reasonCode : Bytes := []
  evidenceRefs : Option (List Bytes) := none
deriving DecidableEq

structure Hypothesis where
  summary : Bytes := []
  evidenceRefs : Option (List Bytes) := none
deriving DecidableEq

structure AnalysisResult where
  schemaVersion : Bytes := []
  incidentID : Bytes := []
  hypotheses : Option (List Hypothesis) := none
  evidenceRefs : Option (List Bytes) := none
  confidenceLabels : Option (List ConfidenceLabel) := none
  notificationRecommendation : NotificationRecommendation := .unset
  candidateRunbookIDs : Option (List Bytes) := none
  missingEvidence : Option (List Bytes) := none
deriving DecidableEq

structure ReportAction where
  commandID : Bytes := []
  actionType : ActionType := .unset
  result : Bytes := []
deriving DecidableEq

structure IncidentReport where
  schemaVersion : Bytes := []
  reportID : Bytes := []
  incidentID : Bytes := []
  hypotheses : Option (List Hypothesis) := none
  evidenceRefs : Option (List Bytes) := none
  actions : Option (List ReportAction) := none
  approvals : Option (List Bytes) := none
  verificationResult : Bytes := []
  preventionRecommendations : Option (List Bytes) := none
  postmortemDraft : Bytes := []
  runbookImprovementSuggestions : Option (List Bytes) := none
  deliveryStatus : DeliveryState := .unset
deriving DecidableEq

/-! ## Validation -/

def invalid (name : String) : Error := .wrap "" errInvalidContract (": " ++ name)

def validateVersion (version : Bytes) : Except Error Unit :=
  if version = schemaVersionV1 then .ok () else .error (invalid "schema version")

def required (name : String) (value : Bytes) : Except Error Unit :=
  if value = [] then .error (.wrap "" errInvalidContract (": missing " ++ name)) else .ok ()

def check (name : String) (ok : Bool) : Except Error Unit :=
  if ok then .ok () else .error (invalid name)

def elems {α : Type} (slice : Option (List α)) : List α := slice.getD []

def IncidentState.valid : IncidentState → Bool
  | other .. => false
  | _ => true

def Incident.validate (i : Incident) : Except Error Unit := do
  validateVersion i.schemaVersion
  required "incident_id" i.incidentID
  required "target_id" i.targetID
  check "incident" (i.state.valid && !i.openedAt.isZero && 0 < (elems i.ruleIDs).length &&
    (elems i.ruleIDs).length ≤ maxReferenceCount)
  check "incident terminal time" (i.state.terminal == !i.terminalAt.isZero)

def RecoveryCommand.validate (r : RecoveryCommand) : Except Error Unit := do
  validateVersion r.schemaVersion
  required "command_id" r.commandID
  check "recovery command" (r.state.valid && 0 ≤ r.actionIndex && !r.issuedAt.isZero &&
    !r.expiresAt.isZero && r.issuedAt < r.expiresAt)

def DeliveryQueueItem.validate (d : DeliveryQueueItem) : Except Error Unit := do
  validateVersion d.schemaVersion
  required "delivery_id" d.deliveryID
  required "payload_ref" d.payloadRef
  required "webhook_id" d.webhookID
  required "destination_ref" d.destinationRef
  check "delivery queue item"
    ((d.payloadType = .lifecycleEvent || d.payloadType = .incidentReport) && 0 ≤ d.attemptCount &&
      !d.nextAttemptAt.isZero && !d.expiresAt.isZero && d.nextAttemptAt < d.expiresAt &&
      d.state.valid)

def LifecycleEvent.validate (l : LifecycleEvent) : Except Error Unit := do
  validateVersion l.schemaVersion
  required "event_id" l.eventID
  required "incident_id" l.incidentID
  check "lifecycle event" (l.eventType.valid && !l.occurredAt.isZero &&
    (elems l.evidenceRefs).length ≤ maxReferenceCount)
  (elems l.evidenceRefs).forM (required "lifecycle evidence reference")

def AnalysisResult.validate (a : AnalysisResult) : Except Error Unit := do
  validateVersion a.schemaVersion
  required "incident_id" a.incidentID
  check "analysis result" (elems a.hypotheses ≠ [] &&
    (elems a.hypotheses).length ≤ maxReferenceCount &&
    (elems a.evidenceRefs).length ≤ maxReferenceCount &&
    (elems a.confidenceLabels).length ≤ maxReferenceCount &&
    (elems a.candidateRunbookIDs).length ≤ maxReferenceCount &&
    (elems a.missingEvidence).length ≤ maxReferenceCount && a.notificationRecommendation.valid)
  (elems a.hypotheses).forM fun hypothesis => do
    required "hypothesis summary" hypothesis.summary
    check "hypothesis evidence refs" ((elems hypothesis.evidenceRefs).length ≤ maxReferenceCount)
  (elems a.confidenceLabels).forM fun label => check "confidence label" label.valid

/-- Neither empty nor longer than the reference limit. -/
def someReferences {α : Type} (slice : Option (List α)) : Bool :=
  !(elems slice).isEmpty && (elems slice).length ≤ maxReferenceCount

def Hypothesis.validateInReport (hypothesis : Hypothesis) : Except Error Unit := do
  check "report hypothesis" (hypothesis.summary ≠ [] &&
    (elems hypothesis.evidenceRefs).length ≤ maxReferenceCount)
  (elems hypothesis.evidenceRefs).forM (required "report hypothesis evidence reference")

def ReportAction.validateInReport (action : ReportAction) : Except Error Unit := do
  required "report action command id" action.commandID
  check "report action type" (action.actionType = .dockerContainerRestart ||
    action.actionType = .dockerComposeServiceRestart)
  required "report action result" action.result

def IncidentReport.validate (r : IncidentReport) : Except Error Unit := do
  validateVersion r.schemaVersion
  required "report_id" r.reportID
  required "incident_id" r.incidentID
  check "incident report" (someReferences r.hypotheses &&
    (elems r.evidenceRefs).length ≤ maxReferenceCount &&
    (elems r.actions).length ≤ maxReferenceCount &&
    (elems r.approvals).length ≤ maxReferenceCount &&
    someReferences r.preventionRecommendations &&
    someReferences r.runbookImprovementSuggestions && r.deliveryStatus.valid)
  required "verification result" r.verificationResult
  required "postmortem draft" r.postmortemDraft
  (elems r.hypotheses).forM Hypothesis.validateInReport
  (elems r.evidenceRefs).forM (required "report evidence reference")
  (elems r.actions).forM ReportAction.validateInReport
  (elems r.approvals).forM (required "report approval")
  (elems r.preventionRecommendations).forM (required "prevention recommendation")
  (elems r.runbookImprovementSuggestions).forM (required "runbook improvement suggestion")

end Contract
end PulseAgent
