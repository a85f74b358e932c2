import PulseAgent.Contract.Types

/-!
# JSON shapes of the contracts

One list of fields for each record, in the order of the Go declaration and under its JSON names.
-/

namespace PulseAgent.Contract

open Go Go.Json

def Severity.codec : Codec Severity := .named Severity.text Severity.ofText

def RiskTier.codec : Codec RiskTier := .named RiskTier.text RiskTier.ofText

def ActionType.codec : Codec ActionType := .named ActionType.text ActionType.ofText

def ApprovalDecision.codec : Codec ApprovalDecision :=
  .named ApprovalDecision.text ApprovalDecision.ofText

def IncidentState.codec : Codec IncidentState := .named IncidentState.text IncidentState.ofText

def RecoveryCommandState.codec : Codec RecoveryCommandState :=
  .named RecoveryCommandState.text RecoveryCommandState.ofText

def DeliveryPayloadType.codec : Codec DeliveryPayloadType :=
  .named DeliveryPayloadType.text DeliveryPayloadType.ofText

def DeliveryState.codec : Codec DeliveryState := .named DeliveryState.text DeliveryState.ofText

def LifecycleEventType.codec : Codec LifecycleEventType :=
  .named LifecycleEventType.text LifecycleEventType.ofText

def NormalizedState.codec : Codec NormalizedState :=
  .named NormalizedState.text NormalizedState.ofText

theorem string_norm_eq_zero {s : Bytes} (h : s.isEmpty = true) :
    Codec.string.norm s = Codec.string.zero := by
  rw [List.isEmpty_iff.mp h]
  rfl

def EvidencePolicy.fields : List (Member EvidencePolicy) :=
  [.of (lit "redaction_profile") .string (·.redactionProfile)
     fun x s => { s with redactionProfile := x },
   .of (lit "max_bytes") .int64 (·.maxBytes) fun x s => { s with maxBytes := x }]

def EvidencePolicy.codec : Codec EvidencePolicy :=
  .struct EvidencePolicy.fields {} (by decide +kernel) (by decide +kernel) fun _ => by
    repeat' constructor

def StabilizationPolicy.fields : List (Member StabilizationPolicy) :=
  [.of (lit "recovery_samples") .int64 (·.recoverySamples)
     fun x s => { s with recoverySamples := x },
   .of (lit "window") .duration (·.window) fun x s => { s with window := x }]

def StabilizationPolicy.codec : Codec StabilizationPolicy :=
  .struct StabilizationPolicy.fields {} (by decide +kernel) (by decide +kernel) fun _ => by
    repeat' constructor

def ProbeRule.fields : List (Member ProbeRule) :=
  [.of (lit "rule_id") .string (·.ruleID) fun x s => { s with ruleID := x },
   .of (lit "signal_type") .string (·.signalType) fun x s => { s with signalType := x },
   .of (lit "interval") .duration (·.interval) fun x s => { s with interval := x },
   .of (lit "timeout") .duration (·.timeout) fun x s => { s with timeout := x },
   .of (lit "threshold") .float64 (·.threshold) fun x s => { s with threshold := x },
   .of (lit "consecutive_failures") .int64 (·.consecutiveFailures)
     fun x s => { s with consecutiveFailures := x },
   .of (lit "recovery_samples") .int64 (·.recoverySamples)
     fun x s => { s with recoverySamples := x },
   .of (lit "slo_window") .duration (·.sloWindow) fun x s => { s with sloWindow := x },
   .of (lit "severity") Severity.codec (·.severity) fun x s => { s with severity := x }]

def ProbeRule.codec : Codec ProbeRule :=
  .struct ProbeRule.fields {} (by decide +kernel) (by decide +kernel) fun _ => by
    repeat' constructor

def ServiceTarget.fields : List (Member ServiceTarget) :=
  [.of (lit "schema_version") .string (·.schemaVersion) fun x s => { s with schemaVersion := x },
   .of (lit "target_id") .string (·.targetID) fun x s => { s with targetID := x },
   .of (lit "adapter_type") .string (·.adapterType) fun x s => { s with adapterType := x },
   .of (lit "selector") .string (·.selector) fun x s => { s with selector := x },
   .of (lit "probe_rules") (.slice ProbeRule.codec) (·.probeRules)
     fun x s => { s with probeRules := x },
   .of (lit "evidence_policy") EvidencePolicy.codec (·.evidencePolicy)
     fun x s => { s with evidencePolicy := x },
   .of (lit "stabilization_policy") StabilizationPolicy.codec (·.stabilizationPolicy)
     fun x s => { s with stabilizationPolicy := x },
   .of (lit "enabled") .bool (·.enabled) fun x s => { s with enabled := x }]

def ServiceTarget.codec : Codec ServiceTarget :=
  .struct ServiceTarget.fields {} (by decide +kernel) (by decide +kernel) fun _ => by
    repeat' constructor

def Incident.fields : List (Member Incident) :=
  [.of (lit "schema_version") .string (·.schemaVersion) fun x s => { s with schemaVersion := x },
   .of (lit "incident_id") .string (·.incidentID) fun x s => { s with incidentID := x },
   .of (lit "dedupe_key") .string (·.dedupeKey) fun x s => { s with dedupeKey := x },
   .of (lit "target_id") .string (·.targetID) fun x s => { s with targetID := x },
   .of (lit "rule_ids") (.slice .string) (·.ruleIDs) fun x s => { s with ruleIDs := x },
   .of (lit "state") IncidentState.codec (·.state) fun x s => { s with state := x },
   .of (lit "severity") Severity.codec (·.severity) fun x s => { s with severity := x },
   .of (lit "opened_at") .time (·.openedAt) fun x s => { s with openedAt := x },
   .omitEmpty (lit "analysis_ref") .string (·.analysisRef)
     (fun x s => { s with analysisRef := x }) List.isEmpty
     (fun _ => string_norm_eq_zero) (fun _ => rfl),
   .omitEmpty (lit "selected_runbook_id") .string (·.selectedRunbookID)
     (fun x s => { s with selectedRunbookID := x }) List.isEmpty
     (fun _ => string_norm_eq_zero) (fun _ => rfl),
   .of (lit "terminal_at") .time (·.terminalAt) fun x s => { s with terminalAt := x }]

def Incident.codec : Codec Incident :=
  .struct Incident.fields {} (by decide +kernel) (by decide +kernel) fun _ => by
    repeat' constructor

def TargetConstraint.fields : List (Member TargetConstraint) :=
  [.of (lit "field") .string (·.field) fun x s => { s with field := x },
   .of (lit "value") .string (·.value) fun x s => { s with value := x }]

def TargetConstraint.codec : Codec TargetConstraint :=
  .struct TargetConstraint.fields {} (by decide +kernel) (by decide +kernel) fun _ => by
    repeat' constructor

def TypedAction.fields : List (Member TypedAction) :=
  [.of (lit "action_type") ActionType.codec (·.actionType) fun x s => { s with actionType := x },
   .of (lit "target_selector") .string (·.targetSelector) fun x s => { s with targetSelector := x },
   .of (lit "stop_timeout") .duration (·.stopTimeout) fun x s => { s with stopTimeout := x },
   .of (lit "cooldown") .duration (·.cooldown) fun x s => { s with cooldown := x }]

def TypedAction.codec : Codec TypedAction :=
  .struct TypedAction.fields {} (by decide +kernel) (by decide +kernel) fun _ => by
    repeat' constructor

def ApprovalPolicy.fields : List (Member ApprovalPolicy) :=
  [.of (lit "required") .bool (·.required) fun x s => { s with required := x }]

def ApprovalPolicy.codec : Codec ApprovalPolicy :=
  .struct ApprovalPolicy.fields {} (by decide +kernel) (by decide +kernel) fun _ => by
    repeat' constructor

def RetryPolicy.fields : List (Member RetryPolicy) :=
  [.of (lit "max_attempts") .int64 (·.maxAttempts) fun x s => { s with maxAttempts := x }]

def RetryPolicy.codec : Codec RetryPolicy :=
  .struct RetryPolicy.fields {} (by decide +kernel) (by decide +kernel) fun _ => by
    repeat' constructor

def Runbook.fields : List (Member Runbook) :=
  [.of (lit "schema_version") .string (·.schemaVersion) fun x s => { s with schemaVersion := x },
   .of (lit "runbook_id") .string (·.runbookID) fun x s => { s with runbookID := x },
   .of (lit "version") .string (·.version) fun x s => { s with version := x },
   .of (lit "digest") .string (·.digest) fun x s => { s with digest := x },
   .of (lit "adapter_type") .string (·.adapterType) fun x s => { s with adapterType := x },
   .of (lit "target_constraints") (.slice TargetConstraint.codec) (·.targetConstraints)
     fun x s => { s with targetConstraints := x },
   .of (lit "typed_actions") (.slice TypedAction.codec) (·.typedActions)
     fun x s => { s with typedActions := x },
   .of (lit "risk_tier") RiskTier.codec (·.riskTier) fun x s => { s with riskTier := x },
   .of (lit "auto_execute") .bool (·.autoExecute) fun x s => { s with autoExecute := x },
   .of (lit "approval_policy") ApprovalPolicy.codec (·.approvalPolicy)
     fun x s => { s with approvalPolicy := x },
   .of (lit "preconditions") (.slice .string) (·.preconditions)
     fun x s => { s with preconditions := x },
   .of (lit "retry_policy") RetryPolicy.codec (·.retryPolicy)
     fun x s => { s with retryPolicy := x },
   .of (lit "stabilization_policy") StabilizationPolicy.codec (·.stabilizationPolicy)
     fun x s => { s with stabilizationPolicy := x }]

def Runbook.codec : Codec Runbook :=
  .struct Runbook.fields {} (by decide +kernel) (by decide +kernel) fun _ => by
    repeat' constructor

def RecoveryCommand.fields : List (Member RecoveryCommand) :=
  [.of (lit "schema_version") .string (·.schemaVersion) fun x s => { s with schemaVersion := x },
   .of (lit "command_id") .string (·.commandID) fun x s => { s with commandID := x },
   .of (lit "incident_id") .string (·.incidentID) fun x s => { s with incidentID := x },
   .of (lit "runbook_id") .string (·.runbookID) fun x s => { s with runbookID := x },
   .of (lit "runbook_digest") .string (·.runbookDigest) fun x s => { s with runbookDigest := x },
   .of (lit "target_id") .string (·.targetID) fun x s => { s with targetID := x },
   .of (lit "action_index") .int64 (·.actionIndex) fun x s => { s with actionIndex := x },
   .of (lit "risk_tier") RiskTier.codec (·.riskTier) fun x s => { s with riskTier := x },
   .omitEmpty (lit "approval_id") .string (·.approvalID)
     (fun x s => { s with approvalID := x }) List.isEmpty
     (fun _ => string_norm_eq_zero) (fun _ => rfl),
   .of (lit "issued_at") .time (·.issuedAt) fun x s => { s with issuedAt := x },
   .of (lit "expires_at") .time (·.expiresAt) fun x s => { s with expiresAt := x },
   .of (lit "idempotency_key") .string (·.idempotencyKey) fun x s => { s with idempotencyKey := x },
   .of (lit "state") RecoveryCommandState.codec (·.state) fun x s => { s with state := x }]

def RecoveryCommand.codec : Codec RecoveryCommand :=
  .struct RecoveryCommand.fields {} (by decide +kernel) (by decide +kernel) fun _ => by
    repeat' constructor

def Approval.fields : List (Member Approval) :=
  [.of (lit "schema_version") .string (·.schemaVersion) fun x s => { s with schemaVersion := x },
   .of (lit "approval_id") .string (·.approvalID) fun x s => { s with approvalID := x },
   .of (lit "command_id") .string (·.commandID) fun x s => { s with commandID := x },
   .of (lit "decision") ApprovalDecision.codec (·.decision) fun x s => { s with decision := x },
   .of (lit "approver_identity") .string (·.approverIdentity)
     fun x s => { s with approverIdentity := x },
   .of (lit "reason") .string (·.reason) fun x s => { s with reason := x },
   .of (lit "created_at") .time (·.createdAt) fun x s => { s with createdAt := x },
   .of (lit "expires_at") .time (·.expiresAt) fun x s => { s with expiresAt := x }]

def Approval.codec : Codec Approval :=
  .struct Approval.fields {} (by decide +kernel) (by decide +kernel) fun _ => by
    repeat' constructor

def AuditEvent.fields : List (Member AuditEvent) :=
  [.of (lit "schema_version") .string (·.schemaVersion) fun x s => { s with schemaVersion := x },
   .of (lit "event_id") .string (·.eventID) fun x s => { s with eventID := x },
   .of (lit "aggregate_type") .string (·.aggregateType) fun x s => { s with aggregateType := x },
   .of (lit "aggregate_id") .string (·.aggregateID) fun x s => { s with aggregateID := x },
   .of (lit "actor_identity") .string (·.actorIdentity) fun x s => { s with actorIdentity := x },
   .of (lit "action") .string (·.action) fun x s => { s with action := x },
   .of (lit "result") .string (·.result) fun x s => { s with result := x },
   .of (lit "reason_code") .string (·.reasonCode) fun x s => { s with reasonCode := x },
   .of (lit "occurred_at") .time (·.occurredAt) fun x s => { s with occurredAt := x },
   .omitEmpty (lit "previous_digest") .string (·.previousDigest)
     (fun x s => { s with previousDigest := x }) List.isEmpty
     (fun _ => string_norm_eq_zero) (fun _ => rfl),
   .of (lit "digest") .string (·.digest) fun x s => { s with digest := x }]

def AuditEvent.codec : Codec AuditEvent :=
  .struct AuditEvent.fields {} (by decide +kernel) (by decide +kernel) fun _ => by
    repeat' constructor

def DeliveryQueueItem.fields : List (Member DeliveryQueueItem) :=
  [.of (lit "schema_version") .string (·.schemaVersion) fun x s => { s with schemaVersion := x },
   .of (lit "delivery_id") .string (·.deliveryID) fun x s => { s with deliveryID := x },
   .of (lit "payload_type") DeliveryPayloadType.codec (·.payloadType)
     fun x s => { s with payloadType := x },
   .of (lit "payload_ref") .string (·.payloadRef) fun x s => { s with payloadRef := x },
   .of (lit "webhook_id") .string (·.webhookID) fun x s => { s with webhookID := x },
   .of (lit "destination_ref") .string (·.destinationRef) fun x s => { s with destinationRef := x },
   .of (lit "attempt_count") .int64 (·.attemptCount) fun x s => { s with attemptCount := x },
   .of (lit "next_attempt_at") .time (·.nextAttemptAt) fun x s => { s with nextAttemptAt := x },
   .of (lit "expires_at") .time (·.expiresAt) fun x s => { s with expiresAt := x },
   .of (lit "state") DeliveryState.codec (·.state) fun x s => { s with state := x }]

def DeliveryQueueItem.codec : Codec DeliveryQueueItem :=
  .struct DeliveryQueueItem.fields {} (by decide +kernel) (by decide +kernel) fun _ => by
    repeat' constructor

def LifecycleEvent.fields : List (Member LifecycleEvent) :=
  [.of (lit "schema_version") .string (·.schemaVersion) fun x s => { s with schemaVersion := x },
   .of (lit "event_id") .string (·.eventID) fun x s => { s with eventID := x },
   .of (lit "event_type") LifecycleEventType.codec (·.eventType)
     fun x s => { s with eventType := x },
   .of (lit "incident_id") .string (·.incidentID) fun x s => { s with incidentID := x },
   .of (lit "occurred_at") .time (·.occurredAt) fun x s => { s with occurredAt := x },
   .of (lit "reason_code") .string (·.reasonCode) fun x s => { s with reasonCode := x },
   .of (lit "evidence_refs") (.slice .string) (·.evidenceRefs)
     fun x s => { s with evidenceRefs := x }]

def LifecycleEvent.codec : Codec LifecycleEvent :=
  .struct LifecycleEvent.fields {} (by decide +kernel) (by decide +kernel) fun _ => by
    repeat' constructor

def Hypothesis.fields : List (Member Hypothesis) :=
  [.of (lit "summary") .string (·.summary) fun x s => { s with summary := x },
   .of (lit "evidence_refs") (.slice .string) (·.evidenceRefs)
     fun x s => { s with evidenceRefs := x }]

def Hypothesis.codec : Codec Hypothesis :=
  .struct Hypothesis.fields {} (by decide +kernel) (by decide +kernel) fun _ => by
    repeat' constructor

def ReportAction.fields : List (Member ReportAction) :=
  [.of (lit "command_id") .string (·.commandID) fun x s => { s with commandID := x },
   .of (lit "action_type") ActionType.codec (·.actionType) fun x s => { s with actionType := x },
   .of (lit "result") .string (·.result) fun x s => { s with result := x }]

def ReportAction.codec : Codec ReportAction :=
  .struct ReportAction.fields {} (by decide +kernel) (by decide +kernel) fun _ => by
    repeat' constructor

def IncidentReport.fields : List (Member IncidentReport) :=
  [.of (lit "schema_version") .string (·.schemaVersion) fun x s => { s with schemaVersion := x },
   .of (lit "report_id") .string (·.reportID) fun x s => { s with reportID := x },
   .of (lit "incident_id") .string (·.incidentID) fun x s => { s with incidentID := x },
   .of (lit "hypotheses") (.slice Hypothesis.codec) (·.hypotheses)
     fun x s => { s with hypotheses := x },
   .of (lit "evidence_refs") (.slice .string) (·.evidenceRefs)
     fun x s => { s with evidenceRefs := x },
   .of (lit "actions") (.slice ReportAction.codec) (·.actions) fun x s => { s with actions := x },
   .of (lit "approvals") (.slice .string) (·.approvals) fun x s => { s with approvals := x },
   .of (lit "verification_result") .string (·.verificationResult)
     fun x s => { s with verificationResult := x },
   .of (lit "prevention_recommendations") (.slice .string) (·.preventionRecommendations)
     fun x s => { s with preventionRecommendations := x },
   .of (lit "postmortem_draft") .string (·.postmortemDraft)
     fun x s => { s with postmortemDraft := x },
   .of (lit "runbook_improvement_suggestions") (.slice .string) (·.runbookImprovementSuggestions)
     fun x s => { s with runbookImprovementSuggestions := x },
   .of (lit "delivery_status") DeliveryState.codec (·.deliveryStatus)
     fun x s => { s with deliveryStatus := x }]

def IncidentReport.codec : Codec IncidentReport :=
  .struct IncidentReport.fields {} (by decide +kernel) (by decide +kernel) fun _ => by
    repeat' constructor

/-! ## Cleaning is idempotent -/

theorem idem_riskTier : RiskTier.codec.Idem := Codec.idem_named RiskTier.text_ofText

theorem idem_severity : Severity.codec.Idem := Codec.idem_named Severity.text_ofText

theorem idem_actionType : ActionType.codec.Idem := Codec.idem_named ActionType.text_ofText

theorem idem_recoveryCommandState : RecoveryCommandState.codec.Idem :=
  Codec.idem_named RecoveryCommandState.text_ofText

theorem idem_evidencePolicy : EvidencePolicy.codec.Idem := fun p =>
  congrArg (EvidencePolicy.mk · p.maxBytes) (Codec.idem_string p.redactionProfile)

theorem idem_probeRule : ProbeRule.codec.Idem := by
  intro r
  change ProbeRule.mk _ _ _ _ _ _ _ _ _ = ProbeRule.mk _ _ _ _ _ _ _ _ _
  congr 1
  · exact Codec.idem_string _
  · exact Codec.idem_string _
  · exact idem_severity _

theorem idem_serviceTarget : ServiceTarget.codec.Idem := by
  intro t
  change ServiceTarget.mk _ _ _ _ _ _ _ _ = ServiceTarget.mk _ _ _ _ _ _ _ _
  congr 1
  · exact Codec.idem_string _
  · exact Codec.idem_string _
  · exact Codec.idem_string _
  · exact Codec.idem_string _
  · exact Codec.idem_slice idem_probeRule _
  · exact idem_evidencePolicy _

theorem idem_typedAction : TypedAction.codec.Idem := by
  intro a
  change TypedAction.mk _ _ _ _ = TypedAction.mk _ _ _ _
  congr 1
  · exact idem_actionType _
  · exact Codec.idem_string _

theorem idem_recoveryCommand : RecoveryCommand.codec.Idem := by
  intro c
  change RecoveryCommand.mk _ _ _ _ _ _ _ _ _ _ _ _ _ =
    RecoveryCommand.mk _ _ _ _ _ _ _ _ _ _ _ _ _
  congr 1
  · exact Codec.idem_string _
  · exact Codec.idem_string _
  · exact Codec.idem_string _
  · exact Codec.idem_string _
  · exact Codec.idem_string _
  · exact Codec.idem_string _
  · exact idem_riskTier _
  · exact Codec.idem_string _
  · exact Codec.idem_string _
  · exact idem_recoveryCommandState _

end PulseAgent.Contract
