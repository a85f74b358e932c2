import Mathlib
import PulseAgent.Lifecycle.Publisher

/-!
# Terminal incident reports

A terminal transition is published as a report and then as a lifecycle event, each in its own
transaction with its queue item.
-/

namespace PulseAgent.Report

open Go Go.Json Contract Delivery

def maxReportIDLength : Nat := 128
def maxShortTextLength : Nat := 512
def maxPostmortemTextLength : Nat := 4096
def reportRecordPrefix : Bytes := lit "report/"

def errInvalidInput : Error := .new "invalid incident report input"
def errPayloadNotFound : Error := .new "incident report payload not found"
def errCorruptPayload : Error := .new "corrupt incident report payload"
def errReportExists : Error := .new "incident report already exists"

/-- The package has its own copies of these two checks. -/
def validIdentifier (value : Bytes) (limit : Nat) : Bool := Lifecycle.validIdentifier value limit

def validEvidenceRefs [UnicodeTables] (references : List Bytes) : Bool :=
  Lifecycle.validEvidenceRefs references

def safeText (value : Bytes) (limit : Nat) : Bool :=
  value ≠ [] && value.length ≤ limit && Utf8.validString value && Strings.trimSpace value = value &&
    !value.contains 0 && !Redaction.containsSensitive value

def safeShortText (value : Bytes) : Bool := safeText value maxShortTextLength

def validPostmortem (value : Bytes) : Bool :=
  value = [] || safeText value maxPostmortemTextLength

def validTextList (values : List Bytes) : Bool := values.length ≤ 64 && values.all safeShortText

def validApprovalIDs (approvalIDs : List Bytes) : Bool :=
  approvalIDs.length ≤ 64 && approvalIDs.all (validIdentifier · maxReportIDLength)

def validActions (actions : List ReportAction) : Bool :=
  actions.length ≤ 64 && actions.all fun action =>
    validIdentifier action.commandID maxReportIDLength &&
      (action.actionType = .dockerContainerRestart ||
        action.actionType = .dockerComposeServiceRestart) && safeShortText action.result

def stableReportID (incidentID : Bytes) (terminalState : IncidentState) (idempotencyKey : Bytes) :
    Bytes :=
  lit "report-" ++
    Hex.encode (Sha256.sum256 (terminalState.text ++ 0 :: incidentID ++ 0 :: idempotencyKey))

def reportRecordKey (reportID : Bytes) : Bytes :=
  reportRecordPrefix ++ Hex.encode (Sha256.sum256 reportID)

structure Input where
  incidentID : Bytes
  terminalState : IncidentState
  idempotencyKey : Bytes
  occurredAt : Time
  analysis : Option AnalysisResult
  analysisUnavailable : Bool
  evidenceRefs : List Bytes
  actions : List ReportAction
  approvalIDs : List Bytes
  verificationResult : Bytes
  preventionRecommendations : List Bytes
  postmortemDraft : Bytes
  runbookImprovementSuggestions : List Bytes

section

variable [UnicodeTables]

def validHypotheses (hypotheses : List Hypothesis) : Bool :=
  hypotheses ≠ [] && hypotheses.length ≤ 64 && hypotheses.all fun hypothesis =>
    safeShortText hypothesis.summary && validEvidenceRefs (elems hypothesis.evidenceRefs)

def validReportContent (report : IncidentReport) : Bool :=
  validEvidenceRefs (elems report.evidenceRefs) && validHypotheses (elems report.hypotheses) &&
    validActions (elems report.actions) && validApprovalIDs (elems report.approvals) &&
    safeShortText report.verificationResult &&
    validTextList (elems report.preventionRecommendations) &&
    validPostmortem report.postmortemDraft &&
    validTextList (elems report.runbookImprovementSuggestions)

/-- The references of an analysis that are not among the incident's own come after them. -/
def mergeReferences (references added : List Bytes) : List Bytes :=
  added.foldl (fun acc reference => if reference ∈ acc then acc else acc ++ [reference]) references

def cloneHypotheses (values : List Hypothesis) : List Hypothesis :=
  values.map fun value =>
    { summary := value.summary, evidenceRefs := some (elems value.evidenceRefs) }

def composeHypotheses (input : Input) : Except Error (List Hypothesis × List Bytes) :=
  match input.analysis with
  | none =>
    if input.analysisUnavailable then
      .ok ([{ summary := lit "Analysis unavailable; root cause not determined.",
              evidenceRefs := some input.evidenceRefs }], input.evidenceRefs)
    else .error errInvalidInput
  | some analysis =>
    if input.analysisUnavailable || !analysis.validate.isOk ||
        analysis.incidentID ≠ input.incidentID || !validHypotheses (elems analysis.hypotheses) ||
        !validEvidenceRefs (elems analysis.evidenceRefs) then .error errInvalidInput
    else
      let references := mergeReferences input.evidenceRefs (elems analysis.evidenceRefs)
      if validEvidenceRefs references then
        .ok (cloneHypotheses (elems analysis.hypotheses), references)
      else .error errInvalidInput

def cloneOrDefault (values : List Bytes) (fallback : Bytes) : List Bytes :=
  if values.isEmpty then [fallback] else values

def validInput (input : Input) (occurredAt : Time) : Bool :=
  validIdentifier input.incidentID maxReportIDLength &&
    validIdentifier input.idempotencyKey maxReportIDLength &&
    (input.terminalState = .closed || input.terminalState = .failed) && !occurredAt.isZero &&
    validEvidenceRefs input.evidenceRefs && validActions input.actions &&
    validApprovalIDs input.approvalIDs && safeShortText input.verificationResult &&
    validTextList input.preventionRecommendations && validPostmortem input.postmortemDraft &&
    validTextList input.runbookImprovementSuggestions

def newReport (input : Input) (hypotheses : List Hypothesis) (evidenceRefs : List Bytes) :
    IncidentReport where
  schemaVersion := schemaVersionV1
  reportID := stableReportID input.incidentID input.terminalState input.idempotencyKey
  incidentID := input.incidentID
  hypotheses := some hypotheses
  evidenceRefs := some evidenceRefs
  actions := some input.actions
  approvals := some input.approvalIDs
  verificationResult := input.verificationResult
  preventionRecommendations := some (cloneOrDefault input.preventionRecommendations
    (lit "Review recurrence controls for this incident class."))
  postmortemDraft :=
    if input.postmortemDraft = [] then
      lit "Terminal incident summary recorded for " ++ input.incidentID ++ lit "."
    else input.postmortemDraft
  runbookImprovementSuggestions := some (cloneOrDefault input.runbookImprovementSuggestions
    (lit "Review runbook coverage for this incident class."))
  deliveryStatus := .pending

/-- The lifecycle event that goes with the report. -/
def pairedEvent (input : Input) (evidenceRefs : List Bytes) (occurredAt : Time) : Lifecycle.Input :=
  let failed := input.terminalState = .failed
  let eventType : LifecycleEventType := if failed then .incidentFailed else .incidentClosed
  { eventID := Lifecycle.stableEventID eventType input.incidentID input.idempotencyKey
    eventType := eventType
    incidentID := input.incidentID
    reasonCode := if failed then lit "terminal_failed" else lit "terminal_closed"
    evidenceRefs := evidenceRefs
    occurredAt := occurredAt }

/-- `compose` once the time of the transition is known. -/
def composeAt (input : Input) (occurredAt : Time) :
    Except Error (IncidentReport × Lifecycle.Input) :=
  if validInput input occurredAt then
    match composeHypotheses input with
    | .error e => .error e
    | .ok (hypotheses, evidenceRefs) =>
      let report := newReport input hypotheses evidenceRefs
      if report.validate.isOk && validReportContent report then
        .ok (report, pairedEvent input evidenceRefs occurredAt)
      else .error errInvalidInput
  else .error errInvalidInput

def decodeReport (document : Bytes) : Except Error IncidentReport :=
  match decode IncidentReport.codec
      ⟨maxDocumentBytes, schemaVersionV1, IncidentReport.validate⟩ document with
  | .error _ => .error errCorruptPayload
  | .ok report =>
    if validIdentifier report.reportID maxReportIDLength &&
        validIdentifier report.incidentID maxReportIDLength && validReportContent report then
      .ok report
    else .error errCorruptPayload

def sameReport (left right : IncidentReport) : Bool :=
  match IncidentReport.codec.marshal left, IncidentReport.codec.marshal right with
  | some leftDocument, some rightDocument => leftDocument = rightDocument
  | _, _ => false

/-- The options `New` accepts. -/
structure Publisher where
  queue : Dispatcher
  lifecycle : Lifecycle.Publisher
  destinationRef : Bytes
  deliveryTTL : Int
  destination : validIdentifier destinationRef maxReportIDLength = true
  ttl : 1000000000 ≤ deliveryTTL ∧ deliveryTTL ≤ Lifecycle.maxDeliveryTTL

structure Result where
  report : IncidentReport
  reportQueueItem : Option Item := none
  lifecycleQueueItem : Option Item := none
  duplicate : Bool

namespace Publisher

def compose (input : Input) : Prog (Except Error (IncidentReport × Lifecycle.Input)) := do
  if input.occurredAt.isZero then
    let now ← call .clock
    pure (composeAt input now)
  else pure (composeAt input input.occurredAt)

def checkedReport (reportID : Bytes) : Option Bytes → Except Error (Option IncidentReport)
  | none => .ok none
  | some document =>
    match decodeReport document with
    | .error _ => .error errCorruptPayload
    | .ok report =>
      if report.reportID = reportID then .ok (some report) else .error errCorruptPayload

def load (reportID : Bytes) : Prog (Except Error (Option IncidentReport)) := do
  match ← commit (.read "load incident report: " .incidentReports (reportRecordKey reportID)) with
  | .error e => pure (.error e)
  | .ok found => pure (checkedReport reportID found)

def enqueueRequest (p : Publisher) (report : IncidentReport) (occurredAt : Time) :
    EnqueueRequest where
  payloadType := .incidentReport
  payloadRef := report.reportID
  destinationRef := p.destinationRef
  expiresAt := occurredAt + p.deliveryTTL

/-- The report was stored between the look at the store and the transaction. -/
def reportLost (report : IncidentReport) : Prog (Except Error Result) := do
  match ← load report.reportID with
  | .error e => pure (.error e)
  | .ok none => pure (.error errCorruptPayload)
  | .ok (some existing) =>
    if sameReport existing report then pure (.ok { report := existing, duplicate := true })
    else pure (.error errCorruptPayload)

def reportNew (p : Publisher) (report : IncidentReport) (document : Bytes) (occurredAt : Time) :
    Prog (Except Error Result) := do
  match ← p.queue.enqueue (p.enqueueRequest report occurredAt)
      (some (Lifecycle.storePayload .incidentReports (reportRecordKey report.reportID) document
        errReportExists)) with
  | .ok item =>
    pure (.ok { report := report, reportQueueItem := some item, duplicate := false })
  | .error e =>
    if e.is errReportExists then reportLost report
    else pure (.error (.wrap "enqueue incident report: " e ""))

/-- The first of the two publications. -/
def publishReport (p : Publisher) (report : IncidentReport) (document : Bytes) (occurredAt : Time) :
    Prog (Except Error Result) := do
  match ← load report.reportID with
  | .error e => pure (.error e)
  | .ok (some existing) =>
    if sameReport existing report then pure (.ok { report := existing, duplicate := true })
    else pure (.error errInvalidInput)
  | .ok none => p.reportNew report document occurredAt

def publishTerminal (p : Publisher) (input : Input) : Prog (Except Error Result) := do
  match ← call .ctxErr with
  | some e => pure (.error e)
  | none =>
    match ← compose input with
    | .error e => pure (.error e)
    | .ok (report, event) =>
      match encode IncidentReport.codec "encode incident report: " report with
      | .error e => pure (.error e)
      | .ok document =>
        match ← p.publishReport report document event.occurredAt with
        | .error e => pure (.error e)
        | .ok result =>
          match ← p.lifecycle.publish event with
          | .error e => pure (.error (.wrap "enqueue terminal lifecycle event: " e ""))
          | .ok lifecycleResult =>
            pure (.ok { result with
              lifecycleQueueItem := lifecycleResult.queueItem
              duplicate := result.duplicate && lifecycleResult.duplicate })

end Publisher

/-- `Source.Load`, on the reference of an incident report. -/
def loadPayload (payloadRef : Bytes) : Prog (Except Error Bytes) := do
  if !validIdentifier payloadRef maxReportIDLength then return .error errInvalidInput
  match ← call .itemCtxErr with
  | some e => pure (.error e)
  | none =>
    match ← commit (.read "load incident report payload: " .incidentReports
        (reportRecordKey payloadRef)) with
    | .error e => pure (.error e)
    | .ok none => pure (.error errPayloadNotFound)
    | .ok (some document) =>
      match decodeReport document with
      | .error _ => pure (.error errCorruptPayload)
      | .ok report =>
        if report.reportID = payloadRef then pure (.ok document)
        else pure (.error errCorruptPayload)

end

end PulseAgent.Report
