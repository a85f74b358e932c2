import PulseAgent.Contract.Accepted
import PulseAgent.Lifecycle.Repeat
import PulseAgent.Redaction.Digest

/-!
# Reading a report back

What keeps a stored report from being delivered is its size and nothing else.
-/

namespace PulseAgent.Report

open Go Go.Json Contract Concurrent
open Delivery (Environment interface Paired composeAt_ok)
open Lifecycle (quiet)

/-! ## What the reader makes of a report -/

def reportDocument : Document IncidentReport where
  codec := IncidentReport.codec
  version := IncidentReport.schemaVersion
  header := header_of_members (by decide +kernel)

theorem clean_of_safeText {value : Bytes} {limit : Nat} (h : safeText value limit = true) :
    Utf8.toValidUTF8 value = value := by
  simp only [safeText, Bool.and_eq_true] at h
  exact Utf8.toValidUTF8_of_valid h.1.1.1.2

theorem clean_of_validPostmortem {value : Bytes} (h : validPostmortem value = true) :
    Utf8.toValidUTF8 value = value := by
  simp only [validPostmortem, Bool.or_eq_true, decide_eq_true_eq] at h
  obtain rfl | h := h
  · rfl
  · exact clean_of_safeText h

theorem norm_slice {α : Type} {c : Codec α} {values : Option (List α)}
    (h : ∀ value ∈ elems values, c.norm value = value) : (Codec.slice c).norm values = values := by
  cases values with
  | none => rfl
  | some values =>
    have hvalues : values.map c.norm = values.map fun value => value := List.map_congr_left h
    change some (values.map c.norm) = some values
    rw [hvalues, List.map_id']

theorem norm_action {action : ReportAction}
    (hcommand : validIdentifier action.commandID maxReportIDLength = true)
    (htype : action.actionType = .dockerContainerRestart ∨
      action.actionType = .dockerComposeServiceRestart)
    (hresult : safeShortText action.result = true) : ReportAction.codec.norm action = action := by
  obtain ⟨commandID, actionType, result⟩ := action
  change ReportAction.mk (Utf8.toValidUTF8 commandID) (ActionType.codec.norm actionType)
    (Utf8.toValidUTF8 result) = _
  have hnorm : ActionType.codec.norm actionType = actionType := by
    obtain rfl | rfl : actionType = _ ∨ actionType = _ := htype
    · decide +kernel
    · decide +kernel
  rw [Delivery.clean_of_validIdentifier hcommand, hnorm, clean_of_safeText hresult]

section

variable [UnicodeTables]

theorem norm_hypothesis {hypothesis : Hypothesis}
    (hsummary : safeShortText hypothesis.summary = true)
    (hrefs : validEvidenceRefs (elems hypothesis.evidenceRefs) = true) :
    Hypothesis.codec.norm hypothesis = hypothesis := by
  obtain ⟨summary, evidenceRefs⟩ := hypothesis
  change Hypothesis.mk (Utf8.toValidUTF8 summary) ((Codec.slice Codec.string).norm evidenceRefs) = _
  rw [clean_of_safeText hsummary, norm_slice fun reference hreference =>
    ((Lifecycle.validEvidenceRefs_ok hrefs).2 reference hreference).2]

theorem norm_of_content {report : IncidentReport}
    (hversion : report.schemaVersion = schemaVersionV1)
    (hid : Utf8.toValidUTF8 report.reportID = report.reportID)
    (hincident : Utf8.toValidUTF8 report.incidentID = report.incidentID)
    (hstatus : report.deliveryStatus = .pending) (hcontent : validReportContent report = true) :
    IncidentReport.codec.norm report = report := by
  obtain ⟨schemaVersion, reportID, incidentID, hypotheses, evidenceRefs, actions, approvals,
    verificationResult, prevention, postmortem, improvements, deliveryStatus⟩ := report
  obtain rfl : schemaVersion = _ := hversion
  obtain rfl : deliveryStatus = _ := hstatus
  simp only [validReportContent, validHypotheses, validActions, validTextList, validApprovalIDs,
    Bool.and_eq_true, Bool.or_eq_true, List.all_eq_true, decide_eq_true_eq] at hcontent
  obtain ⟨⟨⟨⟨⟨⟨⟨hrefs, -, hhypotheses⟩, -, hactions⟩, -, happrovals⟩, hverification⟩,
    -, hprevention⟩,
    hpostmortem⟩, -, himprovements⟩ := hcontent
  change IncidentReport.mk (Utf8.toValidUTF8 schemaVersionV1) (Utf8.toValidUTF8 reportID)
    (Utf8.toValidUTF8 incidentID) ((Codec.slice Hypothesis.codec).norm hypotheses)
    ((Codec.slice Codec.string).norm evidenceRefs) ((Codec.slice ReportAction.codec).norm actions)
    ((Codec.slice Codec.string).norm approvals) (Utf8.toValidUTF8 verificationResult)
    ((Codec.slice Codec.string).norm prevention) (Utf8.toValidUTF8 postmortem)
    ((Codec.slice Codec.string).norm improvements) (DeliveryState.codec.norm .pending) = _
  have hversion : Utf8.toValidUTF8 schemaVersionV1 = schemaVersionV1 := by decide +kernel
  have hstatus : DeliveryState.codec.norm .pending = .pending := by decide +kernel
  rw [hversion, hstatus, show Utf8.toValidUTF8 reportID = reportID from hid,
    show Utf8.toValidUTF8 incidentID = incidentID from hincident,
    norm_slice fun hypothesis hmem => norm_hypothesis (hhypotheses hypothesis hmem).1
      (hhypotheses hypothesis hmem).2,
    norm_slice fun reference hmem => ((Lifecycle.validEvidenceRefs_ok hrefs).2 reference hmem).2,
    norm_slice fun action hmem => norm_action (hactions action hmem).1.1 (hactions action hmem).1.2
      (hactions action hmem).2,
    norm_slice fun approval hmem => Delivery.clean_of_validIdentifier (happrovals approval hmem),
    clean_of_safeText hverification,
    norm_slice fun value hmem => clean_of_safeText (hprevention value hmem),
    clean_of_validPostmortem hpostmortem,
    norm_slice fun value hmem => clean_of_safeText (himprovements value hmem)]

omit [UnicodeTables] in
theorem validIdentifier_stableReportID (incidentID idempotencyKey : Bytes)
    (terminalState : IncidentState) :
    validIdentifier (stableReportID incidentID terminalState idempotencyKey)
      maxReportIDLength = true := by
  unfold stableReportID
  generalize hsum : Sha256.sum256
    (terminalState.text ++ 0 :: incidentID ++ 0 :: idempotencyKey) = sum
  have hlength : sum.length = 32 := by
    rw [← hsum]
    exact Sha256.sum256_length _
  have hbound : (lit "report-" ++ Hex.encode sum).length ≤ maxReportIDLength := by
    rw [List.length_append, Hex.encode_length, hlength]
    decide
  have hzero : (lit "report-" ++ Hex.encode sum).contains 0 = false := by
    rw [Bool.eq_false_iff]
    intro h
    exact absurd (Redaction.mem_digestAlphabet sum 0 (List.contains_iff_mem.mp h)) (by decide)
  simp only [validIdentifier, Lifecycle.validIdentifier, Redaction.trimSpace_digest,
    Redaction.not_containsSensitive_digest, hzero, Bool.and_eq_true, Bool.not_false,
      decide_eq_true_eq,
    and_true]
  exact ⟨List.append_ne_nil_of_left_ne_nil (by decide) _, hbound⟩

/-! ## The report of an input -/

def encodedLength (input : Input) : Nat :=
  match composeHypotheses input with
  | .error _ => 0
  | .ok (hypotheses, evidenceRefs) =>
    ((IncidentReport.codec.marshal (newReport input hypotheses evidenceRefs)).getD []).length

def Composes (input : Input) (document : Bytes) : Prop :=
  ∃ occurredAt report event, composeAt input occurredAt = .ok (report, event) ∧
    IncidentReport.codec.marshal report = some document

def reportID (input : Input) : Bytes :=
  stableReportID input.incidentID input.terminalState input.idempotencyKey

variable {input : Input} {document : Bytes}

theorem reportID_of_compose {occurredAt : Time} {report : IncidentReport} {event : Lifecycle.Input}
    (h : composeAt input occurredAt = .ok (report, event)) : report.reportID = reportID input := by
  obtain ⟨hypotheses, evidenceRefs, -, -, rfl, -⟩ := composeAt_ok h
  rfl

theorem encodedLength_of_composes (h : Composes input document) :
    encodedLength input = document.length := by
  obtain ⟨occurredAt, report, event, hcompose, hdocument⟩ := h
  obtain ⟨hypotheses, evidenceRefs, -, hhypotheses, rfl, -⟩ := composeAt_ok hcompose
  unfold encodedLength
  rw [hhypotheses]
  dsimp only
  rw [hdocument]
  rfl

theorem decodeReport_marshal {occurredAt : Time} {report : IncidentReport} {event : Lifecycle.Input}
    (hcompose : composeAt input occurredAt = .ok (report, event))
    (hdocument : IncidentReport.codec.marshal report = some document)
    (hlength : document.length ≤ maxDocumentBytes) : decodeReport document = .ok report := by
  obtain ⟨hypotheses, evidenceRefs, hinput, -, hreport, hvalid, hcontent, -⟩ :=
    composeAt_ok hcompose
  have hid : report.reportID =
    stableReportID input.incidentID input.terminalState input.idempotencyKey :=
    reportID_of_compose hcompose
  have hidentifier := validIdentifier_stableReportID input.incidentID input.idempotencyKey
    input.terminalState
  have hincident : validIdentifier report.incidentID maxReportIDLength = true := by
    simp only [validInput, Bool.and_eq_true] at hinput
    rw [hreport]
    exact hinput.1.1.1.1.1.1.1.1.1.1
  have hversion : report.schemaVersion = schemaVersionV1 := by
    rw [hreport]
    rfl
  rw [← hid] at hidentifier
  have hnorm : IncidentReport.codec.norm report = report :=
    norm_of_content hversion (Delivery.clean_of_validIdentifier hidentifier)
      (Delivery.clean_of_validIdentifier hincident) (by rw [hreport]; rfl) hcontent
  obtain ⟨⟨⟩, hvalid⟩ := exists_of_isOk hvalid
  have hdecode := decode_marshal reportDocument
    ⟨maxDocumentBytes, schemaVersionV1, IncidentReport.validate⟩
      hdocument ⟨by decide, by decide +kernel⟩
    (Int.ofNat_le.mpr hlength) (by
      change Utf8.toValidUTF8 report.schemaVersion = schemaVersionV1
      rw [hversion]
      decide +kernel)
  change decode IncidentReport.codec _ document =
    Except.map (fun _ => IncidentReport.codec.norm _)
      (IncidentReport.validate (IncidentReport.codec.norm _))
    at hdecode
  rw [hnorm, hvalid] at hdecode
  unfold decodeReport
  rw [hdecode]
  dsimp only [Except.map]
  rw [hidentifier, hincident, hcontent]
  rfl

theorem decodeReport_length {report : IncidentReport} (h : decodeReport document = .ok report) :
    document.length ≤ maxDocumentBytes := by
  unfold decodeReport at h
  split at h
  case h_1 => cases h
  case h_2 hdecode => exact Int.ofNat_le.mp (decode_ok.mp hdecode).2.1

/-! ## What a publication stores -/

/-- Every stored report satisfies the predicate, as does its key. -/
def Reports (P : Bytes → Bytes → Prop) (s : Store) : Prop :=
  ∀ key document : Bytes, (s .incidentReports)[key]? = some document → P key document

/-- What is enqueued: payloads, of which the reports satisfy the predicate. -/
def Stores (P : Bytes → Bytes → Prop) (_ : Delivery.EnqueueRequest)
    (mutation : Option (TxProg Unit)) :
    Prop :=
  ∃ bucket key document present, Delivery.isPayload bucket = true ∧
    mutation = some (Lifecycle.storePayload bucket key document present) ∧
    (bucket = .incidentReports → P key document)

abbrev Storing (P : Bytes → Bytes → Prop) : Delivery.History → Delivery.Op → Prop :=
  Delivery.Allowed (fun _ => True) (fun _ => True) (Stores P)

section Reports

variable {P : Bytes → Bytes → Prop}

omit [UnicodeTables] in
theorem Reports.of_same {s s' : Store} (h : Reports P s)
    (hsame : s' .incidentReports = s .incidentReports) : Reports P s' := by
  intro key document hdocument
  rw [hsame] at hdocument
  exact h key document hdocument

omit [UnicodeTables] in
/-- The step lemma for a publication. -/
theorem Reports.enqueue {maxQueueItems : Nat} {item : Delivery.Item} {bucket : Bucket}
    {key document : Bytes} {present : Error} {s s' : Store} {u : Unit} (h : Reports P s)
    (hstored : bucket = .incidentReports → P key document)
    (hbody : Delivery.enqueueItem maxQueueItems item
      (some (Lifecycle.storePayload bucket key document present)) s = .ok (u, s')) :
        Reports P s' := by
  obtain ⟨_, s1, hstore, hadmit⟩ := Tx.bind_ok.mp hbody
  obtain ⟨-, rfl⟩ := Delivery.storePayload_ok hstore
  obtain ⟨_, -, rfl⟩ := Delivery.admitItem_ok.mp hadmit
  intro other found hfound
  rw [Function.update_of_ne (by decide)] at hfound
  by_cases hreports : bucket = .incidentReports
  · obtain rfl := hreports
    rw [Function.update_self, Std.ExtTreeMap.getElem?_insert] at hfound
    split at hfound
    case isTrue hcompare =>
      cases hfound
      obtain rfl := Std.LawfulEqCmp.eq_of_compare hcompare
      exact hstored rfl
    case isFalse => exact h other found hfound
  · rw [Function.update_of_ne (Ne.symm hreports)] at hfound
    exact h other found hfound

omit [UnicodeTables] in
/-- The step lemma: every call keeps the predicate. -/
theorem Reports.perform {s : Store} (h : Reports P s) {past : Delivery.History} {o : Delivery.Op}
    (hallowed : Storing P past o) (env : Environment) : Reports P (Delivery.perform o env s).2 := by
  cases o with
  | tx t =>
    change Reports P (t.run env.fault s).2
    obtain heq | ⟨a, hbody⟩ := t.run_state env.fault s
    · rw [heq]
      exact h
    · cases t with
      | enqueue maxQueueItems item mutation =>
        obtain ⟨d, request, -, rfl, ⟨bucket, key, payload, present, -, rfl, hstored⟩, -⟩ := hallowed
        exact h.enqueue hstored hbody
      | _ => exact h.of_same (Delivery.body_payloads (by rintro _ _ _ ⟨⟩) hbody rfl)
  | _ => exact h

theorem stores_within (p : Publisher) (input : Input)
    (hP : ∀ document, Composes input document → P (reportRecordKey (reportID input)) document) :
    (Delivery.Call.publishTerminal p input).Within (fun _ => True) (fun _ => True) (Stores P) := by
  refine ⟨trivial, fun occurredAt report event hcompose => ⟨⟨trivial, ?_⟩, ?_⟩⟩
  · intro event document _ _
    exact ⟨.lifecycleEvents, _, document, _, rfl, rfl, by rintro ⟨⟩⟩
  · intro document hdocument
    refine ⟨.incidentReports, _, document, _, rfl, rfl, fun _ => ?_⟩
    rw [reportID_of_compose hcompose]
    exact hP document ⟨occurredAt, report, event, hcompose, hdocument⟩

theorem reports_of_publishTerminal (p : Publisher)
    (hP : ∀ document, Composes input document → P (reportRecordKey (reportID input)) document)
    (answers : Answers interface) {s : Store} (hs : Reports P s) :
    Reports P ((p.publishTerminal input).exec answers s).state := by
  have hsat : (p.publishTerminal input).Sat (Storing P) (fun _ _ => True) [] :=
    Delivery.sat_publishTerminal (stores_within p input hP)
  have hstep : ∀ h o (env : Environment) s, Storing P h o → Reports P s →
      Reports P (Delivery.perform o env s).2 :=
    fun _ _ env _ hallowed hreports => hreports.perform hallowed env
  exact hsat.exec_state hstep answers hs

end Reports

/-- A report that was not there before a publication is the report of its input. -/
theorem composes_of_stored (p : Publisher) {answers : Answers interface} {s : Store} {key : Bytes}
    (habsent : (s .incidentReports)[key]? = none)
    (hstored : (((p.publishTerminal input).exec answers s).state .incidentReports)[key]? =
      some document) :
    Composes input document := by
  let P : Bytes → Bytes → Prop := fun key document =>
    (s .incidentReports)[key]? = some document ∨ Composes input document
  have hreports : Reports P ((p.publishTerminal input).exec answers s).state :=
    reports_of_publishTerminal p (fun _ => .inr) answers fun _ _ => .inl
  obtain hold | hcomposes := hreports key document hstored
  · rw [habsent] at hold
    cases hold
  · exact hcomposes

/-! ## The payload source -/

/-- The document is read as a report of this ID. -/
def Readable (document payloadRef : Bytes) : Prop :=
  ∃ report, decodeReport document = .ok report ∧ report.reportID = payloadRef

theorem loadPayload_ends {s : Store} {payloadRef : Bytes}
    (href : validIdentifier payloadRef maxReportIDLength = true)
    (hdocument : (s .incidentReports)[reportRecordKey payloadRef]? = some document) :
    (loadPayload payloadRef).Ends
      quiet (fun value _ => Readable document payloadRef ∧ value = .ok document ∨
      ¬Readable document payloadRef ∧ value = .error errCorruptPayload) s := by
  unfold loadPayload
  rw [href]
  refine .call_bind fun env hquiet => ?_
  have hctx : interface.perform .itemCtxErr env s = (none, s) := Prod.ext hquiet.1 rfl
  rw [hctx]
  dsimp only
  refine .call_bind fun env hquiet => ?_
  have hget : Tx.get .incidentReports (reportRecordKey payloadRef) s = .ok (some document, s) :=
    Tx.get_ok.mpr ⟨List.append_ne_nil_of_left_ne_nil (by decide) _, hdocument.symm, rfl⟩
  have hrun : interface.perform (.tx (.read "load incident report payload: " .incidentReports
      (reportRecordKey payloadRef))) env s = (.ok (some document), s) := by
    change Delivery.Transaction.run _ (Environment.fault env) s = _
    rw [hquiet.2]
    exact Delivery.Transaction.run_of_ok hget
  rw [hrun]
  dsimp only
  split
  case h_1 e herror =>
    refine .inr ⟨?_, rfl⟩
    rintro ⟨report, hreport, -⟩
    cases herror.symm.trans hreport
  case h_2 report hreport =>
    split
    case isTrue hid => exact .inl ⟨⟨report, hreport, hid⟩, rfl⟩
    case isFalse hid =>
      refine .inr ⟨?_, rfl⟩
      rintro ⟨report', hreport', hid'⟩
      obtain rfl := Except.ok.inj (hreport.symm.trans hreport')
      exact hid hid'

theorem loadPayload_unreadable {s : Store} {payloadRef : Bytes}
    (href : validIdentifier payloadRef maxReportIDLength = true)
    (hdocument : (s .incidentReports)[reportRecordKey payloadRef]? = some document)
    (hunreadable : ¬Readable document payloadRef) {answers : Answers interface}
    (hquiet : ∀ i o, quiet o (answers i o)) :
    ((loadPayload payloadRef).exec answers s).value = .error errCorruptPayload := by
  obtain ⟨hreadable, -⟩ | ⟨-, hvalue⟩ := (loadPayload_ends href hdocument).exec hquiet
  · exact absurd hreadable hunreadable
  · exact hvalue

theorem readable_iff (h : Composes input document) :
    Readable document (reportID input) ↔ encodedLength input ≤ maxDocumentBytes := by
  rw [encodedLength_of_composes h]
  obtain ⟨occurredAt, report, event, hcompose, hdocument⟩ := h
  constructor
  · rintro ⟨_, hreport, -⟩
    exact decodeReport_length hreport
  · exact fun hlength => ⟨report, decodeReport_marshal hcompose hdocument hlength,
      reportID_of_compose hcompose⟩

/-- A report that a publication stored is returned by the payload source at any later time, whatever
publishers and passes over the queue did since, exactly if its encoding is within the limit of the
reader. -/
theorem stored_report_readable_iff (p : Publisher) (input : Input)
    {answers answers' : Answers interface}
    {s : Store} (habsent : (s .incidentReports)[reportRecordKey (reportID input)]? = none)
    {document : Bytes}
    (hstored : (((p.publishTerminal input).exec answers s).state .incidentReports)[
      reportRecordKey (reportID input)]? = some document)
    (actions : List (Action Delivery.system))
    (hcalls : ∀ call, Action.spawn call ∈ actions → call.Pairs)
    (hquiet : ∀ i o, quiet o (answers' i o)) :
    ((loadPayload (reportID input)).exec answers'
        (Delivery.run ((p.publishTerminal input).exec answers s).state actions).state).value =
          .ok document ↔
      encodedLength input ≤ maxDocumentBytes := by
  have hcomposes := composes_of_stored p habsent hstored
  have hkept := Delivery.payloadsKept_of_run
    ((p.publishTerminal input).exec answers s).state actions
    hcalls .incidentReports _ document rfl hstored
  have href : validIdentifier (reportID input) maxReportIDLength = true :=
    validIdentifier_stableReportID _ _ _
  rw [← readable_iff hcomposes]
  obtain ⟨hreadable, hvalue⟩ | ⟨hunreadable, hvalue⟩ := (loadPayload_ends href hkept).exec hquiet
  · exact iff_of_true hvalue hreadable
  · refine iff_of_false ?_ hunreadable
    rw [hvalue]
    rintro ⟨⟩

end

/-! ## A report too long for its reader -/

def exampleQueue : Delivery.Dispatcher :=
  { Delivery.exampleDispatcher with maxQueueItems := 2, queueItems := by decide }

theorem exampleDestination_valid : validIdentifier (lit "ops") maxReportIDLength = true := by
  decide +kernel

theorem exampleTTL_valid :
    1000000000 ≤ (60000000000 : Int) ∧ (60000000000 : Int) ≤ Lifecycle.maxDeliveryTTL := by
  decide

def examplePublisher : Publisher where
  queue := exampleQueue
  lifecycle := { Delivery.examplePublisher with queue := exampleQueue }
  destinationRef := lit "ops"
  deliveryTTL := 60000000000
  destination := exampleDestination_valid
  ttl := exampleTTL_valid

def exampleInput : Input where
  incidentID := lit "incident_01"
  terminalState := .closed
  idempotencyKey := lit "key_01"
  occurredAt := 63776073600000000000
  analysis := none
  analysisUnavailable := true
  evidenceRefs := []
  actions := []
  approvalIDs := []
  verificationResult := lit "healthy"
  preventionRecommendations := []
  postmortemDraft := []
  runbookImprovementSuggestions := []

/-- Every call is answered at the given time, and the generators count. -/
def numberedAnswers (now : Time) : Answers interface := fun i o =>
  { Delivery.exampleAnswers o with now := now, id := .ok (lit "id_" ++ [UInt8.ofNat (97 + i)]) }

theorem example_readable :
    ∃ document, (((@Publisher.publishTerminal asciiTables examplePublisher exampleInput).exec
        (numberedAnswers 63776073600000000000) Store.empty).state .incidentReports)[
          reportRecordKey (reportID exampleInput)]? = some document ∧
      ((@loadPayload asciiTables (reportID exampleInput)).exec
        (numberedAnswers 63776073700000000000)
        (@Delivery.run asciiTables
          ((@Publisher.publishTerminal asciiTables examplePublisher exampleInput).exec
            (numberedAnswers 63776073600000000000) Store.empty).state []).state).value =
              .ok document := by
  have hsome : ((((@Publisher.publishTerminal asciiTables examplePublisher exampleInput).exec
      (numberedAnswers 63776073600000000000) Store.empty).state .incidentReports)[
        reportRecordKey (reportID exampleInput)]?).isSome = true := by
    decide +kernel
  obtain ⟨document, hdocument⟩ := Option.isSome_iff_exists.mp hsome
  have hreadable := @stored_report_readable_iff asciiTables examplePublisher exampleInput _
    (numberedAnswers 63776073700000000000) _ rfl _ hdocument []
    (fun _ h => absurd h List.not_mem_nil)
    fun _ _ => ⟨rfl, rfl⟩
  exact ⟨document, hdocument, hreadable.mpr (by decide +kernel)⟩

/-- Each of the recommendations has the longest text allowed, and every character of it takes six
bytes. -/
def longInput : Input :=
  { exampleInput with preventionRecommendations := List.replicate 22 (List.replicate 512 60) }

theorem long_composes {document : Bytes} (h : @Composes asciiTables longInput document) :
    maxDocumentBytes < document.length := by
  obtain ⟨occurredAt, report, event, hcompose, hdocument⟩ := h
  obtain ⟨hypotheses, evidenceRefs, -, -, hreport, -⟩ := @composeAt_ok asciiTables _ _ _ _ hcompose
  have hsize := Codec.size_le_marshal hdocument (f := .of (lit "prevention_recommendations")
    (.slice .string) (·.preventionRecommendations) fun x s =>
      { s with preventionRecommendations := x })
    (by simp [IncidentReport.fields])
  obtain ⟨text, htext, hlength⟩ :=
    Codec.slice_replicate (c := .string) (a := List.replicate 512 60) rfl 22
  have hprevention : report.preventionRecommendations =
    some (List.replicate 22 (List.replicate 512 60)) := by
    rw [hreport]
    rfl
  have hone : (render (.str (List.replicate 512 60))).length = 3074 := by decide +kernel
  rw [Member.size_of, hprevention, htext] at hsize
  rw [hone] at hlength
  simp only [Member.textSize] at hsize
  have hlimit : maxDocumentBytes = 65536 := rfl
  omega

/-- The report is stored and queued, and its source cannot read it. -/
theorem long_report_unreadable :
    ∃ document, (((@Publisher.publishTerminal asciiTables examplePublisher longInput).exec
        (numberedAnswers 63776073600000000000) Store.empty).state .incidentReports)[
          reportRecordKey (reportID longInput)]? = some document ∧
      ((@loadPayload asciiTables (reportID longInput)).exec (numberedAnswers 63776073600000000000)
        ((@Publisher.publishTerminal asciiTables examplePublisher longInput).exec
          (numberedAnswers 63776073600000000000) Store.empty).state).value =
            .error errCorruptPayload := by
  have hsome : ((((@Publisher.publishTerminal asciiTables examplePublisher longInput).exec
      (numberedAnswers 63776073600000000000) Store.empty).state .incidentReports)[
        reportRecordKey (reportID longInput)]?).isSome = true := by
    decide +kernel
  obtain ⟨document, hdocument⟩ := Option.isSome_iff_exists.mp hsome
  have hcomposes := @composes_of_stored asciiTables _ _ examplePublisher _ Store.empty
    _ rfl hdocument
  have href : validIdentifier (reportID longInput) maxReportIDLength = true :=
    validIdentifier_stableReportID _ _ _
  refine ⟨document, hdocument, ?_⟩
  have hunreadable : ¬@Readable asciiTables document (reportID longInput) := by
    rintro ⟨report, hreport, -⟩
    exact absurd (@decodeReport_length asciiTables _ _ hreport)
      (not_le.mpr (long_composes hcomposes))
  exact @loadPayload_unreadable asciiTables _ _ _ href hdocument hunreadable _ fun _ _ => ⟨rfl, rfl⟩

end PulseAgent.Report
