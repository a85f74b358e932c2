import PulseAgent.Report.Stored

/-!
# Publishing a terminal transition again

The report has no time of its own; the event has the time of the transition. Publishing the same
input again is a duplicate of both exactly if the report can be read back and the time is the same.
-/

namespace PulseAgent.Report

open Go Go.Json Contract Concurrent
open Delivery (Environment interface Paired composeAt_ok)
open Lifecycle (quiet Published Holds Repeats)

section

variable [UnicodeTables]

/-! ## Stored reports -/

/-- Every stored report was composed by a publisher. -/
def Written : Store → Prop := Reports fun _ document => ∃ input, Composes input document

theorem Written.within {call : Delivery.Call} (h : call.Pairs) :
    call.Within (fun _ => True) (fun _ => True)
      (Stores fun _ document => ∃ input, Composes input document) := by
  cases call with
  | enqueue d request => exact h.elim
  | enqueueWithMutation d request mutation => exact h.elim
  | deliverDue d => trivial
  | publish p input =>
    refine ⟨trivial, fun event document _ _ => ?_⟩
    exact ⟨.lifecycleEvents, _, document, _, rfl, rfl, by rintro ⟨⟩⟩
  | publishTerminal p input => exact stores_within p input fun document hcomposes =>
      ⟨input, hcomposes⟩

/-- The run lemma: publishers and passes store composed reports only. -/
theorem written_of_run {s : Store} (hs : Written s) (actions : List (Action Delivery.system))
    (hcalls : ∀ call, Action.spawn call ∈ actions → call.Pairs) :
    Written (Delivery.run s actions).state := by
  have hallowed := Delivery.allowed_of_run s actions fun call hcall =>
    Written.within (hcalls call hcall)
  have hstep : ∀ e ∈ (Delivery.run s actions).log, Written e.before → Written e.after := by
    intro e he hwritten
    obtain ⟨later, earlier, hlog⟩ := List.append_of_mem he
    exact Reports.perform hwritten (hallowed later e earlier hlog) e.answer
  exact (invariant_of_events Written hs actions hstep fun m s hwritten =>
    Reports.of_same hwritten (Delivery.move_payloads m s rfl)).1

omit [UnicodeTables] in
theorem sameReport_refl {report : IncidentReport} {document : Bytes}
    (h : IncidentReport.codec.marshal report = some document) :
      sameReport report report = true := by
  unfold sameReport
  rw [h]
  exact decide_eq_true rfl

/-- What a publisher wrote and can read is spelled as the report it is read as. -/
theorem spelled_of_written {input : Input} {document : Bytes} {existing report : IncidentReport}
    (hwritten : Composes input document) (hdecode : decodeReport document = .ok existing)
    (hsame : sameReport existing report = true) :
      IncidentReport.codec.marshal report = some document := by
  obtain ⟨occurredAt, composed, event, hcompose, hdocument⟩ := hwritten
  have hread := decodeReport_marshal hcompose hdocument (decodeReport_length hdecode)
  obtain rfl := Except.ok.inj (hread.symm.trans hdecode)
  unfold sameReport at hsame
  rw [hdocument] at hsame
  cases hreport : IncidentReport.codec.marshal report with
  | none =>
    rw [hreport] at hsame
    cases hsame
  | some other =>
    rw [hreport] at hsame
    rw [of_decide_eq_true hsame]

/-! ## The first publication -/

/-- The store has a document for the report, fresh or taken for a duplicate. -/
def Kept (report : IncidentReport) (document : Bytes) (s : Store) : Prop :=
  ∃ stored, (s .incidentReports)[reportRecordKey report.reportID]? = some stored ∧
    (stored = document ∨ ∃ existing, decodeReport stored = .ok existing ∧
      sameReport existing report = true)

theorem load_ends (reportID : Bytes) (s : Store) :
    (Publisher.load reportID).Ends (Prog.anyhow interface) (fun value s' => s = s' ∧
      ∀ existing, value = .ok (some existing) → ∃ document,
        (s .incidentReports)[reportRecordKey reportID]? = some document ∧
        decodeReport document = .ok existing) s := by
  refine .call_bind fun env _ => ?_
  split
  case h_1 e herror =>
    refine ⟨(Delivery.Transaction.run_error herror).symm, ?_⟩
    rintro _ ⟨⟩
  case h_2 found hfound =>
    have hbody : Tx.get .incidentReports (reportRecordKey reportID) s = .ok (found, _) :=
      Delivery.Transaction.run_ok hfound
    obtain ⟨-, rfl, hstate⟩ := Tx.get_ok.mp hbody
    refine ⟨hstate.symm, fun existing hexisting => ?_⟩
    change Publisher.checkedReport reportID _ = _ at hexisting
    unfold Publisher.checkedReport at hexisting
    split at hexisting
    case h_1 => cases hexisting
    case h_2 document hdocument =>
      split at hexisting
      case h_1 => cases hexisting
      case h_2 report hreport =>
        split at hexisting
        case isTrue =>
          cases hexisting
          exact ⟨document, hdocument, hreport⟩
        case isFalse => cases hexisting

theorem reportLost_ends (report : IncidentReport) (document : Bytes) (s : Store) :
    (Publisher.reportLost report).Ends (Prog.anyhow interface)
      (fun value s' => ∀ result, value = .ok result → Kept report document s') s := by
  refine .bind (load_ends report.reportID s) ?_
  rintro value s' ⟨rfl, hvalue⟩
  split
  case h_1 => rintro _ ⟨⟩
  case h_2 => rintro _ ⟨⟩
  case h_3 existing =>
    obtain ⟨stored, hstored, hdecode⟩ := hvalue existing rfl
    split
    case isTrue hsame => exact fun _ _ => ⟨stored, hstored, .inr ⟨existing, hdecode, hsame⟩⟩
    case isFalse => rintro _ ⟨⟩

theorem publishReport_ends (p : Publisher) (report : IncidentReport) (document : Bytes)
    (occurredAt : Time)
    (s : Store) :
    (p.publishReport report document occurredAt).Ends (Prog.anyhow interface)
      (fun value s' => ∀ result, value = .ok result → Kept report document s') s := by
  refine .bind (load_ends report.reportID s) ?_
  rintro value s' ⟨rfl, hvalue⟩
  split
  case h_1 => rintro _ ⟨⟩
  case h_2 existing =>
    obtain ⟨stored, hstored, hdecode⟩ := hvalue existing rfl
    split
    case isTrue hsame => exact fun _ _ => ⟨stored, hstored, .inr ⟨existing, hdecode, hsame⟩⟩
    case isFalse => rintro _ ⟨⟩
  case h_3 =>
    refine .bind (Lifecycle.enqueue_ends p.queue (p.enqueueRequest report occurredAt) (by decide)
      (reportRecordKey report.reportID) document errReportExists s) ?_
    intro value s' hvalue
    split
    case h_1 item => exact fun _ _ => ⟨document, hvalue item rfl, .inl rfl⟩
    case h_2 =>
      split
      case isTrue => exact reportLost_ends report document s'
      case isFalse => rintro _ ⟨⟩

/-! ## The whole call -/

def occurred (input : Input) (answers : Answers interface) : Time :=
  if input.occurredAt.isZero then (answers 1 Delivery.Op.clock : Environment).now else
    input.occurredAt

theorem compose_exec (input : Input) (answers : Answers interface) (s : Store) :
    ∃ trace, (Publisher.compose input).exec (answers.drop 1) s =
      ⟨composeAt input (occurred input answers), s, trace⟩ := by
  unfold Publisher.compose occurred
  split
  case isTrue => exact ⟨_, rfl⟩
  case isFalse => exact ⟨_, rfl⟩

omit [UnicodeTables] in
theorem exec_ctxErr_bind {α : Type} {Q : α → Store → Prop} (f : Option Error → Delivery.Prog α)
    (answers : Answers interface) (s : Store)
    (h : Q ((f (answers 0 Delivery.Op.ctxErr : Environment).cancelled).exec
      (answers.drop 1) s).value
      ((f (answers 0 Delivery.Op.ctxErr : Environment).cancelled).exec (answers.drop 1) s).state) :
    Q ((Delivery.call .ctxErr >>= f).exec answers s).value
      ((Delivery.call .ctxErr >>= f).exec answers s).state := h

theorem publishTerminal_exec {fine : (o : interface.Op) → interface.Answer o → Prop}
    {Q : Except Error Result → Store → Prop} (p : Publisher) (input : Input)
    {answers : Answers interface}
    (hfine : ∀ i o, fine o (answers i o)) (s : Store)
    (hcancelled : ∀ e, (answers 0 Delivery.Op.ctxErr : Environment).cancelled = some e →
      Q (.error e) s)
    (hinvalid : ∀ e, composeAt input (occurred input answers) = .error e → Q (.error e) s)
    (hunwritten : ∀ report event e, composeAt input (occurred input answers) = .ok (report, event) →
      IncidentReport.codec.marshal report = none → Q (.error e) s)
    (hwritten : ∀ report event document,
      composeAt input (occurred input answers) = .ok (report, event) →
      IncidentReport.codec.marshal report = some document →
      (p.publishReport report document event.occurredAt).Ends fine (fun value s' =>
        (∀ e, value = .error e → Q (.error e) s') ∧
        ∀ result, value = .ok result → (p.lifecycle.publish event).Ends fine (fun published s'' =>
          (∀ e, published = .error e → ∀ e', Q (.error e') s'') ∧
          ∀ accepted, published = .ok accepted → Q (.ok { result with
            lifecycleQueueItem := accepted.queueItem
            duplicate := result.duplicate && accepted.duplicate }) s'') s') s) :
    Q ((p.publishTerminal input).exec answers s).value
      ((p.publishTerminal input).exec answers s).state := by
  obtain ⟨trace, hexec⟩ := compose_exec input answers s
  refine exec_ctxErr_bind _ answers s ?_
  split
  case h_1 e he => exact hcancelled e he
  case h_2 =>
    rw [(Prog.exec_bind_of hexec).1, (Prog.exec_bind_of hexec).2]
    split
    case h_1 e he => exact hinvalid e he
    case h_2 report event hcompose =>
      split
      case h_1 e he =>
        refine hunwritten report event e hcompose ?_
        cases hmarshal : IncidentReport.codec.marshal report with
        | none => rfl
        | some document => cases he.symm.trans (encode_ok.mpr hmarshal)
      case h_2 document hdocument =>
        refine @Prog.Ends.exec _ _ _ fine _ _ _ ?_ _ fun i o => hfine _ o
        refine .bind (hwritten report event document hcompose (encode_ok.mp hdocument)) ?_
        rintro value s' ⟨herror, hok⟩
        split
        case h_1 e => exact herror e rfl
        case h_2 result =>
          refine .bind (hok result rfl) ?_
          rintro published s'' ⟨herror', hok'⟩
          split
          case h_1 e => exact herror' e rfl _
          case h_2 accepted => exact hok' accepted rfl

def Accepted (input : Input) (occurredAt : Time) (s : Store) : Prop :=
  ∃ report event document, composeAt input occurredAt = .ok (report, event) ∧
    IncidentReport.codec.marshal report = some document ∧ Kept report document s ∧ Published event s

omit [UnicodeTables] in
theorem Kept.mono [UnicodeTables] {report : IncidentReport} {document : Bytes} {s s' : Store}
    (h : Kept report document s) (hkept : Delivery.PayloadsKept s s') :
      Kept report document s' := by
  obtain ⟨stored, hstored, hdocument⟩ := h
  exact ⟨stored, hkept .incidentReports _ stored rfl hstored, hdocument⟩

theorem payloadsKept_publish (p : Lifecycle.Publisher) (input : Lifecycle.Input) (s : Store) :
    (p.publish input).Ends (Prog.anyhow interface) (fun _ s' => Delivery.PayloadsKept s s') s := by
  have hsat : (p.publish input).Sat Delivery.Publishing (fun _ _ => True) [] :=
    Delivery.sat_publish (Delivery.carries_event p input)
  have hstep : ∀ h o (env : Environment) s', Delivery.Publishing h o → Delivery.PayloadsKept s s' →
      Delivery.PayloadsKept s (Delivery.perform o env s').2 :=
    fun _ _ env s' hallowed hkept => hkept.trans (.perform hallowed env s')
  exact hsat.ends hstep _ (.refl s)

theorem accepted_of_exec (p : Publisher) (input : Input) (answers : Answers interface) (s : Store) :
    ∀ result, ((p.publishTerminal input).exec answers s).value = .ok result →
      Accepted input (occurred input answers) ((p.publishTerminal input).exec answers s).state := by
  refine @publishTerminal_exec _ (Prog.anyhow interface)
    (fun value s' => ∀ result, value = .ok result → Accepted input (occurred input answers) s')
    p input answers (fun _ _ => trivial) s ?_ ?_ ?_ ?_
  · rintro _ _ _ ⟨⟩
  · rintro _ _ _ ⟨⟩
  · rintro _ _ _ _ _ _ ⟨⟩
  · intro report event document hcompose hdocument
    refine (publishReport_ends p report document event.occurredAt s).mono
      fun value s' hvalue => ⟨?_, ?_⟩
    · rintro _ _ _ ⟨⟩
    · intro result hresult
      have hkept := hvalue result hresult
      have hends := (Lifecycle.publish_ends p.lifecycle event s').and
        (payloadsKept_publish p.lifecycle event s')
      refine hends.mono fun published s'' hpublished => ⟨?_, ?_⟩
      · rintro _ _ _ _ ⟨⟩
      · intro accepted haccepted _ _
        exact ⟨report, event, document, hcompose, hdocument, hkept.mono hpublished.2,
          hpublished.1 accepted haccepted⟩

/-! ## Publishing again -/

section Again

variable {input : Input} {occurredAt : Time} {report : IncidentReport} {event : Lifecycle.Input}
  {document : Bytes} {s : Store} (hcompose : composeAt input occurredAt = .ok (report, event))
  (hdocument : IncidentReport.codec.marshal report = some document)
  (hstored : (s .incidentReports)[reportRecordKey report.reportID]? = some document)
include hcompose hdocument hstored

theorem load_held : (Publisher.load report.reportID).Ends quiet (fun value s' => s = s' ∧
    (document.length ≤ maxDocumentBytes ∧ value = .ok (some report) ∨
      maxDocumentBytes < document.length ∧ value = .error errCorruptPayload)) s := by
  refine .call_bind fun env hquiet => ?_
  have hget : Tx.get .incidentReports (reportRecordKey report.reportID) s =
    .ok (some document, s) :=
    Tx.get_ok.mpr ⟨List.append_ne_nil_of_left_ne_nil (by decide) _, hstored.symm, rfl⟩
  have hrun : interface.perform (.tx (.read "load incident report: " .incidentReports
      (reportRecordKey report.reportID))) env s = (.ok (some document), s) := by
    change Delivery.Transaction.run _ (Environment.fault env) s = _
    rw [hquiet.2]
    exact Delivery.Transaction.run_of_ok hget
  rw [hrun]
  refine ⟨rfl, ?_⟩
  unfold Publisher.checkedReport
  obtain hlength | hlength := le_or_gt document.length maxDocumentBytes
  · refine .inl ⟨hlength, ?_⟩
    dsimp only
    rw [decodeReport_marshal hcompose hdocument hlength]
    exact if_pos rfl
  · refine .inr ⟨hlength, ?_⟩
    dsimp only
    split
    case h_1 => rfl
    case h_2 hdecode => exact absurd (decodeReport_length hdecode) (not_le.mpr hlength)

theorem publishReport_again (p : Publisher) :
    (p.publishReport report document event.occurredAt).Ends quiet
    (fun value s' => s = s' ∧
      (document.length ≤ maxDocumentBytes ∧
        (∃ result, value = .ok result ∧ result.duplicate = true) ∨
        maxDocumentBytes < document.length ∧ ∃ e, value = .error e)) s := by
  refine .bind (load_held hcompose hdocument hstored) ?_
  rintro _ s' ⟨rfl, ⟨hlength, rfl⟩ | ⟨hlength, rfl⟩⟩
  · dsimp only
    rw [sameReport_refl hdocument]
    exact ⟨rfl, .inl ⟨hlength, _, rfl, rfl⟩⟩
  · exact ⟨rfl, .inr ⟨hlength, _, rfl⟩⟩

end Again

def reading (answers : Answers interface) : Time := (answers 1 Delivery.Op.clock : Environment).now

omit [UnicodeTables] in
theorem occurred_eq_iff (input : Input) (answers answers' : Answers interface) :
    occurred input answers' = occurred input answers ↔
      input.occurredAt.isZero = false ∨ reading answers' = reading answers := by
  unfold occurred reading
  cases input.occurredAt.isZero with
  | true => exact ⟨.inr, fun h => h.resolve_left (by decide)⟩
  | false => exact iff_of_true rfl (.inl rfl)

def eventID (input : Input) : Bytes := (pairedEvent input [] 0).eventID

theorem repeats_iff {input : Input} {refs : List Bytes} {occurredAt occurredAt' : Time}
    {event : LifecycleEvent}
    {document : Bytes} (hevent : Lifecycle.event (pairedEvent input refs occurredAt) = .ok event)
    (hdocument : LifecycleEvent.codec.marshal event = some document) :
    Repeats event (pairedEvent input refs occurredAt') ↔ occurredAt' = occurredAt := by
  constructor
  · rintro ⟨event', -, hevent', -, hsame⟩
    obtain ⟨-, -, -, -, -, -, rfl⟩ := Delivery.event_ok hevent
    obtain ⟨-, -, -, -, -, -, rfl⟩ := Delivery.event_ok hevent'
    simp only [Lifecycle.sameEvent, Bool.and_eq_true, decide_eq_true_eq] at hsame
    exact hsame.1.1.2.symm
  · rintro rfl
    exact ⟨event, document, hevent, hdocument, Lifecycle.sameEvent_refl event⟩

theorem composeAt_two {input : Input} {occurredAt occurredAt' : Time}
    {report report' : IncidentReport}
    {event event' : Lifecycle.Input} (h : composeAt input occurredAt = .ok (report, event))
    (h' : composeAt input occurredAt' = .ok (report', event')) :
    report' = report ∧ ∃ refs, event = pairedEvent input refs occurredAt ∧
      event' = pairedEvent input refs occurredAt' := by
  obtain ⟨hypotheses, refs, -, hhypotheses, rfl, -, -, rfl⟩ := composeAt_ok h
  obtain ⟨hypotheses', refs', -, hhypotheses', rfl, -, -, rfl⟩ := composeAt_ok h'
  obtain ⟨rfl, rfl⟩ := Prod.mk.inj (Except.ok.inj (hhypotheses.symm.trans hhypotheses'))
  exact ⟨rfl, refs, rfl, rfl⟩

/-- A store that has the report of an input, spelled as it is composed, and its event. -/
def Complete (input : Input) (occurredAt : Time) (s : Store) : Prop :=
  ∃ report paired document event eventDocument, composeAt input occurredAt = .ok (report, paired) ∧
    IncidentReport.codec.marshal report = some document ∧
    (s .incidentReports)[reportRecordKey report.reportID]? = some document ∧
    Lifecycle.event paired = .ok event ∧ LifecycleEvent.codec.marshal event = some eventDocument ∧
    Holds s event

theorem Accepted.complete {input : Input} {occurredAt : Time} {s : Store}
    (h : Accepted input occurredAt s)
    (hwritten : Written s) : Complete input occurredAt s := by
  obtain ⟨report, paired, document, hcompose, hdocument, ⟨stored, hstored, hkept⟩, hpublished⟩ := h
  have hspelled : IncidentReport.codec.marshal report = some stored := by
    obtain rfl | ⟨existing, hdecode, hsame⟩ := hkept
    · exact hdocument
    · obtain ⟨input', hcomposes⟩ := hwritten _ stored hstored
      exact spelled_of_written hcomposes hdecode hsame
  obtain ⟨event, eventDocument, hevent, hmarshal, hholds⟩ := hpublished
  exact ⟨report, paired, stored, event, eventDocument, hcompose, hspelled, hstored, hevent,
    hmarshal, hholds⟩

theorem Complete.mono {input : Input} {occurredAt : Time} {s s' : Store}
    (h : Complete input occurredAt s)
    (hkept : Delivery.PayloadsKept s s') : Complete input occurredAt s' := by
  obtain ⟨report, paired, document, event, eventDocument, hcompose, hdocument, hstored,
    hevent, hmarshal,
    found, existing, hfound, hdecode, hsame⟩ := h
  exact ⟨report, paired, document, event, eventDocument, hcompose, hdocument,
    hkept .incidentReports _ document rfl hstored, hevent, hmarshal, found, existing,
    hkept .lifecycleEvents _ found rfl hfound, hdecode, hsame⟩

/-- The second call writes nothing, and is a duplicate exactly if the report fits its reader and the
time is the same. -/
theorem publishTerminal_again (p : Publisher) {input : Input} {occurredAt : Time} {s : Store}
    (hcomplete : Complete input occurredAt s) {answers : Answers interface}
    (hquiet : ∀ i o, quiet o (answers i o)) :
    s = ((p.publishTerminal input).exec answers s).state ∧
      ((∃ result, ((p.publishTerminal input).exec answers s).value = .ok result ∧
        result.duplicate = true) ↔
        encodedLength input ≤ maxDocumentBytes ∧ occurred input answers = occurredAt) := by
  obtain ⟨report, paired, document, event, eventDocument, hcompose, hdocument, hstored,
    hevent, hmarshal,
    hholds⟩ := hcomplete
  have hlength : encodedLength input = document.length :=
    encodedLength_of_composes ⟨occurredAt, report, paired, hcompose, hdocument⟩
  refine @publishTerminal_exec _ quiet (fun value s' => s = s' ∧
    ((∃ result, value = .ok result ∧ result.duplicate = true) ↔
      encodedLength input ≤ maxDocumentBytes ∧ occurred input answers = occurredAt)) p input
        answers hquiet s
    ?_ ?_ ?_ ?_
  · intro e he
    cases he.symm.trans (hquiet 0 Delivery.Op.ctxErr).1
  · intro e he
    refine ⟨rfl, iff_of_false (by rintro ⟨_, ⟨⟩, _⟩) ?_⟩
    rintro ⟨-, hsame⟩
    rw [hsame] at he
    cases he.symm.trans hcompose
  · intro report' _ e hcompose' hnone
    obtain ⟨rfl, -⟩ := composeAt_two hcompose hcompose'
    cases hnone.symm.trans hdocument
  · intro report' paired' document' hcompose' hdocument'
    obtain ⟨rfl, refs, rfl, rfl⟩ := composeAt_two hcompose hcompose'
    obtain rfl := Option.some.inj (hdocument.symm.trans hdocument')
    refine (publishReport_again hcompose' hdocument hstored p).mono ?_
    rintro value s' ⟨rfl, ⟨hfits, result, rfl, hduplicate⟩ | ⟨hlong, e, rfl⟩⟩
    · refine ⟨by rintro _ ⟨⟩, ?_⟩
      rintro _ ⟨⟩
      have hid : (pairedEvent input refs (occurred input answers)).eventID = event.eventID := by
        obtain ⟨-, -, -, -, -, -, rfl⟩ := Delivery.event_ok hevent
        rfl
      refine (Lifecycle.publish_again p.lifecycle hholds hid).mono ?_
      rintro published s' ⟨rfl, hrepeats, hpublished⟩
      rw [repeats_iff hevent hmarshal] at hrepeats
      refine ⟨?_, ?_⟩
      · rintro e rfl e'
        refine ⟨rfl, iff_of_false (by rintro ⟨_, ⟨⟩, _⟩) ?_⟩
        rintro ⟨-, hsame⟩
        cases hrepeats.mpr hsame
      · rintro accepted rfl
        refine ⟨rfl, iff_of_true ⟨_, rfl, ?_⟩ ⟨hlength ▸ hfits, hrepeats.mp rfl⟩⟩
        rw [Bool.and_eq_true]
        exact ⟨hduplicate, hpublished accepted rfl⟩
    · refine ⟨?_, by rintro _ ⟨⟩⟩
      rintro e' -
      refine ⟨rfl, iff_of_false (by rintro ⟨_, ⟨⟩, _⟩) ?_⟩
      rintro ⟨hfits, -⟩
      rw [hlength] at hfits
      exact absurd hfits (not_le.mpr hlong)

/-- The second call is a duplicate and changes nothing, and the store has one item for the report
and one for the event. -/
structure Repeated (p : Publisher) (input : Input) (answers : Answers interface)
    (s : Store) : Prop where
  duplicate : ∃ result, ((p.publishTerminal input).exec answers s).value = .ok result ∧
    result.duplicate = true
  unchanged : ((p.publishTerminal input).exec answers s).state = s
  report : ∃! key, ∃ item, Delivery.Loads s key item ∧
    Delivery.Refers item .incidentReports (reportRecordKey (reportID input))
  event : ∃! key, ∃ item, Delivery.Loads s key item ∧
    Delivery.Refers item .lifecycleEvents (Lifecycle.recordKey (eventID input))

theorem Complete.items {input : Input} {occurredAt : Time} {s : Store}
    (h : Complete input occurredAt s)
    (hpaired : Paired s) :
    (∃! key, ∃ item, Delivery.Loads s key item ∧
      Delivery.Refers item .incidentReports (reportRecordKey (reportID input))) ∧
    ∃! key, ∃ item, Delivery.Loads s key item ∧
      Delivery.Refers item .lifecycleEvents (Lifecycle.recordKey (eventID input)) := by
  obtain ⟨report, paired, document, event, eventDocument, hcompose, hdocument, hstored,
    hevent, hmarshal,
    found, existing, hfound, -⟩ := h
  have hid : event.eventID = eventID input := by
    obtain ⟨_, _, -, -, -, -, -, rfl⟩ := composeAt_ok hcompose
    obtain ⟨-, -, -, -, -, -, rfl⟩ := Delivery.event_ok hevent
    rfl
  rw [reportID_of_compose hcompose] at hstored
  rw [hid] at hfound
  exact ⟨hpaired.carried .incidentReports _ document rfl hstored,
    hpaired.carried .lifecycleEvents _ found rfl hfound⟩

/-- An input that was accepted in some run is published again later in it: that is a duplicate which
changes nothing exactly if the report is within the limit of its reader, and the input has a time of
its own or the clock reads what it read the first time. -/
theorem terminal_repeated_iff {s : Store} (hs : Paired s) (hwritten : Written s)
    (before after : List (Action Delivery.system))
    (hbefore : ∀ call, Action.spawn call ∈ before → call.Pairs)
    (hafter : ∀ call, Action.spawn call ∈ after → call.Pairs) (p again : Publisher) (input : Input)
    {answers answers' : Answers interface} {result : Result}
    (hfirst : ((p.publishTerminal input).exec
      answers (Delivery.run s before).state).value = .ok result)
    (hquiet : ∀ i o, quiet o (answers' i o)) :
    Repeated again input answers' (Delivery.run
        ((p.publishTerminal input).exec answers (Delivery.run s before).state).state after).state ↔
      encodedLength input ≤ maxDocumentBytes ∧
        (input.occurredAt.isZero = false ∨ reading answers' = reading answers) := by
  have hpaired := (Delivery.paired_of_run hs before hbefore).1
  have hwritten' := written_of_run hwritten before hbefore
  generalize (Delivery.run s before).state = s0 at hfirst hpaired hwritten' ⊢
  have haccepted := accepted_of_exec p input answers s0 result hfirst
  have hwritten1 : Written ((p.publishTerminal input).exec answers s0).state :=
    reports_of_publishTerminal p (fun _ hcomposes => ⟨input, hcomposes⟩) answers hwritten'
  have hpaired1 : Paired ((p.publishTerminal input).exec answers s0).state := by
    have hsat : (p.publishTerminal input).Sat Delivery.Publishing (fun _ _ => True) [] :=
      Delivery.sat_publishTerminal
        (@Delivery.Call.Pairs.within _ (.publishTerminal p input) trivial)
    have hstep : ∀ h o (env : Environment) s, Delivery.Publishing h o → Paired s →
        Paired (Delivery.perform o env s).2 :=
      fun _ _ env _ hallowed hpaired => hpaired.perform hallowed env
    exact hsat.exec_state hstep answers hpaired
  have hpaired2 := (Delivery.paired_of_run hpaired1 after hafter).1
  have hcomplete := (haccepted.complete hwritten1).mono
    (Delivery.payloadsKept_of_run ((p.publishTerminal input).exec answers s0).state after hafter)
  rw [← occurred_eq_iff]
  obtain ⟨hsame, hduplicate⟩ := publishTerminal_again again hcomplete hquiet
  constructor
  · exact fun h => hduplicate.mp h.duplicate
  · intro h
    obtain ⟨hreport, hevent⟩ := hcomplete.items hpaired2
    exact ⟨hduplicate.mpr h, hsame.symm, hreport, hevent⟩

end

/-! ## Two readings of the clock -/

theorem example_repeated :
    @Repeated asciiTables examplePublisher exampleInput (numberedAnswers 63776073700000000000)
      (@Delivery.run asciiTables
        ((@Publisher.publishTerminal asciiTables examplePublisher exampleInput).exec
          (numberedAnswers 63776073600000000000)
          (@Delivery.run asciiTables Store.empty []).state).state []).state := by
  have hok : ((@Publisher.publishTerminal asciiTables examplePublisher exampleInput).exec
      (numberedAnswers 63776073600000000000)
      (@Delivery.run asciiTables Store.empty []).state).value.isOk = true := by
    decide +kernel
  obtain ⟨result, hfirst⟩ := exists_of_isOk hok
  have hempty : Paired Store.empty := .initial rfl fun _ _ => rfl
  have hwritten : @Written asciiTables Store.empty := by
    rintro key document ⟨⟩
  have hrepeated := @terminal_repeated_iff asciiTables _ hempty hwritten [] []
    (fun _ h => absurd h List.not_mem_nil) (fun _ h => absurd h List.not_mem_nil) examplePublisher
    examplePublisher exampleInput _ (numberedAnswers 63776073700000000000) _ hfirst
    fun _ _ => ⟨rfl, rfl⟩
  exact hrepeated.mpr ⟨by decide +kernel, .inl rfl⟩

/-- An input that leaves its time to the clock is accepted, and a nanosecond later it is refused. -/
theorem clocked_refused_later :
    ((@Publisher.publishTerminal asciiTables
      examplePublisher { exampleInput with occurredAt := 0 }).exec
        (numberedAnswers 63776073600000000000) Store.empty).value.isOk = true ∧
      errorOf ((@Publisher.publishTerminal asciiTables examplePublisher
        { exampleInput with occurredAt := 0 }).exec (numberedAnswers 63776073600000000001)
          ((@Publisher.publishTerminal asciiTables examplePublisher
            { exampleInput with occurredAt := 0 }).exec (numberedAnswers 63776073600000000000)
              Store.empty).state).value =
        some (.wrap "enqueue terminal lifecycle event: " Lifecycle.errInvalidEvent "") := by
  decide +kernel

end PulseAgent.Report
