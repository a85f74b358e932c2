import PulseAgent.Delivery.Pairing
import PulseAgent.Go.JsonBounds

/-!
# Publishing a transition again

The ID of an event is a digest of its arguments, while the comparison with the stored event includes
its time: a transition that takes its time from the clock is the same event only at the same
reading.
-/

namespace PulseAgent.Lifecycle

open Go Go.Json Contract Concurrent
open Delivery (Environment interface Paired)

/-! ## Reading an event back -/

def eventDocument : Document LifecycleEvent where
  codec := LifecycleEvent.codec
  version := LifecycleEvent.schemaVersion
  header := header_of_members (by decide +kernel)

theorem length_of_validIdentifier {value : Bytes} {limit : Nat}
    (h : validIdentifier value limit = true) :
    value.length ≤ limit := by
  simp only [validIdentifier, Bool.and_eq_true, decide_eq_true_eq] at h
  exact h.1.1.1.2

theorem clean_of_validReasonCode {value : Bytes} (h : validReasonCode value = true) :
    value.length ≤ maxReasonCodeLength ∧ Utf8.toValidUTF8 value = value := by
  simp only [validReasonCode, Bool.and_eq_true, Bool.not_eq_true', decide_eq_true_eq] at h
  exact ⟨h.1.1.2, Utf8.toValidUTF8_of_valid (Redaction.validString_of_not_containsSensitive h.1.2)⟩

theorem norm_eventType {eventType : LifecycleEventType} (h : eventType.valid = true) :
    LifecycleEventType.codec.norm eventType = eventType := by
  cases eventType with
  | other => cases h
  | _ => decide +kernel

theorem text_length_of_valid {eventType : LifecycleEventType} (h : eventType.valid = true) :
    eventType.text.length ≤ 20 := by
  cases eventType with
  | other => cases h
  | _ => decide

theorem elems_cloneSlice {α : Type} (values : List α) : elems (cloneSlice values) = values := by
  unfold cloneSlice
  cases values with
  | nil => rfl
  | cons value values => rfl

section

variable [UnicodeTables]

theorem validEvidenceRefs_ok {references : List Bytes} (h : validEvidenceRefs references = true) :
    references.length ≤ 64 ∧ ∀ reference ∈ references, reference.length ≤ maxEvidenceRefLength ∧
      Utf8.toValidUTF8 reference = reference := by
  simp only [validEvidenceRefs, Bool.and_eq_true, List.all_eq_true, decide_eq_true_eq] at h
  exact ⟨h.1.1, fun reference hreference =>
    ⟨length_of_validIdentifier (h.1.2 reference hreference).1,
    Delivery.clean_of_validIdentifier (h.1.2 reference hreference).1⟩⟩

variable {input : Input} {event : LifecycleEvent} {document : Bytes}

theorem eventType_of_event (h : Lifecycle.event input = .ok event) :
    event.eventType.valid = true := by
  obtain ⟨-, -, -, -, -, hvalid, -⟩ := Delivery.event_ok h
  obtain ⟨⟨⟩, hvalid⟩ := exists_of_isOk hvalid
  simp only [LifecycleEvent.validate, then_ok, validateVersion_ok, required_ok, check_ok,
    Bool.and_eq_true]
    at hvalid
  exact hvalid.2.2.2.1.1.1

theorem norm_of_event (h : Lifecycle.event input = .ok event) :
    LifecycleEvent.codec.norm event = event := by
  have htype := norm_eventType (eventType_of_event h)
  obtain ⟨hid, hincident, hreason, -, hreferences, -, rfl⟩ := Delivery.event_ok h
  have hclean := fun reference hreference =>
    ((validEvidenceRefs_ok hreferences).2 reference hreference).2
  have hslice : (Codec.slice Codec.string).norm (cloneSlice input.evidenceRefs) =
      cloneSlice input.evidenceRefs := by
    change (cloneSlice input.evidenceRefs).map (List.map Utf8.toValidUTF8) = _
    unfold cloneSlice
    split
    case isTrue => rfl
    case isFalse =>
      rw [Option.map_some, List.map_congr_left hclean, List.map_id']
  change LifecycleEvent.mk (Utf8.toValidUTF8 schemaVersionV1) (Utf8.toValidUTF8 input.eventID)
    (LifecycleEventType.codec.norm input.eventType)
    (Utf8.toValidUTF8 input.incidentID) input.occurredAt
    (Utf8.toValidUTF8 input.reasonCode)
    ((Codec.slice Codec.string).norm (cloneSlice input.evidenceRefs)) = _
  rw [Delivery.clean_of_validIdentifier hid, Delivery.clean_of_validIdentifier hincident,
    (clean_of_validReasonCode hreason).2, hslice]
  rw [show LifecycleEventType.codec.norm input.eventType = input.eventType from htype]
  rfl

theorem document_length_le (h : Lifecycle.event input = .ok event)
    (hdocument : LifecycleEvent.codec.marshal event = some document) :
    document.length ≤ maxDocumentBytes := by
  have htype := text_length_of_valid (eventType_of_event h)
  obtain ⟨hid, hincident, hreason, -, hreferences, -, rfl⟩ := Delivery.event_ok h
  obtain ⟨hcount, hrefs⟩ := validEvidenceRefs_ok hreferences
  have hslice : (Codec.slice Codec.string).Within 49346 (cloneSlice input.evidenceRefs) := by
    unfold cloneSlice
    split
    case isTrue =>
      rintro _ ⟨⟩
      decide
    case isFalse =>
      refine (Codec.within_slice fun reference hreference =>
        Codec.within_string (hrefs reference hreference).1).mono ?_
      change input.evidenceRefs.length * 771 + 2 ≤ 49346
      omega
  have hbounds : ∀ event : LifecycleEvent, List.Forall₂ (fun f n => Member.size event f ≤ n)
      LifecycleEvent.fields [40, 800, 160, 800, 220, 620, 49380] →
      LifecycleEvent.codec.Within maxDocumentBytes event :=
    fun _ hsizes => Codec.within_struct hsizes (by decide)
  refine hbounds _ ?_ document hdocument
  refine .cons ?_ (.cons ?_ (.cons ?_ (.cons ?_ (.cons ?_ (.cons ?_ (.cons ?_ .nil))))))
  · exact le_trans (Codec.size_le (Codec.within_string (show schemaVersionV1.length ≤ 2 by decide)))
      (by decide +kernel)
  · exact le_trans (Codec.size_le (Codec.within_string (length_of_validIdentifier hid)))
      (by decide +kernel)
  · exact le_trans (Codec.size_le (Codec.within_named htype)) (by decide +kernel)
  · exact le_trans (Codec.size_le (Codec.within_string (length_of_validIdentifier hincident)))
      (by decide +kernel)
  · exact le_trans (Codec.size_le (Codec.within_time _)) (by decide +kernel)
  · exact le_trans (Codec.size_le (Codec.within_string (clean_of_validReasonCode hreason).1))
      (by decide +kernel)
  · exact le_trans (Codec.size_le hslice) (by decide +kernel)

theorem decodeEvent_marshal (h : Lifecycle.event input = .ok event)
    (hdocument : LifecycleEvent.codec.marshal event = some document) :
    decodeEvent document = .ok event := by
  have hnorm := norm_of_event h
  have hlength := document_length_le h hdocument
  obtain ⟨hid, hincident, hreason, -, hreferences, hvalid, rfl⟩ := Delivery.event_ok h
  obtain ⟨⟨⟩, hvalid⟩ := exists_of_isOk hvalid
  have hdecode := decode_marshal eventDocument
    ⟨maxDocumentBytes, schemaVersionV1, LifecycleEvent.validate⟩
      hdocument ⟨by decide, by decide +kernel⟩
    (Int.ofNat_le.mpr hlength)
    (show Utf8.toValidUTF8 schemaVersionV1 = schemaVersionV1 by decide +kernel)
  change decode LifecycleEvent.codec _ document =
    Except.map (fun _ => LifecycleEvent.codec.norm _)
      (LifecycleEvent.validate (LifecycleEvent.codec.norm _))
    at hdecode
  rw [hnorm, hvalid] at hdecode
  unfold decodeEvent
  rw [hdecode]
  dsimp only [Except.map]
  rw [elems_cloneSlice, hid, hincident, hreason, hreferences]
  rfl

/-! ## One publication -/

/-- The store has an event that a publication of this one takes for its duplicate. -/
def Holds (s : Store) (event : LifecycleEvent) : Prop :=
  ∃ document existing, (s .lifecycleEvents)[recordKey event.eventID]? = some document ∧
    decodeEvent document = .ok existing ∧ sameEvent existing event = true

omit [UnicodeTables] in
theorem sameEvent_refl (event : LifecycleEvent) : sameEvent event event = true := by
  simp [sameEvent]

omit [UnicodeTables] in
theorem sameEvent_congr {left right : LifecycleEvent} (h : sameEvent left right = true)
    (other : LifecycleEvent) : sameEvent left other = sameEvent right other := by
  simp only [sameEvent, Bool.and_eq_true, decide_eq_true_eq] at h
  obtain ⟨⟨⟨⟨⟨⟨hversion, hid⟩, htype⟩, hincident⟩, htime⟩, hreason⟩, hrefs⟩ := h
  simp only [sameEvent, hversion, hid, htype, hincident, htime, hreason, hrefs]

omit [UnicodeTables] in
theorem enqueue_ends (d : Delivery.Dispatcher) (request : Delivery.EnqueueRequest) {bucket : Bucket}
    (hbucket : Delivery.isPayload bucket = true) (key document : Bytes)
    (present : Error) (s : Store) :
    (d.enqueue request (some (storePayload bucket key document present))).Ends
      (Prog.anyhow interface)
      (fun value s' => ∀ item, value = .ok item → (s' bucket)[key]? = some document) s := by
  unfold Delivery.Dispatcher.enqueue
  split
  case isTrue => rintro _ ⟨⟩
  case isFalse =>
    refine .bind (.any _ s) fun reading s1 _ => ?_
    split
    case h_1 => rintro _ ⟨⟩
    case h_2 now =>
      split
      case isTrue => rintro _ ⟨⟩
      case isFalse =>
        refine .bind (.any _ s1) fun ids s2 _ => ?_
        split
        case h_1 => rintro _ ⟨⟩
        case h_2 deliveryID webhookID =>
          refine .call_bind fun env _ => ?_
          split
          case h_1 => rintro _ ⟨⟩
          case h_2 hcommitted =>
            rintro _ ⟨⟩
            have hbody : Delivery.enqueueItem d.maxQueueItems
                (Delivery.Dispatcher.newItem request deliveryID webhookID now)
                (some (storePayload bucket key document present)) s2 = .ok (_, _) :=
              Delivery.Transaction.run_ok hcommitted
            obtain ⟨_, s3, hstore, hadmit⟩ := Tx.bind_ok.mp hbody
            obtain ⟨-, rfl⟩ := Delivery.storePayload_ok hstore
            obtain ⟨_, -, hstate⟩ := Delivery.admitItem_ok.mp hadmit
            change ((Delivery.Transaction.run _ _ s2).2 bucket)[key]? = _
            rw [hstate, Function.update_of_ne (Delivery.ne_of_isPayload hbucket rfl),
              Function.update_self, Std.ExtTreeMap.getElem?_insert_self]

theorem load_ends (eventID : Bytes) (s : Store) :
    (Publisher.load eventID).Ends (Prog.anyhow interface) (fun value s' => s = s' ∧
      ∀ existing, value = .ok (some existing) → ∃ document,
        (s .lifecycleEvents)[recordKey eventID]? = some document ∧
        decodeEvent document = .ok existing) s := by
  refine .call_bind fun env _ => ?_
  split
  case h_1 e herror =>
    refine ⟨(Delivery.Transaction.run_error herror).symm, ?_⟩
    rintro _ ⟨⟩
  case h_2 found hfound =>
    have hbody : Tx.get .lifecycleEvents (recordKey eventID) s = .ok (found, _) :=
      Delivery.Transaction.run_ok hfound
    obtain ⟨-, rfl, hstate⟩ := Tx.get_ok.mp hbody
    refine ⟨hstate.symm, fun existing hexisting => ?_⟩
    change Publisher.checkedEvent eventID _ = _ at hexisting
    unfold Publisher.checkedEvent at hexisting
    split at hexisting
    case h_1 => cases hexisting
    case h_2 document hdocument =>
      split at hexisting
      case h_1 => cases hexisting
      case h_2 event hevent =>
        split at hexisting
        case isTrue =>
          cases hexisting
          exact ⟨document, hdocument, hevent⟩
        case isFalse => cases hexisting

/-- What a publication that went through leaves. -/
def Published (input : Input) (s : Store) : Prop :=
  ∃ event document, Lifecycle.event input = .ok event ∧
    LifecycleEvent.codec.marshal event = some document ∧ Holds s event

section Publish

variable (hevent : Lifecycle.event input = .ok event)
  (hdocument : LifecycleEvent.codec.marshal event = some document)
include hevent hdocument

theorem publishLost_ends (s : Store) :
    (Publisher.publishLost event).Ends (Prog.anyhow interface)
      (fun value s' => ∀ result, value = .ok result → Published input s') s := by
  refine .bind (load_ends event.eventID s) ?_
  rintro value s' ⟨rfl, hvalue⟩
  split
  case h_1 => rintro _ ⟨⟩
  case h_2 => rintro _ ⟨⟩
  case h_3 existing =>
    obtain ⟨found, hfound, hdecode⟩ := hvalue existing rfl
    split
    case isTrue hsame => exact fun _ _ =>
      ⟨event, document, hevent, hdocument, found, existing, hfound, hdecode, hsame⟩
    case isFalse => rintro _ ⟨⟩

theorem publishNew_ends (p : Publisher) (s : Store) :
    (p.publishNew event document).Ends (Prog.anyhow interface)
      (fun value s' => ∀ result, value = .ok result → Published input s') s := by
  refine .bind (enqueue_ends p.queue (p.enqueueRequest event) (by decide)
    (recordKey event.eventID) document
    errEventExists s) ?_
  intro value s' hvalue
  split
  case h_1 item =>
    exact fun _ _ => ⟨event, document, hevent, hdocument, document, event, hvalue item rfl,
      decodeEvent_marshal hevent hdocument, sameEvent_refl event⟩
  case h_2 =>
    split
    case isTrue => exact publishLost_ends hevent hdocument s'
    case isFalse => rintro _ ⟨⟩

end Publish

theorem publish_ends (p : Publisher) (input : Input) (s : Store) :
    (p.publish input).Ends (Prog.anyhow interface)
      (fun value s' => ∀ result, value = .ok result → Published input s') s := by
  refine .call_bind fun env _ => ?_
  split
  case h_1 => rintro _ ⟨⟩
  case h_2 =>
    split
    case h_1 => rintro _ ⟨⟩
    case h_2 event hevent =>
      split
      case h_1 => rintro _ ⟨⟩
      case h_2 document hencode =>
        have hdocument := encode_ok.mp hencode
        refine .bind (load_ends event.eventID s) ?_
        rintro value s' ⟨rfl, hvalue⟩
        split
        case h_1 => rintro _ ⟨⟩
        case h_2 existing =>
          obtain ⟨found, hfound, hdecode⟩ := hvalue existing rfl
          split
          case isTrue hsame =>
            exact fun _ _ => ⟨event, document, hevent, hdocument, found, existing, hfound,
              hdecode, hsame⟩
          case isFalse => rintro _ ⟨⟩
        case h_3 => exact publishNew_ends hevent hdocument p s

/-! ## Publishing again -/

/-- The caller's context is not cancelled and the store does not fail. -/
def quiet : (o : interface.Op) → interface.Answer o → Prop := fun _ (env : Environment) =>
  env.cancelled = none ∧ env.fault = none

def Repeats (event : LifecycleEvent) (input : Input) : Prop :=
  ∃ event' document, Lifecycle.event input = .ok event' ∧
    LifecycleEvent.codec.marshal event' = some document ∧ sameEvent event event' = true

theorem load_held {s : Store} (h : Holds s event) :
    (Publisher.load event.eventID).Ends quiet (fun value s' => s = s' ∧
      ∃ existing, value = .ok (some existing) ∧ sameEvent existing event = true) s := by
  obtain ⟨document, existing, hdocument, hdecode, hsame⟩ := h
  have hid : existing.eventID = event.eventID := by
    simp only [sameEvent, Bool.and_eq_true, decide_eq_true_eq] at hsame
    exact hsame.1.1.1.1.1.2
  refine .call_bind fun env hquiet => ?_
  have hget : Tx.get .lifecycleEvents (recordKey event.eventID) s = .ok (some document, s) :=
    Tx.get_ok.mpr ⟨List.append_ne_nil_of_left_ne_nil (by decide) _, hdocument.symm, rfl⟩
  have hrun : interface.perform (.tx (.read "load lifecycle event: " .lifecycleEvents
      (recordKey event.eventID))) env s = (.ok (some document), s) := by
    change Delivery.Transaction.run _ (Environment.fault env) s = _
    rw [hquiet.2]
    exact Delivery.Transaction.run_of_ok hget
  rw [hrun]
  refine ⟨rfl, existing, ?_, hsame⟩
  unfold Publisher.checkedEvent
  dsimp only
  rw [hdecode]
  exact if_pos hid

/-- A publication under the ID of an event that is stored writes nothing, and is a duplicate exactly
if it makes the same event. -/
theorem publish_again (p : Publisher) {s : Store} (h : Holds s event) {again : Input}
    (hid : again.eventID = event.eventID) :
    (p.publish again).Ends quiet (fun value s' => s = s' ∧
      (errorOf value = none ↔ Repeats event again) ∧
      ∀ result, value = .ok result → result.duplicate = true) s := by
  refine .call_bind fun env hquiet => ?_
  have hctx : (interface.perform .ctxErr env s) = (none, s) := Prod.ext hquiet.1 rfl
  rw [hctx]
  dsimp only
  split
  case h_1 e herror =>
    refine ⟨rfl, iff_of_false (by rintro ⟨⟩) ?_, by rintro _ ⟨⟩⟩
    rintro ⟨event', _, hevent', -⟩
    cases herror.symm.trans hevent'
  case h_2 event' hevent' =>
    have hid' : event'.eventID = event.eventID := by
      obtain ⟨-, -, -, -, -, -, rfl⟩ := Delivery.event_ok hevent'
      exact hid
    split
    case h_1 e herror =>
      refine ⟨rfl, iff_of_false (by rintro ⟨⟩) ?_, by rintro _ ⟨⟩⟩
      rintro ⟨event'', document, hevent'', hdocument, -⟩
      obtain rfl := Except.ok.inj (hevent'.symm.trans hevent'')
      cases herror.symm.trans (encode_ok.mpr hdocument)
    case h_2 document hdocument =>
      rw [hid']
      refine .bind (load_held h) ?_
      rintro _ s' ⟨rfl, existing, rfl, hsame⟩
      dsimp only
      have hrepeats : Repeats event again ↔ sameEvent existing event' = true := by
        rw [sameEvent_congr hsame]
        constructor
        · rintro ⟨event'', _, hevent'', -, hsame'⟩
          obtain rfl := Except.ok.inj (hevent'.symm.trans hevent'')
          exact hsame'
        · exact fun hsame' => ⟨event', document, hevent', encode_ok.mp hdocument, hsame'⟩
      split
      case isTrue hsame' =>
        refine ⟨rfl, iff_of_true rfl (hrepeats.mpr hsame'), ?_⟩
        rintro _ ⟨⟩
        rfl
      case isFalse hsame' =>
        exact ⟨rfl, iff_of_false (by rintro ⟨⟩) fun h => hsame' (hrepeats.mp h), by rintro _ ⟨⟩⟩

/-! ## Transitions -/

def reading (answers : Answers interface) : Time := (answers 0 Delivery.Op.clock : Environment).now

open Publisher (Transition)

theorem publishAt_exec (p : Publisher) (transition : Transition) (now : Time)
    (answers : Answers interface)
    (s : Store) : ((p.publishAt transition now).exec answers s).value =
        errorOf ((p.publish (transition.input now)).exec answers s).value ∧
      ((p.publishAt transition now).exec answers s).state =
        ((p.publish (transition.input now)).exec answers s).state := by
  rw [Publisher.publishAt, Prog.exec_bind]
  exact ⟨rfl, rfl⟩

omit [UnicodeTables] in
theorem exec_clock_bind (f : Time → Delivery.Prog (Option Error))
    (answers : Answers interface) (s : Store) :
    ((Delivery.call .clock >>= f).exec answers s).value =
        ((f (reading answers)).exec (answers.drop 1) s).value ∧
      ((Delivery.call .clock >>= f).exec answers s).state =
        ((f (reading answers)).exec (answers.drop 1) s).state := ⟨rfl, rfl⟩

theorem publishTransition_exec (p : Publisher) (transition : Transition)
    (answers : Answers interface)
    (s : Store) : ∃ n, ((p.publishTransition transition).exec answers s).value =
        errorOf ((p.publish (transition.input (reading answers))).exec (answers.drop n) s).value ∧
      ((p.publishTransition transition).exec answers s).state =
        ((p.publish (transition.input (reading answers))).exec (answers.drop n) s).state := by
  have hclock : ∀ t : Transition, p.publishTransition t = (Delivery.call .clock >>= p.publishAt t) →
      ∃ n, ((p.publishTransition t).exec answers s).value =
          errorOf ((p.publish (t.input (reading answers))).exec (answers.drop n) s).value ∧
        ((p.publishTransition t).exec answers s).state =
          ((p.publish (t.input (reading answers))).exec (answers.drop n) s).state := by
    intro t ht
    obtain ⟨hvalue, hstate⟩ := exec_clock_bind (p.publishAt t) answers s
    obtain ⟨hvalue', hstate'⟩ := publishAt_exec p t (reading answers) (answers.drop 1) s
    rw [ht]
    exact ⟨1, hvalue.trans hvalue', hstate.trans hstate'⟩
  cases transition with
  | analysisUnavailable => exact hclock _ rfl
  | policyDenied => exact hclock _ rfl
  | recoveryStarted => exact hclock _ rfl
  | approvalRequested command =>
    obtain ⟨hvalue, hstate⟩ :=
      publishAt_exec p (.approvalRequested command) command.issuedAt answers s
    exact ⟨0, hvalue, hstate⟩

def Publisher.Transition.eventID (transition : Transition) : Bytes := (transition.input 0).eventID

omit [UnicodeTables] in
theorem eventID_input (transition : Transition) (now : Time) :
    (transition.input now).eventID = transition.eventID := by
  cases transition with
  | _ => rfl

omit [UnicodeTables] in
theorem input_eq_iff (transition : Transition) (now now' : Time) :
    ((∃ command, transition = .approvalRequested command) ∨ now' = now) ↔
      (transition.input now').occurredAt = (transition.input now).occurredAt ∧
        transition.input now' = transition.input now := by
  cases transition with
  | approvalRequested command => exact iff_of_true (.inl ⟨command, rfl⟩) ⟨rfl, rfl⟩
  | _ =>
    constructor
    · rintro (⟨command, ⟨⟩⟩ | rfl)
      exact ⟨rfl, rfl⟩
    · exact fun h => .inr h.1

theorem repeats_iff {transition : Transition} {now now' : Time}
    (hevent : Lifecycle.event (transition.input now) = .ok event)
    (hdocument : LifecycleEvent.codec.marshal event = some document) :
    Repeats event (transition.input now') ↔
      (∃ command, transition = .approvalRequested command) ∨ now' = now := by
  constructor
  · rintro ⟨event', -, hevent', -, hsame⟩
    obtain ⟨-, -, -, -, -, -, rfl⟩ := Delivery.event_ok hevent
    obtain ⟨-, -, -, -, -, -, rfl⟩ := Delivery.event_ok hevent'
    simp only [sameEvent, Bool.and_eq_true, decide_eq_true_eq] at hsame
    have htime := hsame.1.1.2
    cases transition with
    | approvalRequested command => exact .inl ⟨command, rfl⟩
    | _ => exact .inr htime.symm
  · intro h
    rw [((input_eq_iff transition now now').mp h).2]
    exact ⟨event, document, hevent, hdocument, sameEvent_refl event⟩

/-- The call returns no error, and the store has one payload and one item for the transition. -/
structure Repeated (p : Publisher) (transition : Transition)
    (answers : Answers interface) (s : Store) :
    Prop where
  error : ((p.publishTransition transition).exec answers s).value = none
  payload : ∃ document, (((p.publishTransition transition).exec answers s).state .lifecycleEvents)[
    recordKey transition.eventID]? = some document
  item : ∃! key, ∃ item,
    Delivery.Loads ((p.publishTransition transition).exec answers s).state key item ∧
    Delivery.Refers item .lifecycleEvents (recordKey transition.eventID)

theorem published_first {s : Store} (hs : Paired s) (p : Publisher) {transition : Transition}
    {answers : Answers interface}
    (hfirst : ((p.publishTransition transition).exec answers s).value = none) :
    Paired ((p.publishTransition transition).exec answers s).state ∧
      Published (transition.input (reading answers))
        ((p.publishTransition transition).exec answers s).state := by
  obtain ⟨n, hvalue, hstate⟩ := publishTransition_exec p transition answers s
  rw [hvalue] at hfirst
  rw [hstate]
  have hanyhow : ∀ i o, Prog.anyhow interface o (answers.drop n i o) := fun _ _ => trivial
  have hpublished := (publish_ends p (transition.input (reading answers)) s).exec hanyhow
  refine ⟨?_, ?_⟩
  · have hsat : (p.publish (transition.input (reading answers))).Sat Delivery.Publishing
        (fun _ _ => True) [] :=
      Delivery.sat_publish (Delivery.carries_event p _)
    have hstep : ∀ h o (env : Delivery.Environment) s, Delivery.Publishing h o → Paired s →
        Paired (Delivery.perform o env s).2 :=
      fun _ _ env _ hallowed hpaired => hpaired.perform hallowed env
    have hkept := hsat.exec_state hstep (answers.drop n) hs
    exact hkept
  · cases hresult : ((p.publish (transition.input (reading answers))).exec
      (answers.drop n) s).value with
    | error e =>
      rw [hresult] at hfirst
      cases hfirst
    | ok result => exact hpublished result hresult

/-- A transition whose publication went through is published again later, after any calls of
publishers and passes over the queue: that goes through exactly if the transition takes its time
from its command or the clock reads what it read the first time. -/
theorem transition_repeated_iff {s : Store} (hs : Paired s) (p again : Publisher)
    (transition : Transition)
    {answers answers' : Answers interface}
    (hfirst : ((p.publishTransition transition).exec answers s).value = none)
    (actions : List (Action Delivery.system))
    (hcalls : ∀ call, Action.spawn call ∈ actions → call.Pairs)
    (hquiet : ∀ i o, quiet o (answers' i o)) :
    Repeated again transition answers'
        (Delivery.run ((p.publishTransition transition).exec answers s).state actions).state ↔
      (∃ command, transition = .approvalRequested command) ∨
        reading answers' = reading answers := by
  obtain ⟨hpaired1, event, document, hevent, hdocument, hholds⟩ := published_first hs p hfirst
  have hpaired2 := (Delivery.paired_of_run hpaired1 actions hcalls).1
  have hkept := Delivery.payloadsKept_of_run ((p.publishTransition transition).exec answers s).state
    actions hcalls
  generalize (Delivery.run ((p.publishTransition transition).exec answers s).state
    actions).state = s2
    at hpaired2 hkept ⊢
  have hid : event.eventID = transition.eventID := by
    obtain ⟨-, -, -, -, -, -, rfl⟩ := Delivery.event_ok hevent
    exact eventID_input transition _
  obtain ⟨stored, existing, hstored, hdecode, hsame⟩ := hholds
  have hstored2 := hkept .lifecycleEvents _ stored rfl hstored
  have hholds2 : Holds s2 event := ⟨stored, existing, hstored2, hdecode, hsame⟩
  obtain ⟨n, hvalue, hstate⟩ := publishTransition_exec again transition answers' s2
  have hid2 : (transition.input (reading answers')).eventID =
    event.eventID := by rw [eventID_input, hid]
  have hquiet2 : ∀ i o, quiet o (answers'.drop n i o) := fun i o => hquiet (i + n) o
  obtain ⟨hsame2, herror, -⟩ := (publish_again again hholds2 hid2).exec hquiet2
  rw [repeats_iff hevent hdocument, ← hvalue] at herror
  rw [← hstate] at hsame2
  constructor
  · exact fun h => herror.mp h.error
  · intro h
    rw [hid] at hstored2
    refine ⟨herror.mpr h, ?_, ?_⟩
    · rw [← hsame2]
      exact ⟨stored, hstored2⟩
    · rw [← hsame2]
      exact hpaired2.carried .lifecycleEvents _ stored rfl hstored2

end

/-! ## Two readings of the clock -/

def answersAt (now : Time) : Answers interface := fun _ o =>
  { Delivery.exampleAnswers o with now := now }

def exampleApproval : Publisher.Transition := .approvalRequested
  { commandID := lit "command_01"
    incidentID := lit "incident_01"
    issuedAt := 63776073600000000000 }

theorem approval_repeated :
    @Repeated asciiTables Delivery.examplePublisher exampleApproval (answersAt 63776073700000000000)
      (@Delivery.run asciiTables
        ((@Publisher.publishTransition asciiTables Delivery.examplePublisher exampleApproval).exec
          (answersAt 63776073600000000000) Store.empty).state []).state := by
  have hfirst : ((@Publisher.publishTransition asciiTables Delivery.examplePublisher
    exampleApproval).exec
      (answersAt 63776073600000000000) Store.empty).value = none := by
    decide +kernel
  have hempty : Paired Store.empty := .initial rfl fun _ _ => rfl
  have hrepeated := @transition_repeated_iff asciiTables _ hempty Delivery.examplePublisher
    Delivery.examplePublisher exampleApproval _ (answersAt 63776073700000000000) hfirst []
    (fun _ h => absurd h List.not_mem_nil) fun _ _ => ⟨rfl, rfl⟩
  exact hrepeated.mpr (.inl ⟨_, rfl⟩)

def exampleDenial : Publisher.Transition :=
  .policyDenied (lit "incident_01") (lit "key_01") (lit "denied")

/-- A denial is published, and a nanosecond later its repetition is refused as an invalid event. -/
theorem denial_refused_later :
    ((@Publisher.publishTransition asciiTables Delivery.examplePublisher exampleDenial).exec
        (answersAt 63776073600000000000) Store.empty).value = none ∧
      ((@Publisher.publishTransition asciiTables Delivery.examplePublisher exampleDenial).exec
        (answersAt 63776073600000000001)
        ((@Publisher.publishTransition asciiTables Delivery.examplePublisher exampleDenial).exec
          (answersAt 63776073600000000000) Store.empty).state).value = some errInvalidEvent := by
  decide +kernel

end PulseAgent.Lifecycle
