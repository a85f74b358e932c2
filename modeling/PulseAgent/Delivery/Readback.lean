import PulseAgent.Contract.Checks
import PulseAgent.Delivery.Effect
import PulseAgent.Go.JsonSize

/-!
# Reading items back

The lengths that `enqueue` admits keep every document of the queue far below the reader's limit.
-/

namespace PulseAgent.Delivery

open Go Go.Json Contract

def itemDocument : Document DeliveryQueueItem where
  codec := DeliveryQueueItem.codec
  version := DeliveryQueueItem.schemaVersion
  header := header_of_members (by decide +kernel)

structure Sized (item : Item) : Prop where
  deliveryID : item.deliveryID.length ≤ 768
  payloadRef : item.payloadRef.length ≤ 768
  webhookID : item.webhookID.length ≤ 768
  destinationRef : item.destinationRef.length ≤ 768

theorem Sized.sameText {old new : Item} (h : Sized old) (hsame : SameText old new) : Sized new := by
  refine ⟨?_, ?_, ?_, ?_⟩
  · rw [hsame.deliveryID]
    exact h.deliveryID
  · rw [hsame.payloadRef]
    exact h.payloadRef
  · rw [hsame.webhookID]
    exact h.webhookID
  · rw [hsame.destinationRef]
    exact h.destinationRef

theorem length_of_validToken {value : Bytes} {limit : Nat} (h : validToken value limit = true) :
    value.length ≤ limit := by
  simp only [validToken, Bool.and_eq_true, decide_eq_true_eq] at h
  exact h.1.1.2

theorem Sized.norm {item : Item} (hdelivery : item.deliveryID.length ≤ 256)
    (hpayload : item.payloadRef.length ≤ 256) (hwebhook : item.webhookID.length ≤ 256)
    (hdestination : item.destinationRef.length ≤ 256) :
    Sized (DeliveryQueueItem.codec.norm item) := by
  have hclean : ∀ {text : Bytes}, text.length ≤ 256 → (Utf8.toValidUTF8 text).length ≤ 768 :=
    fun h => (Utf8.toValidUTF8_length_le _).trans (Nat.mul_le_mul_left 3 h)
  exact ⟨hclean hdelivery, hclean hpayload, hclean hwebhook, hclean hdestination⟩

theorem validate_ok {item : Item} : item.validate = .ok () ↔
    item.schemaVersion = schemaVersionV1 ∧ item.deliveryID ≠ [] ∧ item.payloadRef ≠ [] ∧
      item.webhookID ≠ [] ∧ item.destinationRef ≠ [] ∧
      (item.payloadType = .lifecycleEvent ∨ item.payloadType = .incidentReport) ∧
      0 ≤ item.attemptCount ∧ item.nextAttemptAt.isZero = false ∧ item.expiresAt.isZero = false ∧
      item.nextAttemptAt < item.expiresAt ∧ item.state.valid = true := by
  unfold DeliveryQueueItem.validate
  simp only [then_ok, validateVersion_ok, required_ok, check_ok, Bool.and_eq_true, Bool.or_eq_true,
    Bool.not_eq_true', decide_eq_true_eq, and_assoc]

theorem norm_payloadType {payloadType : DeliveryPayloadType}
    (h : payloadType = .lifecycleEvent ∨ payloadType = .incidentReport) :
    DeliveryPayloadType.codec.norm payloadType = payloadType := by
  rcases h with rfl | rfl <;> rfl

theorem validate_norm {item : Item} (h : item.validate = .ok ()) :
    (DeliveryQueueItem.codec.norm item).validate = .ok () := by
  obtain ⟨hversion, hdelivery, hpayload, hwebhook, hdestination, htype, hattempts, hnext, hexpires,
    hbefore, hstate⟩ := validate_ok.mp h
  have hfilled : ∀ {text : Bytes}, text ≠ [] → Utf8.toValidUTF8 text ≠ [] :=
    fun htext hnil => htext ((Utf8.toValidUTF8_eq_nil_iff _).mp hnil)
  refine validate_ok.mpr ⟨?_, hfilled hdelivery, hfilled hpayload, hfilled hwebhook,
    hfilled hdestination, ?_, hattempts, hnext, hexpires, hbefore, ?_⟩
  · change Utf8.toValidUTF8 item.schemaVersion = _
    rw [hversion]
    rfl
  · change DeliveryPayloadType.codec.norm item.payloadType = _ ∨
      DeliveryPayloadType.codec.norm item.payloadType = _
    rw [norm_payloadType htype]
    exact htype
  · change (DeliveryState.codec.norm item.state).valid = true
    rw [norm_state hstate]
    exact hstate

theorem document_length_le {item : Item} {document : Bytes} (h : Sized item)
    (hvalid : item.validate = .ok ())
    (hdocument : DeliveryQueueItem.codec.marshal item = some document) :
    document.length ≤ maxDocumentBytes := by
  obtain ⟨hversion, -, -, -, -, htype, -, -, -, -, hstate⟩ := validate_ok.mp hvalid
  have hver : item.schemaVersion.length ≤ 768 := by
    rw [hversion]
    decide
  have htypeText : item.payloadType.text.length ≤ 768 := by
    rcases htype with htype | htype <;> rw [htype] <;> decide
  have hstateText : item.state.text.length ≤ 768 := by
    cases hs : item.state with
    | other =>
      rw [hs] at hstate
      cases hstate
    | _ => decide
  obtain ⟨v, hv, rfl⟩ := Option.map_eq_some_iff.mp hdocument
  obtain ⟨ms, hms, rfl⟩ := Option.map_eq_some_iff.mp hv
  have hsmall : ∀ f ∈ DeliveryQueueItem.fields, f.Small 5000 item := by
    simp only [DeliveryQueueItem.fields, List.forall_mem_cons, List.not_mem_nil, false_imp_iff,
      implies_true, and_true]
    exact ⟨Member.small_string hver (by decide +kernel),
      Member.small_string h.deliveryID (by decide +kernel),
      Member.small_named htypeText (by decide +kernel),
      Member.small_string h.payloadRef (by decide +kernel),
      Member.small_string h.webhookID (by decide +kernel),
      Member.small_string h.destinationRef (by decide +kernel),
      Member.small_int64 (by decide +kernel), Member.small_time (by decide +kernel),
      Member.small_time (by decide +kernel), Member.small_named hstateText (by decide +kernel)⟩
  refine le_trans (Member.render_length_le hms hsmall) ?_
  decide

theorem Written.decodeItem {key : Bytes} {item : Item} {document : Bytes}
    (h : Written key item document) (hsized : Sized item) :
    decodeItem document = .ok (DeliveryQueueItem.codec.norm item) := by
  have hversion : Utf8.toValidUTF8 item.schemaVersion = schemaVersionV1 := by
    rw [(validate_ok.mp h.valid).1]
    rfl
  have hdecode := decode_marshal itemDocument
    ⟨maxDocumentBytes, schemaVersionV1, DeliveryQueueItem.validate⟩ h.marshal
    ⟨by decide, by decide +kernel⟩
    (Int.ofNat_le.mpr (document_length_le hsized h.valid h.marshal)) hversion
  unfold Delivery.decodeItem
  change decode DeliveryQueueItem.codec _ document =
    Except.map _ ((DeliveryQueueItem.codec.norm item).validate) at hdecode
  rw [hdecode, validate_norm h.valid]
  rfl

end PulseAgent.Delivery
