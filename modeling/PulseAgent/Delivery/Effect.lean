import PulseAgent.Contract.Clean
import PulseAgent.Delivery.Dispatcher

/-!
# What a committed transaction does to the queue

The queue and the audit log stay as they are, or one item is taken in, marked delivered, scheduled
for another attempt, or ended together with one audit record.
-/

namespace PulseAgent.Delivery

open Go Go.Json Contract

theorem cleans_deliveryQueueItem : DeliveryQueueItem.codec.Cleans := by
  have htype : DeliveryPayloadType.codec.Cleans :=
    Codec.cleans_named DeliveryPayloadType.text_ofText
  have hstate : DeliveryState.codec.Cleans := Codec.cleans_named DeliveryState.text_ofText
  refine Codec.cleans_struct ?_
  simp only [DeliveryQueueItem.fields, List.forall_mem_cons, List.not_mem_nil, false_imp_iff,
    implies_true, and_true]
  refine ⟨?_, ?_, .of htype (fun _ _ => rfl) fun _ => rfl, ?_, ?_, ?_,
    .plain (fun _ => rfl) (fun _ _ => rfl) fun _ => rfl,
    .plain (fun _ => rfl) (fun _ _ => rfl) fun _ => rfl,
    .plain (fun _ => rfl) (fun _ _ => rfl) fun _ => rfl, .of hstate (fun _ _ => rfl) fun _ => rfl⟩
  all_goals exact .of Codec.cleans_string (fun _ _ => rfl) fun _ => rfl

theorem norm_of_itemAt {s : Store} {key : Bytes} {item : Item} (h : itemAt s key = some item) :
    DeliveryQueueItem.codec.norm item = item := by
  obtain ⟨document, -, hcontent⟩ := Option.bind_eq_some_iff.mp h
  exact norm_of_content cleans_deliveryQueueItem rfl hcontent

/-! ## One item -/

theorem norm_eq_iff {item : Item} : DeliveryQueueItem.codec.norm item = item ↔
    (Utf8.toValidUTF8 item.schemaVersion = item.schemaVersion ∧
      Utf8.toValidUTF8 item.deliveryID = item.deliveryID ∧
      Utf8.toValidUTF8 item.payloadRef = item.payloadRef ∧
      Utf8.toValidUTF8 item.webhookID = item.webhookID ∧
      Utf8.toValidUTF8 item.destinationRef = item.destinationRef) ∧
    DeliveryPayloadType.codec.norm item.payloadType = item.payloadType ∧
      DeliveryState.codec.norm item.state = item.state := by
  change DeliveryQueueItem.mk (Utf8.toValidUTF8 item.schemaVersion)
    (Utf8.toValidUTF8 item.deliveryID) (DeliveryPayloadType.codec.norm item.payloadType)
    (Utf8.toValidUTF8 item.payloadRef) (Utf8.toValidUTF8 item.webhookID)
    (Utf8.toValidUTF8 item.destinationRef) item.attemptCount item.nextAttemptAt item.expiresAt
    (DeliveryState.codec.norm item.state) = item ↔ _
  cases item
  simp only [DeliveryQueueItem.mk.injEq]
  tauto

/-- Only what is no text changes in the life of an item. -/
structure SameText (old new : Item) : Prop where
  schemaVersion : new.schemaVersion = old.schemaVersion
  deliveryID : new.deliveryID = old.deliveryID
  payloadType : new.payloadType = old.payloadType
  payloadRef : new.payloadRef = old.payloadRef
  webhookID : new.webhookID = old.webhookID
  destinationRef : new.destinationRef = old.destinationRef
  expiresAt : new.expiresAt = old.expiresAt

namespace SameText

variable {a b c : Item}

theorem refl (a : Item) : SameText a a := ⟨rfl, rfl, rfl, rfl, rfl, rfl, rfl⟩

theorem trans (h : SameText a b) (h' : SameText b c) : SameText a c :=
  ⟨h'.1.trans h.1, h'.2.trans h.2, h'.3.trans h.3, h'.4.trans h.4, h'.5.trans h.5, h'.6.trans h.6,
    h'.7.trans h.7⟩

theorem norm_eq (h : SameText a b) (ha : DeliveryQueueItem.codec.norm a = a)
    (hstate : DeliveryState.codec.norm b.state = b.state) :
    DeliveryQueueItem.codec.norm b = b := by
  rw [norm_eq_iff] at ha ⊢
  rw [h.schemaVersion, h.deliveryID, h.payloadType, h.payloadRef, h.webhookID, h.destinationRef]
  exact ⟨ha.1, ha.2.1, hstate⟩

end SameText

theorem norm_state {state : DeliveryState} (h : state.valid = true) :
    DeliveryState.codec.norm state = state := by
  cases state with
  | other => cases h
  | _ => decide +kernel

/-- One step in the life of an item: only a pending one changes. -/
inductive Change (old : Item) : Item → Prop where
  | delivered (h : old.state = .pending) :
      Change old { old with attemptCount := old.attemptCount + 1, state := .delivered }
  | retried (nextAttempt : Int64) (nextAt : Time) (h : old.state = .pending) :
      Change old { old with attemptCount := nextAttempt, nextAttemptAt := nextAt }
  | ended (ending : Ending) (h : old.state = .pending) :
      Change old { old with state := ending.state }

namespace Change

variable {old new : Item}

theorem pending (h : Change old new) : old.state = .pending := by
  cases h <;> assumption

theorem sameText (h : Change old new) : SameText old new := by
  cases h <;> exact ⟨rfl, rfl, rfl, rfl, rfl, rfl, rfl⟩

theorem norm_eq (h : Change old new) (hold : DeliveryQueueItem.codec.norm old = old) :
    DeliveryQueueItem.codec.norm new = new := by
  refine h.sameText.norm_eq hold (norm_state ?_)
  cases h with
  | delivered => rfl
  | retried nextAttempt nextAt hpending =>
    change old.state.valid = true
    rw [hpending]
    rfl
  | ended ending => cases ending <;> rfl

end Change

/-! ## The transactions -/

section Transactions

variable {key : Bytes} {s s' : Store}

/-- What an audited ending adds to the log. -/
def Failure (auditID deliveryID reason : Bytes) (now : Time) (event : AuditEvent) : Prop :=
  event.eventID = auditID ∧ event.action = lit "delivery.failed" ∧
    event.aggregateType = lit "delivery" ∧ event.aggregateID = deliveryID ∧
    event.reasonCode = reason ∧ event.occurredAt = now

theorem markDelivered_ok {now : Time} {item : Item}
    (h : Delivery.markDelivered key now s = .ok (item, s')) :
    Loads s key item ∧ item.state = .delivered ∧ s' = s ∨
      ∃ old document, Loads s key old ∧ old.state = .pending ∧ now < old.expiresAt ∧
        item = { old with attemptCount := old.attemptCount + 1, state := .delivered } ∧
        Written key item document ∧
        s' = Function.update s .deliveryQueue ((s .deliveryQueue).insert key document) := by
  obtain ⟨-, current, hloads, h⟩ := bind_loadItem_ok.mp h
  split at h
  case isTrue hstate =>
    cases h
    exact .inl ⟨hloads, hstate, rfl⟩
  case isFalse =>
    obtain ⟨⟨hpending, hnow⟩, h⟩ := Tx.bind_require_ok.mp h
    obtain ⟨_, s2, hput, h⟩ := Tx.bind_ok.mp h
    obtain ⟨document, hwritten, rfl⟩ := putItem_ok.mp hput
    cases h
    exact .inr ⟨current, document, hloads, hpending, hnow, rfl, hwritten, rfl⟩

theorem scheduleRetry_ok {nextAttempt : Int64} {nextAt : Time} {item : Item}
    (h : Delivery.scheduleRetry key nextAttempt nextAt s = .ok (item, s')) :
    ∃ old document, Loads s key old ∧ old.state = .pending ∧
      item = { old with attemptCount := nextAttempt, nextAttemptAt := nextAt } ∧
      Written key item document ∧
      s' = Function.update s .deliveryQueue ((s .deliveryQueue).insert key document) := by
  obtain ⟨-, current, hloads, h⟩ := bind_loadItem_ok.mp h
  obtain ⟨hpending, h⟩ := Tx.bind_require_ok.mp h
  obtain ⟨_, s2, hput, h⟩ := Tx.bind_ok.mp h
  obtain ⟨document, hwritten, rfl⟩ := putItem_ok.mp hput
  cases h
  exact ⟨current, document, hloads, hpending, rfl, hwritten, rfl⟩

theorem markTerminal_ok {ending : Ending} {auditID reason : Bytes} {now : Time} {item : Item}
    (h : Delivery.markTerminal key ending auditID now reason s = .ok (item, s')) :
    Loads s key item ∧ item.state = ending.state ∧ s' = s ∨
      ∃ old document event, Loads s key old ∧ old.state = .pending ∧
        item = { old with state := ending.state } ∧ Written key item document ∧
        s' .deliveryQueue = (s .deliveryQueue).insert key document ∧
        Audit.log s' = Audit.log s ++ [event] ∧
        Failure auditID old.deliveryID reason now event := by
  obtain ⟨-, current, hloads, h⟩ := bind_loadItem_ok.mp h
  split at h
  case isTrue hstate =>
    cases h
    exact .inl ⟨hloads, hstate, rfl⟩
  case isFalse =>
    obtain ⟨hpending, h⟩ := Tx.bind_require_ok.mp h
    obtain ⟨event, s2, happend, h⟩ := Tx.bind_ok.mp h
    cases h
    obtain ⟨state, s3, auditDocument, hread, -, -, -, -, hevent, -⟩ := Audit.append_ok happend
    obtain ⟨events, hchain, -⟩ := Audit.readChain_ok.mp hread
    obtain ⟨_, -, hrecords, -⟩ := Audit.append_records hchain happend
    obtain ⟨s4, hother, hput⟩ := Audit.append_change happend
    obtain ⟨document, hwritten, rfl⟩ := putItem_ok.mp hput
    refine .inr ⟨current, document, event, hloads, hpending, rfl, hwritten, ?_, ?_, ?_⟩
    · rw [hother .deliveryQueue (by decide), Function.update_self]
    · rw [hchain.log_eq]
      exact hrecords.filterMap
    · rw [hevent]
      exact ⟨rfl, rfl, rfl, rfl, rfl, rfl⟩

/-- What admission demands of the store and of the item. -/
structure Admitted (maxQueueItems : Nat) (item : Item) (s : Store) (document : Bytes) : Prop where
  readable : Readable (s .deliveryQueue).toList
  room : pendingCount s < maxQueueItems
  absent : (s .deliveryQueue)[itemKey item.deliveryID]? = none
  unused : ∀ entry ∈ items s, entry.2.webhookID ≠ item.webhookID
  written : Written (itemKey item.deliveryID) item document

theorem admitItem_ok {maxQueueItems : Nat} {item : Item} {u : Unit} :
    admitItem maxQueueItems item s = .ok (u, s') ↔ ∃ document,
      Admitted maxQueueItems item s document ∧
      s' = Function.update s .deliveryQueue
        ((s .deliveryQueue).insert (itemKey item.deliveryID) document) := by
  unfold admitItem
  constructor
  · intro h
    obtain ⟨pending, s1, hcount, hchecks⟩ := Tx.bind_ok.mp h
    obtain ⟨rfl, hreadable, rfl⟩ := countPending_ok.mp hcount
    obtain ⟨hroom, hchecks⟩ := Tx.bind_require_ok.mp hchecks
    obtain ⟨-, hchecks⟩ := Tx.bind_get_ok.mp hchecks
    obtain ⟨habsent, hchecks⟩ := Tx.bind_require_ok.mp hchecks
    obtain ⟨inUse, s2, hscan, hrest⟩ := Tx.bind_ok.mp hchecks
    obtain ⟨rfl, -, hany⟩ := webhookIDInUse_ok.mp hscan
    obtain ⟨rfl, hput⟩ := Tx.bind_require_ok.mp hrest
    obtain ⟨document, hwritten, rfl⟩ := putItem_ok.mp hput
    refine ⟨document, ⟨hreadable, hroom, habsent, fun entry hentry => ?_, hwritten⟩, rfl⟩
    simpa using List.any_eq_false.mp hany entry hentry
  · rintro ⟨document, hadmitted, rfl⟩
    rw [Tx.bind_of_ok (countPending_ok.mpr ⟨rfl, hadmitted.readable, rfl⟩)]
    refine Tx.bind_require_ok.mpr ⟨hadmitted.room, Tx.bind_get_ok.mpr ⟨itemKey_ne_nil _, ?_⟩⟩
    refine Tx.bind_require_ok.mpr ⟨hadmitted.absent, ?_⟩
    have hany : ((items s).any fun entry => entry.2.webhookID = item.webhookID) = false :=
      List.any_eq_false.mpr fun entry hentry => by simpa using hadmitted.unused entry hentry
    rw [Tx.bind_of_ok (webhookIDInUse_ok.mpr ⟨rfl, hadmitted.readable, hany⟩)]
    exact Tx.bind_require_ok.mpr ⟨rfl, putItem_ok.mpr ⟨document, hadmitted.written, rfl⟩⟩

end Transactions

/-! ## Effects -/

/-- The mutation of an enqueue leaves queue and audit log alone. -/
def Transaction.Spares : Transaction → Prop
  | .enqueue _ _ (some mutation) => mutation.Avoids .deliveryQueue ∧ mutation.Avoids .audit
  | _ => True

structure Put (key : Bytes) (item : Item) (s s' : Store) : Prop where
  write : ∃ document, Written key item document ∧
    s' .deliveryQueue = (s .deliveryQueue).insert key document

inductive Effect : Transaction → Store → Store → Prop where
  | unchanged (t : Transaction) (s s' : Store) (hqueue : s' .deliveryQueue = s .deliveryQueue)
      (haudit : s' .audit = s .audit) : Effect t s s'
  | admitted (maxQueueItems : Nat) (item : Item) (mutation : Option (TxProg Unit)) (s s' : Store)
      (document : Bytes) (hadmitted : Admitted maxQueueItems item s document)
      (hqueue : s' .deliveryQueue = (s .deliveryQueue).insert (itemKey item.deliveryID) document)
      (haudit : s' .audit = s .audit) : Effect (.enqueue maxQueueItems item mutation) s s'
  | delivered (key : Bytes) (now : Time) (s s' : Store) (old : Item) (hloads : Loads s key old)
      (hpending : old.state = .pending) (hnow : now < old.expiresAt)
      (hput : Put key { old with attemptCount := old.attemptCount + 1, state := .delivered } s s')
      (haudit : s' .audit = s .audit) : Effect (.markDelivered key now) s s'
  | retried (key : Bytes) (nextAttempt : Int64) (nextAt : Time) (s s' : Store) (old : Item)
      (hloads : Loads s key old) (hpending : old.state = .pending)
      (hput : Put key { old with attemptCount := nextAttempt, nextAttemptAt := nextAt } s s')
      (haudit : s' .audit = s .audit) : Effect (.scheduleRetry key nextAttempt nextAt) s s'
  | ended (key : Bytes) (ending : Ending) (auditID : Bytes) (now : Time) (reason : Bytes)
      (s s' : Store) (old : Item) (event : AuditEvent) (hloads : Loads s key old)
      (hpending : old.state = .pending) (hput : Put key { old with state := ending.state } s s')
      (hlog : Audit.log s' = Audit.log s ++ [event])
      (hfailure : Failure auditID old.deliveryID reason now event) :
      Effect (.markTerminal key ending auditID now reason) s s'

theorem Admitted.of_queue {maxQueueItems : Nat} {item : Item} {s s' : Store} {document : Bytes}
    (h : Admitted maxQueueItems item s document)
    (hqueue : s' .deliveryQueue = s .deliveryQueue) : Admitted maxQueueItems item s' document := by
  have hitems : items s' = items s := by
    unfold items
    rw [hqueue]
  refine ⟨by rw [hqueue]; exact h.readable, ?_, by rw [hqueue]; exact h.absent, ?_, h.written⟩
  · unfold pendingCount
    rw [hitems]
    exact h.room
  · rw [hitems]
    exact h.unused

theorem effect_of_admit {maxQueueItems : Nat} {item : Item} {mutation : Option (TxProg Unit)}
    {s s1 s' : Store} {u : Unit} (hqueue : s1 .deliveryQueue = s .deliveryQueue)
    (haudit : s1 .audit = s .audit) (h : admitItem maxQueueItems item s1 = .ok (u, s')) :
    Effect (.enqueue maxQueueItems item mutation) s s' := by
  obtain ⟨document, hadmitted, rfl⟩ := admitItem_ok.mp h
  refine .admitted maxQueueItems item mutation s _ document (hadmitted.of_queue hqueue.symm) ?_ ?_
  · rw [Function.update_self, hqueue]
  · rw [Function.update_of_ne (by decide), haudit]

/-- The step lemma: every committed transaction has one of the effects. -/
theorem body_effect {t : Transaction} (hspares : t.Spares) {s s' : Store} {a : t.Out}
    (h : t.body s = .ok (a, s')) : Effect t s s' := by
  cases t with
  | enqueue maxQueueItems item mutation =>
    cases mutation with
    | none => exact effect_of_admit rfl rfl h
    | some mutation =>
      obtain ⟨_, s1, hmutation, hadmit⟩ := Tx.bind_ok.mp h
      exact effect_of_admit (hspares.1.keeps s _ s1 hmutation) (hspares.2.keeps s _ s1 hmutation)
        hadmit
  | pendingItems =>
    obtain ⟨rfl, -⟩ := pendingItems_ok.mp h
    exact .unchanged _ _ _ rfl rfl
  | markDelivered key now =>
    obtain ⟨-, -, rfl⟩ | ⟨old, document, hloads, hpending, hnow, rfl, hwritten, rfl⟩ :=
      markDelivered_ok h
    · exact .unchanged _ _ _ rfl rfl
    · refine .delivered key now s _ old hloads hpending hnow ⟨document, hwritten, ?_⟩ ?_
      · exact Function.update_self _ _ _
      · exact Function.update_of_ne (by decide) _ _
  | scheduleRetry key nextAttempt nextAt =>
    obtain ⟨old, document, hloads, hpending, rfl, hwritten, rfl⟩ := scheduleRetry_ok h
    refine .retried key nextAttempt nextAt s _ old hloads hpending ⟨document, hwritten, ?_⟩ ?_
    · exact Function.update_self _ _ _
    · exact Function.update_of_ne (by decide) _ _
  | markTerminal key ending auditID now reason =>
    obtain ⟨-, -, rfl⟩ | ⟨old, document, event, hloads, hpending, rfl, hwritten, hqueue, hlog,
      hfailure⟩ := markTerminal_ok h
    · exact .unchanged _ _ _ rfl rfl
    · exact .ended key ending auditID now reason s s' old event hloads hpending
        ⟨document, hwritten, hqueue⟩ hlog hfailure
  | read context bucket key =>
    obtain ⟨-, -, rfl⟩ := Tx.get_ok.mp h
    exact .unchanged _ _ _ rfl rfl

end PulseAgent.Delivery
