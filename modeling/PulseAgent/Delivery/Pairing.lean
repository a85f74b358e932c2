import PulseAgent.Delivery.Lifetime

/-!
# Payloads and their items

At every point of a run each item names a payload that is stored, and each stored payload has one
item.
-/

namespace PulseAgent.Delivery

open Go Go.Json Contract Concurrent

/-! ## References -/

/-- Where the payload of a reference is stored. -/
def location (payloadType : DeliveryPayloadType) (payloadRef : Bytes) : Option (Bucket × Bytes) :=
  match payloadType with
  | .lifecycleEvent => some (.lifecycleEvents, Lifecycle.recordKey payloadRef)
  | .incidentReport => some (.incidentReports, Report.reportRecordKey payloadRef)
  | .other .. => none

/-- The document is the payload of its type that the reference names. -/
def Spells (payloadType : DeliveryPayloadType) (payloadRef document : Bytes) : Prop :=
  match payloadType with
  | .lifecycleEvent => ∃ event, content LifecycleEvent.codec document = some event ∧
    event.eventID = payloadRef
  | .incidentReport => ∃ report, content IncidentReport.codec document = some report ∧
    report.reportID = payloadRef
  | .other .. => False

def isPayload : Bucket → Bool
  | .lifecycleEvents | .incidentReports => true
  | _ => false

/-- The item refers to the payload under this key. -/
def Refers (item : Item) (bucket : Bucket) (key : Bytes) : Prop :=
  location item.payloadType item.payloadRef = some (bucket, key)

theorem isPayload_of_location {payloadType : DeliveryPayloadType} {payloadRef key : Bytes}
    {bucket : Bucket} (h : location payloadType payloadRef = some (bucket, key)) :
    isPayload bucket = true := by
  unfold location at h
  split at h
  case h_1 =>
    cases h
    rfl
  case h_2 =>
    cases h
    rfl
  case h_3 => cases h

theorem ne_of_isPayload {bucket other : Bucket} (h : isPayload bucket = true)
    (hother : isPayload other = false) : bucket ≠ other := by
  rintro rfl
  rw [h] at hother
  cases hother

structure Paired (s : Store) : Prop where
  readable : ∀ (key document : Bytes), (s .deliveryQueue)[key]? = some document →
    ∃ item, decodeItem document = .ok item
  sized : ∀ key item, Loads s key item → Sized item
  named : ∀ key item, Loads s key item → ∃ bucket payloadKey document,
    Refers item bucket payloadKey ∧ (s bucket)[payloadKey]? = some document ∧
    Spells item.payloadType item.payloadRef document
  carried : ∀ (bucket : Bucket) (payloadKey document : Bytes), isPayload bucket = true →
    (s bucket)[payloadKey]? = some document →
    ∃! key, ∃ item, Loads s key item ∧ Refers item bucket payloadKey

namespace Paired

variable {s s' : Store}

theorem initial (hqueue : s .deliveryQueue = ∅)
    (hpayloads : ∀ bucket, isPayload bucket = true → s bucket = ∅) : Paired s := by
  have hnone : ∀ key item, ¬Loads s key item := by
    intro key item
    refine not_loads_of_absent ?_ item
    rw [hqueue]
    exact Std.ExtTreeMap.getElem?_empty
  refine ⟨?_, fun key item h => absurd h (hnone key item), fun key item h =>
    absurd h (hnone key item), ?_⟩
  · intro key document hdocument
    rw [hqueue, Std.ExtTreeMap.getElem?_empty] at hdocument
    cases hdocument
  · intro bucket payloadKey document hbucket hdocument
    rw [hpayloads bucket hbucket, Std.ExtTreeMap.getElem?_empty] at hdocument
    cases hdocument

theorem of_same (h : Paired s) (hqueue : s' .deliveryQueue = s .deliveryQueue)
    (hpayloads : ∀ bucket, isPayload bucket = true → s' bucket = s bucket) : Paired s' := by
  have hloads : ∀ key item, Loads s' key item ↔ Loads s key item := fun _ _ => loads_of_queue hqueue
  refine ⟨?_, ?_, ?_, ?_⟩
  · rw [hqueue]
    exact h.readable
  · intro key item hitem
    exact h.sized key item ((hloads key item).mp hitem)
  · intro key item hitem
    obtain ⟨bucket, payloadKey, document, hrefers, hdocument, hspells⟩ :=
      h.named key item ((hloads key item).mp hitem)
    refine ⟨bucket, payloadKey, document, hrefers, ?_, hspells⟩
    rw [hpayloads bucket (isPayload_of_location hrefers)]
    exact hdocument
  · intro bucket payloadKey document hbucket hdocument
    simp only [hloads]
    rw [hpayloads bucket hbucket] at hdocument
    exact h.carried bucket payloadKey document hbucket hdocument

theorem of_change (h : Paired s) {key : Bytes} {old new : Item} (hloads : Loads s key old)
    (hchange : Change old new) (hput : Put key new s s')
    (hpayloads : ∀ bucket, isPayload bucket = true → s' bucket = s bucket) : Paired s' := by
  obtain ⟨⟨document, hqueue, hdecode⟩, hloads'⟩ :=
    loads_of_put hloads (h.sized key old hloads) hchange hput
  have htext := hchange.sameText
  have hrefers : ∀ bucket payloadKey, Refers new bucket payloadKey ↔
    Refers old bucket payloadKey := by
    intro bucket payloadKey
    unfold Refers
    rw [htext.payloadType, htext.payloadRef]
  -- what refers to a payload is under the same keys as before
  have hitems : ∀ bucket payloadKey other,
    (∃ item, Loads s' other item ∧ Refers item bucket payloadKey) ↔
      ∃ item, Loads s other item ∧ Refers item bucket payloadKey := by
    intro bucket payloadKey other
    simp only [hloads']
    split
    case isTrue heq =>
      subst heq
      constructor
      · rintro ⟨_, rfl, hrefer⟩
        exact ⟨old, hloads, (hrefers _ _).mp hrefer⟩
      · rintro ⟨item, hitem, hrefer⟩
        obtain rfl := loads_unique hitem hloads
        exact ⟨new, rfl, (hrefers _ _).mpr hrefer⟩
    case isFalse => exact Iff.rfl
  refine ⟨?_, ?_, ?_, ?_⟩
  · intro other found hfound
    rw [hqueue, Std.ExtTreeMap.getElem?_insert] at hfound
    split at hfound
    case isTrue =>
      cases hfound
      exact ⟨new, hdecode⟩
    case isFalse => exact h.readable other found hfound
  · intro other item hitem
    have hcases := (hloads' other item).mp hitem
    split at hcases
    case isTrue =>
      rw [hcases]
      exact (h.sized key old hloads).sameText htext
    case isFalse => exact h.sized other item hcases
  · intro other item hitem
    have hcases := (hloads' other item).mp hitem
    split at hcases
    case isTrue =>
      obtain ⟨bucket, payloadKey, payload, hrefer, hpayload, hspells⟩ := h.named key old hloads
      rw [← htext.payloadType, ← htext.payloadRef] at hspells
      rw [hcases]
      refine ⟨bucket, payloadKey, payload, (hrefers _ _).mpr hrefer, ?_, hspells⟩
      rw [hpayloads bucket (isPayload_of_location hrefer)]
      exact hpayload
    case isFalse =>
      obtain ⟨bucket, payloadKey, payload, hrefer, hpayload, hspells⟩ := h.named other item hcases
      refine ⟨bucket, payloadKey, payload, hrefer, ?_, hspells⟩
      rw [hpayloads bucket (isPayload_of_location hrefer)]
      exact hpayload
  · intro bucket payloadKey payload hbucket hpayload
    simp only [hitems]
    rw [hpayloads bucket hbucket] at hpayload
    exact h.carried bucket payloadKey payload hbucket hpayload

end Paired

/-! ## Publications -/

theorem storePayload_ok {bucket : Bucket} {key document : Bytes} {present : Error}
    {s s' : Store} {u : Unit}
    (h : (Lifecycle.storePayload bucket key document present).run s = .ok (u, s')) :
    (s bucket)[key]? = none ∧ s' = Function.update s bucket ((s bucket).insert key document) := by
  simp only [Lifecycle.storePayload, TxProg.run, TxProg.step] at h
  cases hget : Tx.get bucket key s with
  | error e =>
    rw [hget] at h
    cases h
  | ok found =>
    obtain ⟨found, s1⟩ := found
    obtain ⟨-, rfl, rfl⟩ := Tx.get_ok.mp hget
    rw [hget] at h
    cases hfound : (s1 bucket)[key]? with
    | some _ =>
      rw [hfound] at h
      cases h
    | none =>
      rw [hfound] at h
      simp only [TxProg.run, TxProg.step] at h
      cases hput : Tx.put bucket key document s1 with
      | error e =>
        rw [hput] at h
        cases h
      | ok put =>
        obtain ⟨_, s2⟩ := put
        rw [hput] at h
        cases h
        exact ⟨rfl, (Tx.put_ok.mp hput).2.2⟩

/-- What the publishers enqueue: a reference that JSON keeps, and the payload it names. -/
def Carries (request : EnqueueRequest) (mutation : Option (TxProg Unit)) : Prop :=
  ∃ bucket key document present,
    location request.payloadType request.payloadRef = some (bucket, key) ∧
    mutation = some (Lifecycle.storePayload bucket key document present) ∧
    Utf8.toValidUTF8 request.payloadRef = request.payloadRef ∧
    Spells request.payloadType request.payloadRef document

section Publication

variable {d : Dispatcher} {request : EnqueueRequest} {item : Item} {h : History} {bucket : Bucket}
  {s s' : Store} {key document payload : Bytes}

theorem refers_of_offered (hoffered : Offered d request item h)
    (hclean : Utf8.toValidUTF8 request.payloadRef = request.payloadRef) :
    (DeliveryQueueItem.codec.norm item).payloadType = request.payloadType ∧
      (DeliveryQueueItem.codec.norm item).payloadRef = request.payloadRef := by
  obtain ⟨now, -, -, -, hitem⟩ := hoffered.made
  have hvalid := hoffered.valid
  simp only [Dispatcher.validateEnqueueRequest, Bool.and_eq_true, Bool.or_eq_true,
    decide_eq_true_eq] at hvalid
  rw [hitem]
  exact ⟨norm_payloadType hvalid.1.1.1.1, hclean⟩

theorem Paired.of_published (hpaired : Paired s) (hoffered : Offered d request item h)
    (hlocation : location request.payloadType request.payloadRef = some (bucket, key))
    (hclean : Utf8.toValidUTF8 request.payloadRef = request.payloadRef)
    (hspells : Spells request.payloadType request.payloadRef payload)
    (habsent : (s bucket)[key]? = none)
    (hadmitted : Admitted d.maxQueueItems item s document)
    (hqueue : s' .deliveryQueue = (s .deliveryQueue).insert (itemKey item.deliveryID) document)
    (hstored : s' bucket = (s bucket).insert key payload)
    (hother : ∀ other, isPayload other = true → other ≠ bucket → s' other = s other) :
      Paired s' := by
  obtain ⟨hdecode, hloads⟩ := loads_of_admitted hoffered hadmitted hqueue
  obtain ⟨htype, href⟩ := refers_of_offered hoffered hclean
  have hnew := new_or_old_of_admitted hoffered hadmitted hqueue
  have hnewRefers : Refers (DeliveryQueueItem.codec.norm item) bucket key := by
    unfold Refers
    rw [htype, href]
    exact hlocation
  -- no item referred to this payload before
  have hfresh : ∀ other found, Loads s other found → ¬Refers found bucket key := by
    intro other found hfound hrefers
    obtain ⟨bucket', key', payload', hrefers', hpayload', -⟩ := hpaired.named other found hfound
    obtain ⟨rfl, rfl⟩ := Prod.mk.inj (Option.some.inj (hrefers.symm.trans hrefers'))
    rw [habsent] at hpayload'
    cases hpayload'
  have hkept : ∀ (bucket' : Bucket) (key' payload' : Bytes), isPayload bucket' = true →
      (s bucket')[key']? = some payload' → (s' bucket')[key']? = some payload' := by
    intro bucket' key' payload' hpayloadBucket hpayload'
    by_cases hbucket : bucket' = bucket
    · subst hbucket
      rw [hstored, Std.ExtTreeMap.getElem?_insert, if_neg]
      · exact hpayload'
      · intro hcompare
        obtain rfl := Std.LawfulEqCmp.eq_of_compare hcompare
        rw [habsent] at hpayload'
        cases hpayload'
    · rw [hother bucket' hpayloadBucket hbucket]
      exact hpayload'
  obtain ⟨hsize1, hsize2, hsize3, hsize4⟩ := hoffered.lengths
  refine ⟨?_, ?_, ?_, ?_⟩
  · intro other found hfound
    rw [hqueue, Std.ExtTreeMap.getElem?_insert] at hfound
    split at hfound
    case isTrue =>
      cases hfound
      exact ⟨_, hdecode⟩
    case isFalse => exact hpaired.readable other found hfound
  · intro other found hfound
    rcases hnew other found hfound with ⟨-, rfl⟩ | hold
    · exact Sized.norm hsize1 hsize2 hsize3 hsize4
    · exact hpaired.sized other found hold
  · intro other found hfound
    rcases hnew other found hfound with ⟨-, rfl⟩ | hold
    · refine ⟨bucket, key, payload, hnewRefers, ?_, by rw [htype, href]; exact hspells⟩
      rw [hstored, Std.ExtTreeMap.getElem?_insert_self]
    · obtain ⟨bucket', key', payload', hrefers, hpayload, hspells'⟩ :=
        hpaired.named other found hold
      exact ⟨bucket', key', payload', hrefers,
        hkept bucket' key' payload' (isPayload_of_location hrefers) hpayload, hspells'⟩
  · intro bucket' key' payload' hbucket' hpayload'
    by_cases hsame : bucket' = bucket ∧ key' = key
    · obtain ⟨rfl, rfl⟩ := hsame
      refine ⟨itemKey item.deliveryID, ⟨_, (hloads _ _).mpr (by rw [if_pos rfl]), hnewRefers⟩, ?_⟩
      rintro other ⟨found, hfound, hrefers⟩
      rcases hnew other found hfound with ⟨hkey, -⟩ | hold
      · exact hkey
      · exact absurd hrefers (hfresh other found hold)
    · -- another payload is as it was, and its item is not the new one
      have hbefore : (s bucket')[key']? = some payload' := by
        by_cases hbucket : bucket' = bucket
        · subst hbucket
          rw [hstored, Std.ExtTreeMap.getElem?_insert, if_neg] at hpayload'
          · exact hpayload'
          · intro hcompare
            exact hsame ⟨rfl, (Std.LawfulEqCmp.eq_of_compare hcompare).symm⟩
        · rw [hother bucket' hbucket' hbucket] at hpayload'
          exact hpayload'
      obtain ⟨other, ⟨found, hfound, hrefers⟩, hunique⟩ :=
        hpaired.carried bucket' key' payload' hbucket' hbefore
      refine ⟨other, ⟨found, ?_, hrefers⟩, ?_⟩
      · obtain ⟨found', hfound', -⟩ := kept_of_admitted hoffered hadmitted hqueue other found hfound
        rcases hnew other found' hfound' with ⟨hkey, -⟩ | hold
        · rw [hkey] at hfound
          exact absurd hfound (not_loads_of_absent hadmitted.absent found)
        · rw [loads_unique hfound hold]
          exact hfound'
      · rintro other' ⟨found', hfound', hrefers'⟩
        rcases hnew other' found' hfound' with ⟨-, rfl⟩ | hold
        · exact absurd (Prod.mk.inj (Option.some.inj (hrefers'.symm.trans hnewRefers))) hsame
        · exact hunique other' ⟨found', hold, hrefers'⟩

end Publication

/-! ## Transactions -/

theorem markTerminal_payloads {key auditID reason : Bytes} {ending : Ending}
    {now : Time} {item : Item}
    {s s' : Store} (h : Delivery.markTerminal key ending auditID now reason s = .ok (item, s'))
    {bucket : Bucket} (hbucket : isPayload bucket = true) : s' bucket = s bucket := by
  obtain ⟨-, current, -, h⟩ := bind_loadItem_ok.mp h
  split at h
  case isTrue =>
    cases h
    rfl
  case isFalse =>
    obtain ⟨-, h⟩ := Tx.bind_require_ok.mp h
    obtain ⟨event, s2, happend, h⟩ := Tx.bind_ok.mp h
    cases h
    obtain ⟨s3, hother, hput⟩ := Audit.append_change happend
    obtain ⟨document, -, rfl⟩ := putItem_ok.mp hput
    rw [hother bucket (ne_of_isPayload hbucket rfl),
      Function.update_of_ne (ne_of_isPayload hbucket rfl)]

theorem body_payloads {t : Transaction} (ht : ∀ maxQueueItems item mutation,
      t ≠ .enqueue maxQueueItems item mutation) {s s' : Store} {a : t.Out}
        (h : t.body s = .ok (a, s'))
    {bucket : Bucket} (hbucket : isPayload bucket = true) : s' bucket = s bucket := by
  have hqueue := ne_of_isPayload hbucket (show isPayload .deliveryQueue = false from rfl)
  cases t with
  | enqueue maxQueueItems item mutation => exact absurd rfl (ht maxQueueItems item mutation)
  | pendingItems =>
    obtain ⟨rfl, -⟩ := pendingItems_ok.mp h
    rfl
  | markDelivered key now =>
    obtain ⟨-, -, rfl⟩ | ⟨old, document, -, -, -, -, -, rfl⟩ := markDelivered_ok h
    · rfl
    · exact Function.update_of_ne hqueue _ _
  | scheduleRetry key nextAttempt nextAt =>
    obtain ⟨old, document, -, -, -, -, rfl⟩ := scheduleRetry_ok h
    exact Function.update_of_ne hqueue _ _
  | markTerminal key ending auditID now reason => exact markTerminal_payloads h hbucket
  | read context other key =>
    obtain ⟨-, -, rfl⟩ := Tx.get_ok.mp h
    rfl

/-- The step lemma for a publication. -/
theorem Paired.enqueue {s s' : Store} (hpaired : Paired s) {d : Dispatcher}
    {request : EnqueueRequest}
    {item : Item} {mutation : Option (TxProg Unit)} {h : History}
    (hcarries : Carries request mutation)
    (hoffered : Offered d request item h) {u : Unit}
    (hbody : enqueueItem d.maxQueueItems item mutation s = .ok (u, s')) : Paired s' := by
  obtain ⟨bucket, key, payload, present, hlocation, rfl, hclean, hspells⟩ := hcarries
  obtain ⟨_, s1, hstore, hadmit⟩ := Tx.bind_ok.mp hbody
  obtain ⟨habsent, rfl⟩ := storePayload_ok hstore
  obtain ⟨document, hadmitted, rfl⟩ := admitItem_ok.mp hadmit
  have hqueue := ne_of_isPayload (isPayload_of_location hlocation)
    (show isPayload .deliveryQueue = false from rfl)
  have hsame : Function.update s bucket ((s bucket).insert key payload) .deliveryQueue =
      s .deliveryQueue := Function.update_of_ne hqueue.symm _ _
  refine hpaired.of_published hoffered hlocation hclean hspells
    habsent (hadmitted.of_queue hsame.symm)
    ?_ ?_ ?_
  · rw [Function.update_self, hsame]
  · rw [Function.update_of_ne hqueue, Function.update_self]
  · intro other hother hne
    rw [Function.update_of_ne (ne_of_isPayload hother rfl), Function.update_of_ne hne]

/-- The step lemma for everything else. -/
theorem Paired.other {s s' : Store} (hpaired : Paired s) {t : Transaction}
    (ht : ∀ maxQueueItems item mutation, t ≠ .enqueue maxQueueItems item mutation) {a : t.Out}
    (hbody : t.body s = .ok (a, s')) : Paired s' := by
  have hpayloads : ∀ bucket, isPayload bucket = true → s' bucket = s bucket := fun bucket hbucket =>
    body_payloads ht hbody hbucket
  have hspares : t.Spares := by
    unfold Transaction.Spares
    split
    case h_1 maxQueueItems item mutation => exact absurd rfl (ht maxQueueItems item (some mutation))
    case h_2 => trivial
  cases body_effect hspares hbody with
  | unchanged _ _ _ hqueue => exact hpaired.of_same hqueue hpayloads
  | admitted maxQueueItems item mutation => exact absurd rfl (ht maxQueueItems item mutation)
  | delivered _ _ _ _ old hloads hpending _ hput =>
    exact hpaired.of_change hloads (.delivered hpending) hput hpayloads
  | retried _ _ _ _ _ old hloads hpending hput =>
    exact hpaired.of_change hloads (.retried _ _ hpending) hput hpayloads
  | ended _ _ _ _ _ _ _ old _ hloads hpending hput =>
    exact hpaired.of_change hloads (.ended _ hpending) hput hpayloads

/-- Any dispatcher may enqueue and pass over the queue; what is enqueued are publications. -/
abbrev Publishing : History → Op → Prop := Allowed (fun _ => True) (fun _ => True) Carries

/-- The step lemma: every call keeps payloads and items together. -/
theorem Paired.perform {s : Store} (hpaired : Paired s) {h : History} {o : Op}
    (hallowed : Publishing h o)
    (env : Environment) : Paired (Delivery.perform o env s).2 := by
  cases o with
  | tx t =>
    change Paired (t.run env.fault s).2
    obtain heq | ⟨a, hbody⟩ := t.run_state env.fault s
    · rw [heq]
      exact hpaired
    · cases t with
      | enqueue maxQueueItems item mutation =>
        obtain ⟨d, request, -, rfl, hcarries, hoffered⟩ := hallowed
        exact hpaired.enqueue hcarries hoffered hbody
      | _ => exact hpaired.other (by rintro _ _ _ ⟨⟩) hbody
  | _ => exact hpaired

/-! Stored payloads stay. -/

def PayloadsKept (s s' : Store) : Prop :=
  ∀ (bucket : Bucket) (key document : Bytes), isPayload bucket = true →
    (s bucket)[key]? = some document → (s' bucket)[key]? = some document

theorem PayloadsKept.refl (s : Store) : PayloadsKept s s := fun _ _ _ _ h => h

theorem PayloadsKept.trans {a b c : Store} (h : PayloadsKept a b) (h' : PayloadsKept b c) :
    PayloadsKept a c := fun bucket key document hbucket hdocument =>
  h' bucket key document hbucket (h bucket key document hbucket hdocument)

theorem PayloadsKept.of_same {s s' : Store}
    (h : ∀ bucket, isPayload bucket = true → s' bucket = s bucket) :
    PayloadsKept s s' := by
  intro bucket key document hbucket hdocument
  rw [h bucket hbucket]
  exact hdocument

theorem PayloadsKept.enqueue {maxQueueItems : Nat} {item : Item} {bucket : Bucket}
    {key document : Bytes} {present : Error} {s s' : Store} {u : Unit}
    (hbody : enqueueItem maxQueueItems
      item (some (Lifecycle.storePayload bucket key document present)) s =
      .ok (u, s')) : PayloadsKept s s' := by
  obtain ⟨_, s1, hstore, hadmit⟩ := Tx.bind_ok.mp hbody
  obtain ⟨habsent, rfl⟩ := storePayload_ok hstore
  obtain ⟨_, -, rfl⟩ := admitItem_ok.mp hadmit
  intro other otherKey stored hother hstored
  rw [Function.update_of_ne (ne_of_isPayload hother rfl)]
  by_cases hbucket : other = bucket
  · subst hbucket
    rw [Function.update_self, Std.ExtTreeMap.getElem?_insert, if_neg]
    · exact hstored
    · intro hcompare
      obtain rfl := Std.LawfulEqCmp.eq_of_compare hcompare
      rw [habsent] at hstored
      cases hstored
  · rw [Function.update_of_ne hbucket]
    exact hstored

theorem PayloadsKept.perform {h : History} {o : Op} (hallowed : Publishing h o) (env : Environment)
    (s : Store) : PayloadsKept s (Delivery.perform o env s).2 := by
  cases o with
  | tx t =>
    change PayloadsKept s (t.run env.fault s).2
    obtain heq | ⟨a, hbody⟩ := t.run_state env.fault s
    · rw [heq]
      exact .refl s
    · cases t with
      | enqueue maxQueueItems item mutation =>
        obtain ⟨d, request, -, rfl, ⟨bucket, key, payload, present, -, rfl, -⟩, -⟩ := hallowed
        exact .enqueue hbody
      | _ => exact .of_same fun bucket hbucket => body_payloads (by rintro _ _ _ ⟨⟩) hbody hbucket
  | _ => exact .refl s

/-! ## Runs -/

/-- The publishers and the passes over the queue. -/
def Call.Pairs : Call → Prop
  | .publish .. | .publishTerminal .. | .deliverDue .. => True
  | .enqueue .. | .enqueueWithMutation .. => False

theorem clean_digest (kind : Bytes) (hkind : Utf8.validString kind = true) (s : Bytes) :
    Utf8.toValidUTF8 (kind ++ Hex.encode (Sha256.sum256 s)) = kind ++
      Hex.encode (Sha256.sum256 s) :=
  Utf8.toValidUTF8_of_valid (Utf8.validString_append hkind (Audit.validString_of_validDigest
    (Audit.validDigest_encode (Sha256.sum256_length s))).2)

theorem clean_stableReportID (incidentID idempotencyKey : Bytes) (terminalState : IncidentState) :
    Utf8.toValidUTF8 (Report.stableReportID incidentID terminalState idempotencyKey) =
      Report.stableReportID incidentID terminalState idempotencyKey :=
  clean_digest _ (by decide +kernel) _

section Runs

variable [UnicodeTables]

theorem event_ok {input : Lifecycle.Input} {event : LifecycleEvent}
    (h : Lifecycle.event input = .ok event) :
    Lifecycle.validIdentifier input.eventID Lifecycle.maxEventIDLength = true ∧
      Lifecycle.validIdentifier input.incidentID Lifecycle.maxEventIDLength = true ∧
      Lifecycle.validReasonCode input.reasonCode = true ∧ input.occurredAt.isZero = false ∧
      Lifecycle.validEvidenceRefs input.evidenceRefs = true ∧ event.validate.isOk = true ∧
      event = { schemaVersion := schemaVersionV1
                eventID := input.eventID
                eventType := input.eventType
                incidentID := input.incidentID
                occurredAt := input.occurredAt
                reasonCode := input.reasonCode
                evidenceRefs := Lifecycle.cloneSlice input.evidenceRefs } := by
  unfold Lifecycle.event at h
  split at h
  case isTrue hinput =>
    simp only [Bool.and_eq_true, Bool.not_eq_true'] at hinput
    dsimp only at h
    split at h
    case isTrue hvalid =>
      cases h
      exact ⟨hinput.1.1.1.1, hinput.1.1.1.2, hinput.1.1.2, hinput.1.2, hinput.2, hvalid, rfl⟩
    case isFalse => cases h
  case isFalse => cases h

omit [UnicodeTables] in
theorem clean_of_validIdentifier {value : Bytes} {limit : Nat}
    (h : Lifecycle.validIdentifier value limit = true) : Utf8.toValidUTF8 value = value := by
  simp only [Lifecycle.validIdentifier, Bool.and_eq_true, Bool.not_eq_true'] at h
  exact Utf8.toValidUTF8_of_valid (Redaction.validString_of_not_containsSensitive h.2)

theorem carries_event (p : Lifecycle.Publisher) (input : Lifecycle.Input) :
    Publishes (fun _ => True) Carries p input := by
  refine ⟨trivial, fun event document hevent hmarshal => ?_⟩
  obtain ⟨hid, -, -, -, -, -, rfl⟩ := event_ok hevent
  have hclean := clean_of_validIdentifier hid
  exact ⟨_, _, document, _, rfl, rfl, hclean, _, content_marshal hmarshal, hclean⟩

theorem composeAt_ok {input : Report.Input} {occurredAt : Time} {report : IncidentReport}
    {event : Lifecycle.Input} (h : Report.composeAt input occurredAt = .ok (report, event)) :
    ∃ hypotheses evidenceRefs, Report.validInput input occurredAt = true ∧
      Report.composeHypotheses input = .ok (hypotheses, evidenceRefs) ∧
      report = Report.newReport input hypotheses evidenceRefs ∧ report.validate.isOk = true ∧
      Report.validReportContent report = true ∧
      event = Report.pairedEvent input evidenceRefs occurredAt := by
  unfold Report.composeAt at h
  split at h
  case isTrue hvalid =>
    split at h
    case h_1 => cases h
    case h_2 hypotheses evidenceRefs hcompose =>
      dsimp only at h
      split at h
      case isTrue hreport =>
        cases h
        rw [Bool.and_eq_true] at hreport
        exact ⟨hypotheses, evidenceRefs, hvalid, hcompose, rfl, hreport.1, hreport.2, rfl⟩
      case isFalse => cases h
  case isFalse => cases h

theorem Call.Pairs.within {call : Call} (h : call.Pairs) :
    call.Within (fun _ => True) (fun _ => True) Carries := by
  cases call with
  | enqueue d request => exact h.elim
  | enqueueWithMutation d request mutation => exact h.elim
  | deliverDue d => trivial
  | publish p input => exact carries_event p input
  | publishTerminal p input =>
    refine ⟨trivial, fun occurredAt report event hcompose => ?_⟩
    obtain ⟨hypotheses, evidenceRefs, -, -, rfl, -, -, rfl⟩ := composeAt_ok hcompose
    refine ⟨carries_event p.lifecycle _, fun document hmarshal => ?_⟩
    exact ⟨_, _, document, _, rfl, rfl, clean_stableReportID _ _ _, _, content_marshal hmarshal,
      clean_stableReportID _ _ _⟩

theorem move_payloads (m : Move) (s : Store) {bucket : Bucket} (hbucket : isPayload bucket = true) :
    system.move m s bucket = s bucket := by
  refine move_owned m s ?_
  cases bucket with
  | lifecycleEvents => rfl
  | incidentReports => rfl
  | _ => cases hbucket

theorem payloadsKept_of_run (s : Store) (actions : List (Action system))
    (hcalls : ∀ call, Action.spawn call ∈ actions → call.Pairs) :
    PayloadsKept s (run s actions).state := by
  have hallowed := allowed_of_run s actions fun call hcall => (hcalls call hcall).within
  refine related_of_events PayloadsKept.refl PayloadsKept.trans
    (fun m s => .of_same fun _ hbucket => move_payloads m s hbucket) s [] actions fun e he => ?_
  obtain ⟨later, earlier, hlog⟩ := List.append_of_mem he
  exact .perform (hallowed later e earlier hlog) e.answer e.before

/-- The run lemma: payloads and items belong together at every point. -/
theorem paired_of_run {s : Store} (hs : Paired s) (actions : List (Action system))
    (hcalls : ∀ call, Action.spawn call ∈ actions → call.Pairs) :
    Paired (run s actions).state ∧ ∀ e ∈ (run s actions).log, Paired e.before ∧ Paired e.after := by
  have hallowed := allowed_of_run s actions fun call hcall => (hcalls call hcall).within
  have hstep : ∀ e ∈ (run s actions).log, Paired e.before → Paired e.after := by
    intro e he hpaired
    obtain ⟨later, earlier, hlog⟩ := List.append_of_mem he
    exact hpaired.perform (hallowed later e earlier hlog) e.answer
  refine invariant_of_events Paired hs actions hstep fun m s hpaired => ?_
  exact hpaired.of_same (move_owned m s rfl) fun _ hbucket => move_payloads m s hbucket

/-- In every interleaving of publications and passes, each item names a stored payload of its type
and each stored payload has one item, and an enqueue that fails leaves the store as it was. -/
theorem payloads_paired {s : Store} (hs : Paired s) (actions : List (Action system))
    (hcalls : ∀ call, Action.spawn call ∈ actions → call.Pairs) :
    Paired (run s actions).state ∧ ∀ e ∈ (run s actions).log, Paired e.before ∧ Paired e.after ∧
      ∀ maxQueueItems item mutation err, e.op = .tx (.enqueue maxQueueItems item mutation) →
        ((Transaction.enqueue maxQueueItems item mutation).run (Environment.fault e.answer)
          e.before).1 = .error err → e.after = e.before := by
  obtain ⟨hfinal, hall⟩ := paired_of_run hs actions hcalls
  refine ⟨hfinal, fun e he => ⟨(hall e he).1, (hall e he).2, ?_⟩⟩
  intro maxQueueItems item mutation err hop herror
  obtain ⟨⟨op, answer, before⟩, thread⟩ := e
  obtain rfl : op = _ := hop
  exact Transaction.run_error herror

end Runs

/-! ### One publication -/

def examplePublisher : Lifecycle.Publisher where
  queue := exampleDispatcher
  destinationRef := lit "ops"
  deliveryTTL := 60000000000
  destination := by decide +kernel
  ttl := by decide

def exampleEvent : Lifecycle.Input where
  eventID := lit "event_01"
  eventType := .policyDenied
  incidentID := lit "incident_01"
  reasonCode := lit "denied"
  occurredAt := 63776073600000000000

def publication : List (Action (@system asciiTables)) :=
  .spawn (.publish examplePublisher exampleEvent) :: List.replicate 6 (.step 0 exampleAnswers)

theorem publication_paired :
    Paired (@run asciiTables Store.empty publication).state ∧
      ((@run asciiTables Store.empty publication).state .lifecycleEvents)[
        Lifecycle.recordKey (lit "event_01")]?.isSome = true := by
  have hempty : Paired Store.empty := .initial rfl fun _ _ => rfl
  refine ⟨(@payloads_paired asciiTables Store.empty hempty publication ?_).1, by decide +kernel⟩
  intro call hcall
  simp only [publication, List.replicate, List.mem_cons, Action.spawn.injEq, reduceCtorEq,
    List.not_mem_nil, or_false] at hcall
  rw [hcall]
  trivial

end PulseAgent.Delivery
