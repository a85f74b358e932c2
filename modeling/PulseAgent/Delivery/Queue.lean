import PulseAgent.Audit.Append

/-!
# The delivery queue

One document for each item, under a digest of its delivery ID. A scan over the bucket fails on the
first document it cannot read.
-/

namespace PulseAgent.Delivery

open Go Go.Json Contract

def maxDestinationRefLength : Nat := 128
def maxPayloadRefLength : Nat := 256
def queueKeyPrefix : Bytes := lit "delivery/"

def errInvalidOptions : Error := .new "invalid delivery options"
def errInvalidRequest : Error := .new "invalid delivery request"
def errQueueFull : Error := .new "delivery queue is full"
def errDeliveryConflict : Error := .new "delivery identity conflict"
def errCorruptQueue : Error := .new "corrupt delivery queue entry"

abbrev Item := DeliveryQueueItem

def itemKey (deliveryID : Bytes) : Bytes := queueKeyPrefix ++ Hex.encode (Sha256.sum256 deliveryID)

def validToken (value : Bytes) (limit : Nat) : Bool :=
  value ≠ [] && value.length ≤ limit && Strings.trimSpace value = value && !value.contains 0

def decodeItem (document : Bytes) : Except Error Item :=
  match decode DeliveryQueueItem.codec
      ⟨maxDocumentBytes, schemaVersionV1, DeliveryQueueItem.validate⟩ document with
  | .ok item => .ok item
  | .error _ => .error errCorruptQueue

def loadItem (key : Bytes) : Tx Item := do
  match ← Tx.get .deliveryQueue key with
  | none => throw errCorruptQueue
  | some document => Tx.liftExcept (decodeItem document)

def putItem (key : Bytes) (item : Item) : TxProg Unit :=
  if itemKey item.deliveryID = key ∧ item.validate.isOk then
    match encode DeliveryQueueItem.codec "encode delivery queue item: " item with
    | .ok document => .put .deliveryQueue key document .ret
    | .error e => .ret (.error e)
  else .ret (.error errCorruptQueue)

/-- Folds the items of the bucket in key order. -/
def forEachItem {β : Type} (init : β) (fn : β → Bytes → Item → Except Error β) : Tx β :=
  Tx.forEach .deliveryQueue init fun acc key document => decodeItem document >>= fn acc key

def countPending : Tx Nat :=
  forEachItem 0 fun pending _ item => .ok (if item.state = .pending then pending + 1 else pending)

def webhookIDInUse (webhookID : Bytes) : Tx Bool :=
  forEachItem false fun inUse _ item => .ok (inUse || item.webhookID = webhookID)

structure StoredItem where
  key : Bytes
  item : Item

def pendingItems : Tx (List StoredItem) :=
  forEachItem [] fun items key item =>
    if itemKey item.deliveryID ≠ key then .error errCorruptQueue
    else .ok (if item.state = .pending then items ++ [⟨key, item⟩] else items)

/-- The checks of `enqueue` and its write. -/
def admitItem (maxQueueItems : Nat) (item : Item) : Tx Unit := do
  let pending ← countPending
  Tx.require (pending < maxQueueItems) errQueueFull
  let key := itemKey item.deliveryID
  let found ← Tx.get .deliveryQueue key
  Tx.require (found = none) errDeliveryConflict
  let inUse ← webhookIDInUse item.webhookID
  Tx.require (inUse = false) errDeliveryConflict
  (putItem key item).run

/-- The transaction of `enqueue`; the mutation comes before every check. -/
def enqueueItem (maxQueueItems : Nat) (item : Item) : Option (TxProg Unit) → Tx Unit
  | none => admitItem maxQueueItems item
  | some mutation => do
    mutation.run
    admitItem maxQueueItems item

def markDelivered (key : Bytes) (now : Time) : Tx Item := do
  let current ← loadItem key
  if current.state = .delivered then return current
  Tx.require (current.state = .pending ∧ now < current.expiresAt) errCorruptQueue
  let updated := { current with attemptCount := current.attemptCount + 1, state := .delivered }
  (putItem key updated).run
  return updated

def scheduleRetry (key : Bytes) (nextAttempt : Int64) (nextAt : Time) : Tx Item := do
  let current ← loadItem key
  Tx.require (current.state = .pending) errCorruptQueue
  let updated := { current with attemptCount := nextAttempt, nextAttemptAt := nextAt }
  (putItem key updated).run
  return updated

def deliveryFailure (auditID : Bytes) (item : Item) (now : Time) (reason : Bytes) : AuditEvent where
  schemaVersion := schemaVersionV1
  eventID := auditID
  aggregateType := lit "delivery"
  aggregateID := item.deliveryID
  actorIdentity := lit "system"
  action := lit "delivery.failed"
  result := lit "failed"
  reasonCode := reason
  occurredAt := now

/-- The two states an item is given up in. -/
inductive Ending where
  | failed
  | expired
deriving DecidableEq

def Ending.state : Ending → DeliveryState
  | failed => .failed
  | expired => .expired

def markTerminal (key : Bytes) (ending : Ending) (auditID : Bytes) (now : Time) (reason : Bytes) :
    Tx Item := do
  let current ← loadItem key
  if current.state = ending.state then return current
  Tx.require (current.state = .pending) errCorruptQueue
  let updated := { current with state := ending.state }
  let _ ← Audit.append (deliveryFailure auditID updated now reason) (some (putItem key updated))
  return updated

/-! ## Reading the queue -/

def itemAt (s : Store) (key : Bytes) : Option Item :=
  (s .deliveryQueue)[key]?.bind (content DeliveryQueueItem.codec)

def Loads (s : Store) (key : Bytes) (item : Item) : Prop :=
  ∃ document, (s .deliveryQueue)[key]? = some document ∧ decodeItem document = .ok item

theorem decodeItem_ok {document : Bytes} {item : Item} (h : decodeItem document = .ok item) :
    content DeliveryQueueItem.codec document = some item ∧ item.validate = .ok () := by
  unfold decodeItem at h
  split at h
  case h_1 decoded hdecode =>
    cases h
    obtain ⟨hcontent, hvalid, -⟩ := content_of_decode hdecode
    exact ⟨hcontent, hvalid⟩
  case h_2 => cases h

theorem Loads.itemAt {s : Store} {key : Bytes} {item : Item} (h : Loads s key item) :
    itemAt s key = some item := by
  obtain ⟨document, hdocument, hdecode⟩ := h
  unfold Delivery.itemAt
  rw [hdocument]
  exact (decodeItem_ok hdecode).1

theorem loadItem_ok {key : Bytes} {item : Item} {s s' : Store} :
    loadItem key s = .ok (item, s') ↔ key ≠ [] ∧ Loads s key item ∧ s' = s := by
  unfold loadItem
  rw [Tx.bind_get_ok]
  cases hdocument : (s .deliveryQueue)[key]? with
  | none => simp [Loads, hdocument, Tx.throw_apply]
  | some document =>
    simp only [Tx.liftExcept_ok, Loads, hdocument, Option.some.injEq, exists_eq_left']

theorem bind_loadItem_ok {β : Type} {key : Bytes} {f : Item → Tx β} {s : Store} {r : β × Store} :
    (loadItem key >>= f) s = .ok r ↔ key ≠ [] ∧ ∃ item, Loads s key item ∧ f item s = .ok r := by
  rw [← Prod.mk.eta (p := r), Tx.bind_ok]
  simp only [loadItem_ok]
  constructor
  · rintro ⟨item, s', ⟨hkey, hloads, rfl⟩, hf⟩
    exact ⟨hkey, item, hloads, hf⟩
  · rintro ⟨hkey, item, hloads, hf⟩
    exact ⟨item, s, ⟨hkey, hloads, rfl⟩, hf⟩

theorem itemKey_ne_nil (deliveryID : Bytes) : itemKey deliveryID ≠ [] := by
  unfold itemKey
  exact List.append_ne_nil_of_left_ne_nil (by decide) _

/-- What `putItem` demands of an item, and the document it writes. -/
structure Written (key : Bytes) (item : Item) (document : Bytes) : Prop where
  key_eq : itemKey item.deliveryID = key
  valid : item.validate = .ok ()
  marshal : DeliveryQueueItem.codec.marshal item = some document

theorem putItem_ok {key : Bytes} {item : Item} {s s' : Store} {u : Unit} :
    (putItem key item).run s = .ok (u, s') ↔ ∃ document, Written key item document ∧
      s' = Function.update s .deliveryQueue ((s .deliveryQueue).insert key document) := by
  have hput : ∀ document, (TxProg.put .deliveryQueue key document .ret).run s =
      Tx.put .deliveryQueue key document s := by
    intro document
    simp only [TxProg.run, TxProg.step]
    cases Tx.put .deliveryQueue key document s <;> rfl
  unfold putItem
  constructor
  · intro h
    split at h
    case isTrue hitem =>
      obtain ⟨rfl, hvalid⟩ := hitem
      split at h
      case h_1 document hdocument =>
        rw [hput] at h
        obtain ⟨-, -, rfl⟩ := Tx.put_ok.mp h
        obtain ⟨_, hvalid⟩ := exists_of_isOk hvalid
        exact ⟨document, ⟨rfl, hvalid, encode_ok.mp hdocument⟩, rfl⟩
      case h_2 => cases h
    case isFalse => cases h
  · rintro ⟨document, ⟨rfl, hvalid, hdocument⟩, rfl⟩
    rw [if_pos ⟨rfl, by rw [hvalid]; rfl⟩, encode_ok.mpr hdocument]
    dsimp only
    rw [hput]
    exact Tx.put_ok.mpr ⟨by decide, itemKey_ne_nil _, rfl⟩

/-! ## Scans

A scan succeeds only if every document of the bucket can be read; `items` is then what it runs
over. -/

def storedItem (entry : Bytes × Bytes) : Option (Bytes × Item) :=
  (decodeItem entry.2).toOption.map (entry.1, ·)

def Readable (entries : List (Bytes × Bytes)) : Prop :=
  ∀ entry ∈ entries, ∃ item, decodeItem entry.2 = .ok item

def items (s : Store) : List (Bytes × Item) := (s .deliveryQueue).toList.filterMap storedItem

theorem mem_items {s : Store} {key : Bytes} {item : Item} :
    (key, item) ∈ items s ↔ Loads s key item := by
  simp only [items, List.mem_filterMap, Prod.exists, storedItem, Loads,
    Std.ExtTreeMap.mem_toList_iff_getElem?_eq_some, Option.map_eq_some_iff, Prod.mk.injEq]
  constructor
  · rintro ⟨k, document, hdocument, decoded, hdecode, rfl, rfl⟩
    cases hresult : decodeItem document with
    | error e =>
      rw [hresult] at hdecode
      cases hdecode
    | ok result =>
      rw [hresult] at hdecode
      cases hdecode
      exact ⟨document, hdocument, hresult⟩
  · rintro ⟨document, hdocument, hdecode⟩
    refine ⟨key, document, hdocument, item, ?_, rfl, rfl⟩
    rw [hdecode]
    rfl

theorem foldlM_items {β : Type} {fn : β → Bytes → Item → Except Error β}
    {entries : List (Bytes × Bytes)} {init acc : β} :
    entries.foldlM (fun acc entry => decodeItem entry.2 >>= fn acc entry.1) init = .ok acc ↔
      Readable entries ∧
        (entries.filterMap storedItem).foldlM (fun acc entry => fn acc entry.1 entry.2) init =
          .ok acc := by
  induction entries generalizing init with
  | nil => simp [Readable]
  | cons entry entries ih =>
    rw [List.foldlM_cons, except_bind_ok]
    cases hdecode : decodeItem entry.2 with
    | error e =>
      have hunreadable : ¬Readable (entry :: entries) := by
        intro h
        obtain ⟨item, hitem⟩ := h entry List.mem_cons_self
        rw [hdecode] at hitem
        cases hitem
      simp only [hunreadable, false_and, iff_false]
      rintro ⟨next, hnext, -⟩
      cases hnext
    | ok item =>
      have hstored : storedItem entry = some (entry.1, item) := by
        unfold storedItem
        rw [hdecode]
        rfl
      have hreadable : Readable (entry :: entries) ↔ Readable entries := by
        simp only [Readable, List.forall_mem_cons, hdecode, Except.ok.injEq, exists_eq', true_and]
      rw [List.filterMap_cons, hstored]
      dsimp only
      rw [List.foldlM_cons, except_bind_ok, hreadable]
      constructor
      · rintro ⟨next, hnext, hrest⟩
        obtain ⟨hrest, hfold⟩ := ih.mp hrest
        exact ⟨hrest, next, hnext, hfold⟩
      · rintro ⟨hrest, next, hnext, hfold⟩
        exact ⟨next, hnext, ih.mpr ⟨hrest, hfold⟩⟩

theorem forEachItem_ok {β : Type} {fn : β → Bytes → Item → Except Error β} {init acc : β}
    {s s' : Store} : forEachItem init fn s = .ok (acc, s') ↔ s' = s ∧
      Readable (s .deliveryQueue).toList ∧
      (items s).foldlM (fun acc entry => fn acc entry.1 entry.2) init = .ok acc := by
  unfold forEachItem
  rw [Tx.forEach_ok, foldlM_items, and_comm]
  rfl

def pendingCount (s : Store) : Nat := (items s).countP fun entry => entry.2.state = .pending

theorem countPending_ok {s s' : Store} {pending : Nat} :
    countPending s = .ok (pending, s') ↔ s' = s ∧ Readable (s .deliveryQueue).toList ∧
      pendingCount s = pending := by
  have hfold : ∀ (l : List (Bytes × Item)) (init : Nat),
      l.foldlM (fun pending entry =>
        (.ok (if entry.2.state = .pending then pending + 1 else pending) : Except Error Nat)) init =
        .ok (init + l.countP fun entry => entry.2.state = .pending) := by
    intro l
    induction l with
    | nil => exact fun init => rfl
    | cons entry l ih =>
      intro init
      rw [List.foldlM_cons, List.countP_cons]
      by_cases hstate : entry.2.state = .pending
      · simp only [hstate, if_true, bind, Except.bind, decide_true, ih]
        rw [Nat.add_assoc, Nat.add_comm 1]
      · simp only [hstate, if_false, bind, Except.bind, decide_false, ih]
        rfl
  unfold countPending
  rw [forEachItem_ok, hfold]
  simp only [pendingCount, Nat.zero_add, Except.ok.injEq]

theorem webhookIDInUse_ok {webhookID : Bytes} {s s' : Store} {inUse : Bool} :
    webhookIDInUse webhookID s = .ok (inUse, s') ↔ s' = s ∧ Readable (s .deliveryQueue).toList ∧
      ((items s).any fun entry => entry.2.webhookID = webhookID) = inUse := by
  have hfold : ∀ (l : List (Bytes × Item)) (init : Bool),
      l.foldlM (fun inUse entry =>
        (.ok (inUse || entry.2.webhookID = webhookID) : Except Error Bool)) init =
        .ok (init || l.any fun entry => entry.2.webhookID = webhookID) := by
    intro l
    induction l with
    | nil =>
      intro init
      rw [List.any_nil, Bool.or_false]
      rfl
    | cons entry l ih =>
      intro init
      rw [List.foldlM_cons, List.any_cons, ← Bool.or_assoc]
      exact ih _
  unfold webhookIDInUse
  rw [forEachItem_ok, hfold]
  simp only [Bool.false_or, Except.ok.injEq]

theorem pendingItems_ok {s s' : Store} {found : List StoredItem} :
    pendingItems s = .ok (found, s') ↔ s' = s ∧ Readable (s .deliveryQueue).toList ∧
      (∀ entry ∈ items s, itemKey entry.2.deliveryID = entry.1) ∧
      ((items s).filter fun entry => entry.2.state = .pending).map
        (fun e => ⟨e.1, e.2⟩) = found := by
  have hfold : ∀ (l : List (Bytes × Item)) (init : List StoredItem),
      l.foldlM (fun found entry =>
        if itemKey entry.2.deliveryID ≠ entry.1 then .error errCorruptQueue
        else (.ok (if entry.2.state = .pending then found ++ [⟨entry.1, entry.2⟩] else found) :
          Except Error (List StoredItem))) init = .ok found ↔
        (∀ entry ∈ l, itemKey entry.2.deliveryID = entry.1) ∧
        init ++ (l.filter fun entry => entry.2.state = .pending).map (fun e => ⟨e.1, e.2⟩) =
          found := by
    intro l
    induction l with
    | nil => simp [pure, Except.pure]
    | cons entry l ih =>
      intro init
      rw [List.foldlM_cons, List.forall_mem_cons]
      by_cases hkey : itemKey entry.2.deliveryID = entry.1
      · simp only [hkey, ne_eq, not_true_eq_false, if_false, bind, Except.bind, true_and, ih]
        by_cases hstate : entry.2.state = .pending <;> simp [hstate]
      · simp [hkey, bind, Except.bind]
  unfold pendingItems
  rw [forEachItem_ok, hfold, List.nil_append]

end PulseAgent.Delivery
