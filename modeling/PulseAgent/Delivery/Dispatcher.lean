import PulseAgent.Concurrent.Pool
import PulseAgent.Delivery.Queue
import PulseAgent.Webhook.Standard

/-!
# The dispatcher

`enqueue` admits a payload reference, `deliverDue` sends every item that is due and records what
came of it. One `Environment` answers clock, ID generators, payload source, HTTP client and context.
-/

namespace PulseAgent.Delivery

open Go Contract Concurrent

inductive Transaction where
  | enqueue (maxQueueItems : Nat) (item : Item) (mutation : Option (TxProg Unit))
  | pendingItems
  | markDelivered (key : Bytes) (now : Time)
  | scheduleRetry (key : Bytes) (nextAttempt : Int64) (nextAt : Time)
  | markTerminal (key : Bytes) (ending : Ending) (auditID : Bytes) (now : Time) (reason : Bytes)
  /-- One record of a publisher, read under the context its caller puts in front of an error. -/
  | read (context : String) (bucket : Bucket) (key : Bytes)

namespace Transaction

def Out : Transaction → Type
  | enqueue .. => Unit
  | pendingItems => List StoredItem
  | markDelivered .. | scheduleRetry .. | markTerminal .. => Item
  | read .. => Option Bytes

def body : (t : Transaction) → Tx t.Out
  | enqueue maxQueueItems item mutation => enqueueItem maxQueueItems item mutation
  | pendingItems => Delivery.pendingItems
  | markDelivered key now => Delivery.markDelivered key now
  | scheduleRetry key nextAttempt nextAt => Delivery.scheduleRetry key nextAttempt nextAt
  | markTerminal key ending auditID now reason =>
      Delivery.markTerminal key ending auditID now reason
  | read _ bucket key => Tx.get bucket key

/-- The context each caller puts in front of an error. -/
def context : Transaction → String
  | enqueue .. => "enqueue delivery: "
  | pendingItems => "load delivery queue: "
  | markDelivered .. => "mark delivery delivered: "
  | scheduleRetry .. => "schedule delivery retry: "
  | markTerminal .. => "mark delivery terminal: "
  | read context .. => context

/-- With a fault the transaction does not commit. -/
def run (t : Transaction) (fault : Option Error) (s : Store) : Except Error t.Out × Store :=
  match fault, t.body s with
  | none, .ok (a, s') => (.ok a, s')
  | none, .error e | some e, _ => (.error (.wrap t.context e ""), s)

theorem run_ok {t : Transaction} {fault : Option Error} {s : Store} {a : t.Out}
    (h : (t.run fault s).1 = .ok a) : t.body s = .ok (a, (t.run fault s).2) := by
  unfold run at h ⊢
  split at h
  case h_1 b s' hbody =>
    cases h
    exact hbody
  case h_2 => cases h
  case h_3 => cases h

theorem run_of_ok {t : Transaction} {s s' : Store} {a : t.Out} (h : t.body s = .ok (a, s')) :
    t.run none s = (.ok a, s') := by
  unfold run
  rw [h]

theorem run_error {t : Transaction} {fault : Option Error} {s : Store} {e : Error}
    (h : (t.run fault s).1 = .error e) : (t.run fault s).2 = s := by
  unfold run at h ⊢
  split at h
  case h_1 => cases h
  case h_2 => rfl
  case h_3 => rfl

theorem run_state (t : Transaction) (fault : Option Error) (s : Store) :
    (t.run fault s).2 = s ∨ ∃ a, t.body s = .ok (a, (t.run fault s).2) := by
  unfold run
  split
  case h_1 b s' hbody => exact .inr ⟨b, hbody⟩
  case h_2 => exact .inl rfl
  case h_3 => exact .inl rfl

end Transaction

structure HTTPRequest where
  endpoint : Bytes
  headers : Webhook.Headers
  body : Bytes

/-- What the client returned; without a status code there was no response. -/
structure Response where
  requestErr : Bool
  closeErr : Bool
  statusCode : Option Int

def Response.accepted (r : Response) : Bool :=
  !r.requestErr && !r.closeErr && r.statusCode.any fun code => 200 ≤ code && code < 300

inductive Op where
  | clock
  | newDeliveryID
  | newWebhookID
  | newAuditEventID
  /-- `ctx.Err()` before any work on an item. -/
  | ctxErr
  /-- `ctx.Err()` while an item is processed. -/
  | itemCtxErr
  | loadPayload (payloadType : DeliveryPayloadType) (payloadRef : Bytes)
  /-- The client sees the request; the item and the reading are what it is sent for. -/
  | send (stored : StoredItem) (now : Time) (request : HTTPRequest)
  | tx (t : Transaction)

def Op.Res : Op → Type
  | clock => Time
  | newDeliveryID | newWebhookID | newAuditEventID => Except Error Bytes
  | ctxErr | itemCtxErr => Option Error
  | loadPayload .. => Except Error Bytes
  | send .. => Response
  | tx t => Except Error t.Out

/-- Everything a single call may be answered with. -/
structure Environment where
  now : Time
  id : Except Error Bytes
  cancelled : Option Error
  payload : Except Error Bytes
  response : Response
  fault : Option Error

def perform : (o : Op) → Environment → Store → o.Res × Store
  | .clock, env, s => (env.now, s)
  | .newDeliveryID, env, s | .newWebhookID, env, s | .newAuditEventID, env, s => (env.id, s)
  | .ctxErr, env, s | .itemCtxErr, env, s => (env.cancelled, s)
  | .loadPayload .., env, s => (env.payload, s)
  | .send .., env, s => (env.response, s)
  | .tx t, env, s => t.run env.fault s

def interface : Interface Store where
  Op := Op
  Res := Op.Res
  Answer := fun _ => Environment
  perform := perform

abbrev Prog := Concurrent.Prog interface

def call (o : Op) : Prog o.Res := Concurrent.Prog.call (I := interface) o

def commit (t : Transaction) : Prog (Except Error t.Out) := call (.tx t)

/-- The options `New` accepts. -/
structure Dispatcher where
  keyring : Webhook.Keyring
  destinations : Std.ExtTreeMap Bytes Bytes
  maxQueueItems : Nat
  maxAttempts : Int64
  initialBackoff : Duration
  maxBackoff : Duration
  maxPayloadBytes : Nat
  references : ∀ reference endpoint, destinations[reference]? = some endpoint →
    validToken reference maxDestinationRefLength = true
  queueItems : 1 ≤ maxQueueItems ∧ maxQueueItems ≤ 10000
  attempts : 1 ≤ maxAttempts.toInt ∧ maxAttempts.toInt ≤ 32
  backoffs : 1000000 ≤ initialBackoff.toInt ∧ initialBackoff.toInt ≤ maxBackoff.toInt
  payloadBytes : 1 ≤ maxPayloadBytes ∧ maxPayloadBytes ≤ 2 ^ 20

structure EnqueueRequest where
  payloadType : DeliveryPayloadType
  payloadRef : Bytes
  destinationRef : Bytes
  expiresAt : Time

structure Result where
  item : Item
  sent : Bool := false
  retrying : Bool := false
  reasonCode : Bytes

namespace Dispatcher

def now : Prog (Except Error Time) := do
  let now ← call .clock
  pure (if now.isZero then .error errInvalidOptions else .ok now)

/-- The loop of `backoff`, with the retries still to count. -/
def backoffLoop (d : Dispatcher) : Nat → Duration → Duration
  | 0, backoff => min backoff d.maxBackoff
  | retries + 1, backoff =>
    if backoff < d.maxBackoff then
      if d.maxBackoff / 2 < backoff then d.maxBackoff else d.backoffLoop retries (backoff * 2)
    else min backoff d.maxBackoff

def backoff (d : Dispatcher) (attempt : Int64) : Duration :=
  if attempt < 1 then d.initialBackoff
  else d.backoffLoop (attempt.toInt.toNat - 1) d.initialBackoff

/-! ## Admission -/

def validateEnqueueRequest (d : Dispatcher) (request : EnqueueRequest) : Bool :=
  (request.payloadType = .lifecycleEvent || request.payloadType = .incidentReport) &&
    validToken request.payloadRef maxPayloadRefLength &&
    validToken request.destinationRef maxDestinationRefLength && !request.expiresAt.isZero &&
    d.destinations[request.destinationRef]?.isSome

def newItem (request : EnqueueRequest) (deliveryID webhookID : Bytes) (now : Time) : Item where
  schemaVersion := schemaVersionV1
  deliveryID := deliveryID
  payloadType := request.payloadType
  payloadRef := request.payloadRef
  webhookID := webhookID
  destinationRef := request.destinationRef
  attemptCount := 0
  nextAttemptAt := now
  expiresAt := request.expiresAt
  state := .pending

/-- The identifiers of a new item, or the refusal of what a generator returned. -/
def newIDs (d : Dispatcher) (now : Time) : Prog (Except Error (Bytes × Bytes)) := do
  match ← call .newDeliveryID with
  | .error _ => pure (.error errInvalidRequest)
  | .ok deliveryID =>
    if !validToken deliveryID maxPayloadRefLength then return .error errInvalidRequest
    match ← call .newWebhookID with
    | .error _ => pure (.error errInvalidRequest)
    | .ok webhookID =>
      match d.keyring.sign webhookID now [] with
      | .error _ => pure (.error errInvalidRequest)
      | .ok _ => pure (.ok (deliveryID, webhookID))

def enqueue (d : Dispatcher) (request : EnqueueRequest) (mutation : Option (TxProg Unit)) :
    Prog (Except Error Item) := do
  if !d.validateEnqueueRequest request then return .error errInvalidRequest
  match ← now with
  | .error e => pure (.error e)
  | .ok now =>
    if !(now < request.expiresAt) then return .error errInvalidRequest
    match ← d.newIDs now with
    | .error e => pure (.error e)
    | .ok (deliveryID, webhookID) =>
      let item := newItem request deliveryID webhookID now
      match ← commit (.enqueue d.maxQueueItems item mutation) with
      | .error e => pure (.error e)
      | .ok _ => pure (.ok item)

/-! ## Delivery -/

def markDelivered (stored : StoredItem) (now : Time) : Prog (Except Error Result) := do
  match ← commit (.markDelivered stored.key now) with
  | .error e => pure (.error e)
  | .ok updated => pure (.ok { item := updated, sent := true, reasonCode := lit "delivered" })

/-- `fail` and `expire`. -/
def markTerminal (stored : StoredItem) (now : Time) (ending : Ending) (reason : Bytes) :
    Prog (Except Error Result) := do
  match ← call .newAuditEventID with
  | .error _ => pure (.error errInvalidRequest)
  | .ok auditID =>
    if !validToken auditID maxPayloadRefLength then return .error errInvalidRequest
    match ← commit (.markTerminal stored.key ending auditID now reason) with
    | .error e => pure (.error e)
    | .ok updated => pure (.ok { item := updated, reasonCode := reason })

def retryOrFail (d : Dispatcher) (stored : StoredItem) (now : Time) (reason : Bytes) :
    Prog (Except Error Result) :=
  let nextAttempt := stored.item.attemptCount + 1
  if d.maxAttempts ≤ nextAttempt then markTerminal stored now .failed (lit "attempts_exhausted")
  else
    let nextAt : Time := now + (d.backoff nextAttempt).toInt
    if !(nextAt < stored.item.expiresAt) then markTerminal stored now .expired (lit "expired")
    else do
      match ← commit (.scheduleRetry stored.key nextAttempt nextAt) with
      | .error e => pure (.error e)
      | .ok updated => pure (.ok { item := updated, retrying := true, reasonCode := reason })

/-- `json.Valid`. -/
def validJSON (body : Bytes) : Bool :=
  match Json.parseValue (body.length + 1) body with
  | none => false
  | some (_, rest) => Json.skipSpace rest = []

/-- What may be sent as the body of a delivery. -/
def usablePayload (d : Dispatcher) : Except Error Bytes → Option Bytes
  | .error _ => none
  | .ok body =>
    if body ≠ [] ∧ body.length ≤ d.maxPayloadBytes ∧ validJSON body then some body else none

def deliverOne (d : Dispatcher) (stored : StoredItem) (now : Time) :
    Prog (Except Error Result) := do
  let payload ← call (.loadPayload stored.item.payloadType stored.item.payloadRef)
  match ← call .itemCtxErr with
  | some e => pure (.error e)
  | none =>
    match d.usablePayload payload with
    | none => d.retryOrFail stored now (lit "payload_unavailable")
    | some body =>
      match d.keyring.sign stored.item.webhookID now body with
      | .error e => pure (.error (.wrap "sign delivery payload: " e ""))
      | .ok headers =>
        let endpoint := d.destinations[stored.item.destinationRef]?.getD []
        let response ← call (.send stored now ⟨endpoint, headers, body⟩)
        match ← call .itemCtxErr with
        | some e => pure (.error e)
        | none =>
          if response.accepted then markDelivered stored now
          else d.retryOrFail stored now (lit "endpoint_failed")

/-- What the pass does with one pending item; nothing if the item is not due. -/
def process (d : Dispatcher) (now : Time) (stored : StoredItem) :
    Prog (Except Error (Option Result)) := do
  if !(now < stored.item.expiresAt) then
    match ← markTerminal stored now .expired (lit "expired") with
    | .error e => pure (.error e)
    | .ok result => pure (.ok (some result))
  else if now < stored.item.nextAttemptAt then pure (.ok none)
  else
    match ← d.deliverOne stored now with
    | .error e => pure (.error e)
    | .ok result => pure (.ok (some result))

/-- The loop over the pending items, with the results so far; it ends at the first error. -/
def deliverItems (d : Dispatcher) (now : Time) :
    List StoredItem → List Result → Prog (List Result × Option Error)
  | [], results => pure (results, none)
  | stored :: rest, results => do
    match ← call .ctxErr with
    | some e => pure (results, some e)
    | none =>
      match ← d.process now stored with
      | .error e => pure (results, some e)
      | .ok result => d.deliverItems now rest (results ++ result.toList)

def deliverDue (d : Dispatcher) : Prog (List Result × Option Error) := do
  match ← now with
  | .error e => pure ([], some e)
  | .ok now =>
    match ← commit .pendingItems with
    | .error e => pure ([], some e)
    | .ok items => d.deliverItems now items []

end Dispatcher
end PulseAgent.Delivery
