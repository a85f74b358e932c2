import PulseAgent.Concurrent.Sequential
import PulseAgent.Observer.Evaluate
import PulseAgent.Target.Registry
import PulseAgent.Webhook.Standard

/-!
# The alert ingress

`accept` authenticates, decodes and normalizes an alert and leaves a receipt under its webhook ID,
which refuses the ID until it expires. The receipt is looked up before the body is decoded and again
in the transaction that writes the new one.
-/

namespace PulseAgent.Alert

open Go Go.Json Contract Concurrent

def defaultMaxBodyBytes : Int64 := 64 * 1024
def defaultTimeout : Duration := 5 * 1000000000
def defaultRetention : Duration := 24 * 3600 * 1000000000
def maxValues : Nat := 16

def errInvalidOptions : Error := .new "invalid alert ingress options"
def errReplay : Error := .new "replayed webhook"
def errInvalidAlert : Error := .new "invalid normalized alert"

structure Options where
  keyring : Webhook.Keyring
  maxBodyBytes : Int64 := 0
  timeout : Duration := 0
  retention : Duration := 0

/-- What `newIngress` constructs. -/
structure Ingress where
  keyring : Webhook.Keyring
  maxBody : Int64
  timeout : Duration
  retention : Duration
  body : 1 ≤ maxBody ∧ maxBody ≤ defaultMaxBodyBytes
  timeouts : 1000000 ≤ timeout
  retentions : 60 * 1000000000 ≤ retention

def newIngress (options : Options) : Except Error Ingress :=
  let maxBody := if options.maxBodyBytes = 0 then defaultMaxBodyBytes else options.maxBodyBytes
  let timeout := if options.timeout = 0 then defaultTimeout else options.timeout
  let retention := if options.retention = 0 then defaultRetention else options.retention
  if h : (1 ≤ maxBody ∧ maxBody ≤ defaultMaxBodyBytes) ∧ 1000000 ≤ timeout ∧
      60 * 1000000000 ≤ retention then
    .ok ⟨options.keyring, maxBody, timeout, retention, h.1, h.2.1, h.2.2⟩
  else .error errInvalidOptions

/-- Every ingress is one that `newIngress` constructs. -/
theorem newIngress_surjective (i : Ingress) :
    newIngress ⟨i.keyring, i.maxBody, i.timeout, i.retention⟩ = .ok i := by
  obtain ⟨keyring, maxBody, timeout, retention, hbody, htimeout, hretention⟩ := i
  have hmaxBody : maxBody ≠ 0 := by
    rintro rfl
    exact absurd hbody.1 (by decide)
  have htimeout0 : timeout ≠ 0 := by
    rintro rfl
    exact absurd htimeout (by decide)
  have hretention0 : retention ≠ 0 := by
    rintro rfl
    exact absurd hretention (by decide)
  simp only [newIngress, if_neg hmaxBody, if_neg htimeout0, if_neg hretention0]
  exact dif_pos ⟨hbody, htimeout, hretention⟩

/-! ## Alerts -/

structure Incoming where
  schemaVersion : Bytes := []
  source : Bytes := []
  externalAlertID : Bytes := []
  targetID : Bytes := []
  ruleID : Bytes := []
  state : NormalizedState := .unset
  severity : Severity := .unset
  observedAt : Time := 0
  values : Option (TextMap Float64) := none
  evidenceRefs : Option (List Bytes) := none

def Incoming.fields : List (Member Incoming) :=
  [.of (lit "schema_version") .string (·.schemaVersion) fun x s => { s with schemaVersion := x },
   .of (lit "source") .string (·.source) fun x s => { s with source := x },
   .of (lit "external_alert_id") .string (·.externalAlertID) fun x s =>
     { s with externalAlertID := x },
   .of (lit "target_id") .string (·.targetID) fun x s => { s with targetID := x },
   .of (lit "rule_id") .string (·.ruleID) fun x s => { s with ruleID := x },
   .of (lit "state") NormalizedState.codec (·.state) fun x s => { s with state := x },
   .of (lit "severity") Severity.codec (·.severity) fun x s => { s with severity := x },
   .of (lit "observed_at") .time (·.observedAt) fun x s => { s with observedAt := x },
   .of (lit "values") (.table .float64) (·.values) fun x s => { s with values := x },
   .of (lit "evidence_refs") (.slice .string) (·.evidenceRefs) fun x s =>
     { s with evidenceRefs := x }]

def Incoming.codec : Codec Incoming :=
  .struct Incoming.fields {} (by decide +kernel) (by decide +kernel) fun _ => by
    repeat' constructor

def validateIncoming (value : Incoming) : Except Error Unit :=
  if value.source = [] || 96 < value.source.length || value.externalAlertID = [] ||
      128 < value.externalAlertID.length || value.targetID = [] || value.ruleID = [] ||
      value.observedAt.isZero then .error errInvalidAlert
  else if value.state ≠ .healthy && value.state ≠ .unhealthy && value.state ≠ .unknown then
    .error errInvalidAlert
  else if value.severity ≠ .info && value.severity ≠ .warning && value.severity ≠ .critical then
    .error errInvalidAlert
  else .ok ()

def decode (raw : Bytes) : Except Error Incoming :=
  match Contract.decode Incoming.codec
      ⟨defaultMaxBodyBytes.toInt, schemaVersionV1, validateIncoming⟩ raw with
  | .error _ => .error errInvalidAlert
  | .ok value => .ok value

structure Normalized where
  source : Bytes
  externalAlertID : Bytes
  observation : HealthObservation

/-- The loop of `bounded` over the sorted keys, which ends once the map is full. -/
def bound (out : TextMap Float64) : List (Bytes × Float64) → TextMap Float64
  | [] => out
  | (key, value) :: entries =>
    if out.entries.size = maxValues then out
    else if value.isFinite then bound (out.insert key (Observer.clamp value)) entries
    else bound out entries

def bounded (values : Option (TextMap Float64)) : TextMap Float64 :=
  bound .empty (values.elim [] fun m => m.entries.toList)

/-- Whether an enabled target with this ID has the rule. -/
def registered (snapshot : Target.Snapshot) (value : Incoming) : Bool :=
  snapshot.targets.any fun candidate =>
    candidate.enabled && candidate.targetID = value.targetID &&
      (elems candidate.probeRules).any fun rule => rule.ruleID = value.ruleID

def normalized (value : Incoming) (snapshot : Target.Snapshot) (id : Bytes) (now : Time) :
    Normalized where
  source := value.source
  externalAlertID := value.externalAlertID
  observation :=
    { schemaVersion := schemaVersionV1
      observationID := id
      targetID := value.targetID
      ruleID := value.ruleID
      targetSnapshotVersion := snapshot.version
      observedAt := value.observedAt
      normalizedState := value.state
      boundedValues := some (bounded value.values)
      evidenceRefs := some []
      sequence := now.unixNano.toUInt64 }

/-! ## Receipts -/

structure Receipt where
  expiresAt : Time := 0

def Receipt.fields : List (Member Receipt) :=
  [.of (lit "expires_at") .time (·.expiresAt) fun x s => { s with expiresAt := x }]

def Receipt.codec : Codec Receipt :=
  .struct Receipt.fields {} (by decide +kernel) (by decide +kernel) fun _ => by
    repeat' constructor

/-- `json.Unmarshal` of a receipt and the check of its time. -/
def readReceipt (document : Bytes) : Except Error Time :=
  match (parse document).map (Receipt.codec.read false) with
  | some (.ok old) => if old.expiresAt.isZero then .error errInvalidAlert else .ok old.expiresAt
  | _ => .error errInvalidAlert

def hasActiveReceipt (id : Bytes) (now : Time) : Tx Bool := do
  match ← Tx.get .ingressReceipts id with
  | none => return false
  | some document =>
    let expiresAt ← Tx.liftExcept (readReceipt document)
    return now < expiresAt

/-- The callback of the scan: the keys of the expired receipts. -/
def collectExpired (now : Time) (expired : List Bytes) (key document : Bytes) :
    Except Error (List Bytes) := do
  let expiresAt ← readReceipt document
  return if now < expiresAt then expired else expired ++ [key]

def deleteReceipts : List Bytes → Tx Unit
  | [] => return ()
  | key :: expired => do
    Tx.delete .ingressReceipts key
    deleteReceipts expired

/-- The transaction of `accept`. -/
def storeReceipt (id : Bytes) (now : Time) (document : Bytes) : Tx Unit := do
  let expired ← Tx.forEach .ingressReceipts [] (collectExpired now)
  deleteReceipts expired
  let found ← Tx.get .ingressReceipts id
  Tx.require (found = none) errReplay
  Tx.put .ingressReceipts id document

def rejection (eventID : Bytes) (now : Time) (reason : Bytes) : AuditEvent where
  schemaVersion := schemaVersionV1
  eventID := eventID
  aggregateType := lit "alert_ingress"
  aggregateID := lit "ingress"
  actorIdentity := lit "remote"
  action := lit "alert.reject"
  result := lit "rejected"
  reasonCode := reason
  occurredAt := now

/-! ## The calls of the ingress -/

inductive Transaction where
  | hasActiveReceipt (id : Bytes) (now : Time)
  | storeReceipt (id : Bytes) (now : Time) (document : Bytes)
  | recordRejected (eventID : Bytes) (now : Time) (reason : Bytes)

namespace Transaction

def Out : Transaction → Type
  | hasActiveReceipt .. => Bool
  | storeReceipt .. | recordRejected .. => Unit

def body : (t : Transaction) → Tx t.Out
  | hasActiveReceipt id now => Alert.hasActiveReceipt id now
  | storeReceipt id now document => Alert.storeReceipt id now document
  | recordRejected eventID now reason => do
    let _ ← Audit.append (rejection eventID now reason) none
    return ()

/-- With a fault the transaction does not commit. -/
def run (t : Transaction) (fault : Option Error) (s : Store) : Except Error t.Out × Store :=
  match fault with
  | none => s.update t.body
  | some e => (.error e, s)

theorem run_ok {t : Transaction} {fault : Option Error} {s : Store} {a : t.Out}
    (h : (t.run fault s).1 = .ok a) : t.body s = .ok (a, (t.run fault s).2) := by
  cases fault with
  | some e => cases h
  | none => exact Store.update_eq_ok.mp (Prod.ext h rfl)

theorem run_error {t : Transaction} {fault : Option Error} {s : Store} {e : Error}
    (h : (t.run fault s).1 = .error e) : (t.run fault s).2 = s := by
  cases fault with
  | some e => rfl
  | none =>
    change (s.update t.body).1 = _ at h
    change (s.update t.body).2 = _
    cases hbody : t.body s with
    | error e' => rw [Store.update_of_error hbody]
    | ok r =>
      rw [Store.update_of_ok hbody] at h
      cases h

theorem run_of_ok {t : Transaction} {s s' : Store} {a : t.Out} (h : t.body s = .ok (a, s')) :
    t.run none s = (.ok a, s') := Store.update_of_ok h

end Transaction

inductive Op where
  | ctxErr
  | clock
  | newID
  | newAuditID
  | snapshot
  | tx (t : Transaction)

def Op.Res : Op → Type
  | ctxErr => Option Error
  | clock => Time
  | newID | newAuditID => Except Error Bytes
  | snapshot => Target.Snapshot
  | tx t => Except Error t.Out

/-- Everything a single call may be answered with. -/
structure Environment where
  cancelled : Option Error
  now : Time
  id : Except Error Bytes
  snapshot : Target.Snapshot
  fault : Option Error

def perform : (o : Op) → Environment → Store → o.Res × Store
  | .ctxErr, env, s => (env.cancelled, s)
  | .clock, env, s => (env.now, s)
  | .newID, env, s | .newAuditID, env, s => (env.id, s)
  | .snapshot, env, s => (env.snapshot, s)
  | .tx t, env, s => t.run env.fault s

def interface : Interface Store where
  Op := Op
  Res := Op.Res
  Answer := fun _ => Environment
  perform := perform

abbrev Prog := Concurrent.Prog interface

def call (o : Op) : Prog o.Res := Concurrent.Prog.call (I := interface) o

def commit (t : Transaction) : Prog (Except Error t.Out) := call (.tx t)

def normalize (value : Incoming) (now : Time) : Prog (Except Error Normalized) := do
  let snapshot ← call .snapshot
  if !registered snapshot value then return .error errInvalidAlert
  match ← call .newID with
  | .error e => pure (.error e)
  | .ok id => pure (.ok (normalized value snapshot id now))

/-- `recordRejected`, and the error that is returned unless it fails itself. -/
def reject (now : Time) (reason : Bytes) (e : Error) : Prog (Except Error Normalized) := do
  match ← call .newAuditID with
  | .error e' => pure (.error e')
  | .ok eventID =>
    match ← commit (.recordRejected eventID now reason) with
    | .error e' => pure (.error e')
    | .ok _ => pure (.error e)

namespace Ingress

def acceptNormalized (i : Ingress) (id : Bytes) (now : Time) (normalized : Normalized) :
    Prog (Except Error Normalized) :=
  match Receipt.codec.marshal ⟨now.add i.retention⟩ with
  | none => pure (.error errInvalidAlert)
  | some document => do
    match ← commit (.storeReceipt id now document) with
    | .error e => pure (.error e)
    | .ok _ => pure (.ok normalized)

/-- The part of `accept` after the signature is verified. -/
def acceptVerified (i : Ingress) (id raw : Bytes) (now : Time) :
    Prog (Except Error Normalized) := do
  match ← call .ctxErr with
  | some e => pure (.error e)
  | none =>
    match ← commit (.hasActiveReceipt id now) with
    | .error e => pure (.error e)
    | .ok true => pure (.error errReplay)
    | .ok false =>
      match decode raw with
      | .error e => reject now (lit "invalid_payload") e
      | .ok decoded =>
        match ← normalize decoded now with
        | .error e => reject now (lit "unknown_target_or_rule") e
        | .ok normalized => i.acceptNormalized id now normalized

def accept (i : Ingress) (headers : Webhook.Headers) (raw : Bytes) :
    Prog (Except Error Normalized) := do
  if raw = [] ∨ i.maxBody.toInt < raw.length then return .error errInvalidAlert
  match ← call .ctxErr with
  | some e => pure (.error e)
  | none =>
    let now ← call .clock
    if now.isZero then return .error errInvalidOptions
    match i.keyring.verify headers raw now with
    | .error e => reject now (lit "invalid_signature") e
    | .ok _ => i.acceptVerified headers.id raw now

end Ingress

/-! ## Runs -/

structure Call where
  ingress : Ingress
  headers : Webhook.Headers
  raw : Bytes

/-- The rest of the daemon writes to the other buckets only. -/
structure Move where
  bucket : Bucket
  content : Collection
  foreign : bucket ≠ .ingressReceipts

abbrev system : System Store where
  interface := interface
  Call := Call
  Out := Except Error Normalized
  program c := c.ingress.accept c.headers c.raw
  Move := Move
  move m s := Function.update s m.bucket m.content

abbrev run (s : Store) (actions : List (Action system)) : World system := Concurrent.run s actions

abbrev History := List (Occurrence interface)

end PulseAgent.Alert
