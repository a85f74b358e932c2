import Mathlib
import PulseAgent.Contract.Decode
import PulseAgent.Go.JsonSize
import PulseAgent.Go.Sha256
import PulseAgent.Go.TreeMap
import PulseAgent.Redaction
import PulseAgent.Store

/-!
# The digest-linked audit chain

Audit records are keyed by their position and carry the digest of the record before them.
`foldlM_scanEvent` says what the reader accepts, in terms of the list of events.
-/

namespace PulseAgent.Audit

open Go Go.Json Contract

def maxFieldBytes : Nat := 128

def maxUint64 : Nat := 2 ^ 64 - 1

def errInvalidEvent : Error := .new "invalid audit event"
def errChainInvalid : Error := .new "audit chain invalid"
def errChainCapacity : Error := .new "audit chain capacity exhausted"

abbrev Mutation := TxProg Unit

structure ChainState where
  nextIndex : Nat := 0
  previousDigest : Bytes := []
deriving DecidableEq

structure CanonicalEvent where
  schemaVersion : Bytes := []
  eventID : Bytes := []
  aggregateType : Bytes := []
  aggregateID : Bytes := []
  actorIdentity : Bytes := []
  action : Bytes := []
  result : Bytes := []
  reasonCode : Bytes := []
  occurredAt : Bytes := []
  previousDigest : Bytes := []
deriving DecidableEq

def CanonicalEvent.fields : List (Member CanonicalEvent) :=
  [.of (lit "schema_version") .string (·.schemaVersion) fun x s => { s with schemaVersion := x },
   .of (lit "event_id") .string (·.eventID) fun x s => { s with eventID := x },
   .of (lit "aggregate_type") .string (·.aggregateType) fun x s => { s with aggregateType := x },
   .of (lit "aggregate_id") .string (·.aggregateID) fun x s => { s with aggregateID := x },
   .of (lit "actor_identity") .string (·.actorIdentity) fun x s => { s with actorIdentity := x },
   .of (lit "action") .string (·.action) fun x s => { s with action := x },
   .of (lit "result") .string (·.result) fun x s => { s with result := x },
   .of (lit "reason_code") .string (·.reasonCode) fun x s => { s with reasonCode := x },
   .of (lit "occurred_at") .string (·.occurredAt) fun x s => { s with occurredAt := x },
   .of (lit "previous_digest") .string (·.previousDigest) fun x s => { s with previousDigest := x }]

def CanonicalEvent.codec : Codec CanonicalEvent :=
  .struct CanonicalEvent.fields {} (by decide +kernel) (by decide +kernel) fun _ => by
    repeat' constructor

def safeRune (r : Nat) : Bool :=
  (97 ≤ r && r ≤ 122) || (65 ≤ r && r ≤ 90) || (48 ≤ r && r ≤ 57) || Regexp.chars "._-:/@" r

def validAuditField (value : Bytes) : Bool :=
  value ≠ [] && value.length ≤ maxFieldBytes && !Redaction.containsSensitive value &&
    (Utf8.runes value).all safeRune

def validDigest (value : Bytes) : Bool := value.length = 64 && Hex.decodable value

/-- The texts of an event the chain constrains. -/
def auditFields (event : AuditEvent) : List Bytes :=
  [event.eventID, event.aggregateType, event.aggregateID, event.actorIdentity, event.action,
   event.result, event.reasonCode]

def validateEventFields (event : AuditEvent) : Except Error Unit :=
  if event.schemaVersion = schemaVersionV1 ∧ event.occurredAt.isZero = false ∧
      (auditFields event).all validAuditField = true then .ok ()
  else .error errInvalidEvent

def validateStoredEvent (event : AuditEvent) : Except Error Unit := do
  validateEventFields event
  if validDigest event.digest ∧ (event.previousDigest = [] ∨ validDigest event.previousDigest) then
    .ok ()
  else .error errInvalidEvent

def canonicalEvent (event : AuditEvent) : CanonicalEvent where
  schemaVersion := event.schemaVersion
  eventID := event.eventID
  aggregateType := event.aggregateType
  aggregateID := event.aggregateID
  actorIdentity := event.actorIdentity
  action := event.action
  result := event.result
  reasonCode := event.reasonCode
  occurredAt := event.occurredAt.rfc3339Nano
  previousDigest := event.previousDigest

def canonicalBytes (event : AuditEvent) : Except Error Bytes := do
  validateEventFields event
  if event.previousDigest = [] ∨ validDigest event.previousDigest then
    encode CanonicalEvent.codec "" (canonicalEvent event)
  else .error errInvalidEvent

def canonicalDigest (event : AuditEvent) : Except Error Bytes :=
  (canonicalBytes event).map fun canonical => Hex.encode (Sha256.sum256 canonical)

def decodeEvent (document : Bytes) : Except Error AuditEvent :=
  match decode AuditEvent.codec ⟨0, schemaVersionV1, validateStoredEvent⟩ document with
  | .error _ => .error errChainInvalid
  | .ok event =>
    match canonicalDigest event with
    | .error _ => .error errChainInvalid
    | .ok expected => if event.digest = expected then .ok event else .error errChainInvalid

/-- The key of a position, in twenty digits. -/
def eventKey (index : Nat) : Bytes := Decimal.pad 20 index

structure Scan where
  state : ChainState := {}
  seenEventIDs : List Bytes := []

def scanEvent (scan : Scan) (key document : Bytes) : Except Error Scan :=
  if key ≠ eventKey scan.state.nextIndex then .error errChainInvalid
  else
    match decodeEvent document with
    | .error e => .error e
    | .ok event =>
      if event.previousDigest ≠ scan.state.previousDigest then .error errChainInvalid
      else if event.eventID ∈ scan.seenEventIDs then .error errChainInvalid
      else if scan.state.nextIndex = maxUint64 then .error errChainCapacity
      else .ok ⟨⟨scan.state.nextIndex + 1, event.digest⟩, event.eventID :: scan.seenEventIDs⟩

/-- Faults other than an exhausted key space are one error. -/
def readChain : Tx ChainState := fun s =>
  match Tx.forEach .audit {} scanEvent s with
  | .ok (scan, s) => .ok (scan.state, s)
  | .error e => if e.is errChainCapacity then .error e else .error errChainInvalid

def validateChain : Tx Unit := do
  let _ ← readChain

/-- Applies a change that has to leave the chain as it was read before. -/
def applyChange (state : ChainState) : Option Mutation → Tx Unit
  | none => pure ()
  | some change => do
    Tx.context "apply audited state change: " change.run
    let afterChange ← readChain
    Tx.require (afterChange = state) errChainInvalid

/-- Checks the chain, applies the change and appends the event with its digest. -/
def append (event : AuditEvent) (change : Option Mutation) : Tx AuditEvent := do
  let state ← readChain
  Tx.require (event.previousDigest = [] ∧ event.digest = []) errInvalidEvent
  Tx.liftExcept (validateEventFields event)
  applyChange state change
  Tx.require (state.nextIndex ≠ maxUint64) errChainCapacity
  let linked := { event with previousDigest := state.previousDigest }
  let digest ← Tx.liftExcept (canonicalDigest linked)
  let appended := { linked with digest := digest }
  let document ← Tx.liftExcept (encode AuditEvent.codec "serialize audit event: " appended)
  Tx.context "store audit event: " (Tx.appendAudit (eventKey state.nextIndex) document)
  return appended

/-! ## What the reader accepts -/

/-- The entries of the bucket, from position `i` after the digest `prev`, hold these events. -/
def Records : Nat → Bytes → List (Bytes × Bytes) → List AuditEvent → Prop
  | _, _, [], [] => True
  | i, prev, (key, document) :: entries, event :: events =>
    key = eventKey i ∧ decodeEvent document = .ok event ∧ event.previousDigest = prev ∧
      i ≠ maxUint64 ∧ Records (i + 1) event.digest entries events
  | _, _, _, _ => False

def lastDigest (prev : Bytes) (events : List AuditEvent) : Bytes :=
  events.foldl (fun _ event => event.digest) prev

theorem scanEvent_ok {scan scan' : Scan} {key document : Bytes} :
    scanEvent scan key document = .ok scan' ↔ ∃ event, key = eventKey scan.state.nextIndex ∧
      decodeEvent document = .ok event ∧ event.previousDigest = scan.state.previousDigest ∧
      event.eventID ∉ scan.seenEventIDs ∧ scan.state.nextIndex ≠ maxUint64 ∧
      scan' = ⟨⟨scan.state.nextIndex + 1, event.digest⟩, event.eventID :: scan.seenEventIDs⟩ := by
  unfold scanEvent
  cases decodeEvent document with
  | error e => split_ifs <;> simp
  | ok event =>
    simp only [Except.ok.injEq, ne_eq, ite_not]
    split_ifs <;> simp_all [eq_comm]

/-- The scan goes through exactly when the entries are consecutive linked records whose event
identifiers are new and pairwise different. -/
theorem foldlM_scanEvent : ∀ (entries : List (Bytes × Bytes)) (scan scan' : Scan),
    entries.foldlM (fun acc entry => scanEvent acc entry.1 entry.2) scan = .ok scan' ↔
      ∃ events, Records scan.state.nextIndex scan.state.previousDigest entries events ∧
        (events.map AuditEvent.eventID).Nodup ∧
        (∀ event ∈ events, event.eventID ∉ scan.seenEventIDs) ∧
        scan' = ⟨⟨scan.state.nextIndex + events.length,
          lastDigest scan.state.previousDigest events⟩,
          (events.map AuditEvent.eventID).reverse ++ scan.seenEventIDs⟩
  | [], scan, scan' => by
    constructor
    · intro h
      cases h
      exact ⟨[], trivial, List.nodup_nil, by simp, rfl⟩
    · rintro ⟨events, hrecords, -, -, rfl⟩
      cases events with
      | nil => rfl
      | cons event events => exact absurd hrecords (by simp [Records])
  | (key, document) :: entries, scan, scan' => by
    rw [List.foldlM_cons, except_bind_ok]
    constructor
    · rintro ⟨scan1, hscan, hrest⟩
      obtain ⟨event, hkey, hdecode, hprev, hfresh, hmax, rfl⟩ := scanEvent_ok.mp hscan
      obtain ⟨events, hrecords, hnodup, hseen, rfl⟩ := (foldlM_scanEvent entries _ scan').mp hrest
      refine ⟨event :: events, ⟨hkey, hdecode, hprev, hmax, hrecords⟩, ?_, ?_, ?_⟩
      · rw [List.map_cons, List.nodup_cons]
        refine ⟨fun hmem => ?_, hnodup⟩
        obtain ⟨e, he, heq⟩ := List.mem_map.mp hmem
        exact hseen e he (by simp [heq])
      · intro e he
        rcases List.mem_cons.mp he with rfl | he
        · exact hfresh
        · exact fun hmem => hseen e he (List.mem_cons_of_mem _ hmem)
      · simp [lastDigest, Nat.add_comm, Nat.add_left_comm]
    · rintro ⟨events, hrecords, hnodup, hseen, rfl⟩
      cases events with
      | nil => exact absurd hrecords (by simp [Records])
      | cons event events =>
        obtain ⟨hkey, hdecode, hprev, hmax, hrecords⟩ := hrecords
        rw [List.map_cons, List.nodup_cons] at hnodup
        refine ⟨_, scanEvent_ok.mpr
          ⟨event, hkey, hdecode, hprev, hseen event (by simp), hmax, rfl⟩, ?_⟩
        refine (foldlM_scanEvent entries _ _).mpr ⟨events, hrecords, hnodup.2, ?_, ?_⟩
        · intro e he hmem
          rcases List.mem_cons.mp hmem with heq | hmem
          · exact hnodup.1 (heq ▸ List.mem_map_of_mem he)
          · exact hseen e (List.mem_cons_of_mem _ he) hmem
        · simp [lastDigest, Nat.add_comm, Nat.add_left_comm]

/-- A bucket passes the reader when it holds linked records of distinct events. -/
def Chain (s : Store) (events : List AuditEvent) : Prop :=
  Records 0 [] (s .audit).toList events ∧ (events.map AuditEvent.eventID).Nodup

theorem readChain_eq_scan {s s' : Store} {state : ChainState} :
    readChain s = .ok (state, s') ↔
      ∃ scan, Tx.forEach .audit {} scanEvent s = .ok (scan, s') ∧ state = scan.state := by
  unfold readChain
  cases Tx.forEach .audit {} scanEvent s with
  | error e =>
    simp only [reduceCtorEq, false_and, exists_false, iff_false]
    split_ifs <;> simp
  | ok r =>
    obtain ⟨scan, s1⟩ := r
    simp only [Except.ok.injEq, Prod.mk.injEq]
    constructor
    · rintro ⟨rfl, rfl⟩
      exact ⟨scan, ⟨rfl, rfl⟩, rfl⟩
    · rintro ⟨scan, ⟨rfl, rfl⟩, rfl⟩
      exact ⟨rfl, rfl⟩

theorem readChain_ok {s s' : Store} {state : ChainState} :
    readChain s = .ok (state, s') ↔ ∃ events, Chain s events ∧ s' = s ∧
      state = ⟨events.length, lastDigest [] events⟩ := by
  rw [readChain_eq_scan]
  constructor
  · rintro ⟨scan, hscan, rfl⟩
    obtain ⟨hfold, rfl⟩ := Tx.forEach_ok.mp hscan
    obtain ⟨events, hrecords, hnodup, -, rfl⟩ := (foldlM_scanEvent _ _ _).mp hfold
    exact ⟨events, ⟨hrecords, hnodup⟩, rfl, by simp⟩
  · rintro ⟨events, ⟨hrecords, hnodup⟩, rfl, rfl⟩
    refine ⟨_, Tx.forEach_ok.mpr ⟨(foldlM_scanEvent _ _ _).mpr
      ⟨events, hrecords, hnodup, by simp, rfl⟩, rfl⟩, by simp⟩

theorem validateChain_ok {s s' : Store} {u : Unit} :
    validateChain s = .ok (u, s') ↔ ∃ events, Chain s events ∧ s' = s := by
  unfold validateChain
  rw [Tx.bind_ok]
  constructor
  · rintro ⟨state, s1, hread, hpure⟩
    obtain ⟨events, hchain, rfl, -⟩ := readChain_ok.mp hread
    cases hpure
    exact ⟨events, hchain, rfl⟩
  · rintro ⟨events, hchain, rfl⟩
    exact ⟨_, s', readChain_ok.mpr ⟨events, hchain, rfl, rfl⟩, rfl⟩

/-- The events the bucket's documents decode to, in key order. -/
def log (s : Store) : List AuditEvent :=
  (s .audit).toList.filterMap fun entry => (decodeEvent entry.2).toOption

theorem Records.filterMap : ∀ {i : Nat} {prev : Bytes} {entries : List (Bytes × Bytes)}
    {events : List AuditEvent}, Records i prev entries events →
    (entries.filterMap fun entry => (decodeEvent entry.2).toOption) = events
  | _, _, [], [], _ => rfl
  | _, _, (key, document) :: entries, event :: events, h => by
    simp only [List.filterMap_cons, h.2.1, h.2.2.2.2.filterMap]
    rfl

theorem Chain.log_eq {s : Store} {events : List AuditEvent} (h : Chain s events) :
    log s = events :=
  h.1.filterMap

theorem Records.keys : ∀ {i : Nat} {prev : Bytes} {entries : List (Bytes × Bytes)}
    {events : List AuditEvent}, Records i prev entries events →
    entries.map Prod.fst = (List.range' i events.length).map eventKey
  | _, _, [], [], _ => rfl
  | i, _, (key, document) :: entries, event :: events, h => by
    rw [List.length_cons, List.range'_succ, List.map_cons, List.map_cons, h.2.2.2.2.keys, h.1]

theorem Records.length_le : ∀ {i : Nat} {prev : Bytes} {entries : List (Bytes × Bytes)}
    {events : List AuditEvent}, Records i prev entries events → i ≤ maxUint64 →
    i + events.length ≤ maxUint64
  | _, _, [], [], _, hi => hi
  | i, _, (key, document) :: entries, event :: events, h, hi => by
    have hne : i ≠ maxUint64 := h.2.2.2.1
    have := h.2.2.2.2.length_le (by omega)
    rw [List.length_cons]
    omega

theorem Records.snoc (entry : Bytes × Bytes) (event : AuditEvent) : ∀ {i : Nat} {prev : Bytes}
    {entries : List (Bytes × Bytes)} {events : List AuditEvent}, Records i prev entries events →
    (Records (i + events.length) (lastDigest prev events) [entry] [event] ↔
      Records i prev (entries ++ [entry]) (events ++ [event]))
  | i, prev, [], [], _ => Iff.rfl
  | i, prev, (key, document) :: entries, e :: events, h => by
    have ih := Records.snoc entry event h.2.2.2.2
    rw [List.length_cons, ← Nat.add_assoc, Nat.add_right_comm]
    constructor
    · intro hlast
      exact ⟨h.1, h.2.1, h.2.2.1, h.2.2.2.1, ih.mp hlast⟩
    · intro hall
      exact ih.mpr hall.2.2.2.2

end PulseAgent.Audit
