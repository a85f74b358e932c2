import PulseAgent.Go.Duration
import PulseAgent.Go.Sha256
import PulseAgent.Contract.Decode
import PulseAgent.Store

/-!
# The correlator

One incident record for each target, rule and dedupe window. A healthy signal without a record in
its window goes to the latest incident of the target and rule that is still active.
-/

namespace PulseAgent.Correlator

open Go Go.Json Contract

def second : Duration := 1000000000
def defaultDedupeWindow : Duration := 300000000000
def maxDedupeWindow : Duration := 86400000000000
def maxSeenInputs : Nat := 256
def maxRecordBytes : Nat := 128 * 1024

def errInvalidOptions : Error := .new "invalid correlator options"
def errInvalidSignal : Error := .new "invalid correlation signal"
def errCorruptIncident : Error := .new "corrupt persisted incident"

def Phase.names : List Bytes :=
  [lit "candidate", lit "confirmed", lit "recovering", lit "terminal"]

inductive Phase where
  | candidate
  | confirmed
  | recovering
  | terminal
  | other (text : Bytes) (unnamed : text ∉ Phase.names)
deriving DecidableEq

namespace Phase

def unset : Phase := other [] (by decide)

def text : Phase → Bytes
  | candidate => lit "candidate"
  | confirmed => lit "confirmed"
  | recovering => lit "recovering"
  | terminal => lit "terminal"
  | other s _ => s

def ofText : Bytes → Phase :=
  ofTable [(candidate.text, candidate), (confirmed.text, confirmed),
    (recovering.text, recovering), (terminal.text, terminal)] fun s h => other s h

theorem text_ofText (s : Bytes) : text (ofText s) = s :=
  text_ofTable (by simp) (fun _ _ => rfl) s

def codec : Codec Phase := .named text ofText

/-- `validPhase`. -/
def valid : Phase → Bool
  | other .. => false
  | _ => true

end Phase

structure Signal where
  source : Bytes := []
  externalAlertID : Bytes := []
  severity : Severity := .unset
  observation : HealthObservation := {}
deriving DecidableEq

structure Result where
  incident : Incident := {}
  phase : Phase := .unset
  duplicate : Bool := false
  ignored : Bool := false
deriving DecidableEq

structure PersistedIncident where
  schemaVersion : Bytes := []
  phase : Phase := .unset
  incident : Incident := {}
  seenInputs : Option (List Bytes) := none
deriving DecidableEq

namespace PersistedIncident

def fields : List (Member PersistedIncident) :=
  [.of (lit "schema_version") .string (·.schemaVersion) fun x s => { s with schemaVersion := x },
   .of (lit "phase") Phase.codec (·.phase) fun x s => { s with phase := x },
   .of (lit "incident") Incident.codec (·.incident) fun x s => { s with incident := x },
   .of (lit "seen_inputs") (.slice .string) (·.seenInputs) fun x s => { s with seenInputs := x }]

def codec : Codec PersistedIncident :=
  .struct fields {} (by decide +kernel) (by decide +kernel) fun _ => by
    repeat' constructor

def document : Document PersistedIncident where
  codec := codec
  version := PersistedIncident.schemaVersion
  header := header_of_members (by decide +kernel)

end PersistedIncident

end PulseAgent.Correlator

namespace PulseAgent

open Go Contract Correlator

/-- A correlator; its window is within the bounds `New` checks. -/
structure Correlator where
  dedupeWindow : Duration
  bounded : second ≤ dedupeWindow ∧ dedupeWindow ≤ maxDedupeWindow

/-- `New`: a window of zero stands for the default. -/
def Correlator.new (window : Duration) : Except Error Correlator :=
  let dedupeWindow := if window = 0 then defaultDedupeWindow else window
  if h : second ≤ dedupeWindow ∧ dedupeWindow ≤ maxDedupeWindow then .ok ⟨dedupeWindow, h⟩
  else .error errInvalidOptions

namespace Correlator

/-! ## Checks -/

/-- Whether a string is blank; signals are checked with the defaults filled in. -/
def blank (s : Bytes) : Bool := Strings.trimSpace s = []

def validObservation (o : HealthObservation) : Bool :=
  o.schemaVersion = schemaVersionV1 && !blank o.observationID && !blank o.targetID &&
    !blank o.ruleID && !o.observedAt.isZero &&
    (o.normalizedState = .healthy || o.normalizedState = .unhealthy)

def Signal.withDefaults (signal : Signal) : Signal :=
  { signal with
    source := if signal.source = [] then lit "observer" else signal.source
    severity := if signal.severity = .unset then .warning else signal.severity }

def validateSignal (signal : Signal) : Except Error Signal :=
  let filled := signal.withDefaults
  if validObservation signal.observation && filled.source.length ≤ 96 &&
      filled.externalAlertID.length ≤ 128 && !blank filled.source &&
      Strings.trimSpace filled.externalAlertID = filled.externalAlertID &&
      (filled.severity = .info || filled.severity = .warning || filled.severity = .critical) then
    .ok filled
  else .error errInvalidSignal

def phaseMatchesIncident : Phase → Incident → Bool
  | .candidate, incident => incident.state = .opened
  | .confirmed, incident => incident.state = .analyzing
  | .recovering, incident => incident.state = .recovering || incident.state = .stabilizing
  | .terminal, incident => incident.state = .closed || incident.state = .failed
  | .other .., _ => false

def validInputs (inputs : List Bytes) : Bool :=
  inputs.all (fun input => input ≠ [] && input.length ≤ 256) && inputs.Nodup

def validateRecord (record : PersistedIncident) : Except Error Unit :=
  if record.schemaVersion = schemaVersionV1 && record.phase.valid &&
      0 < (elems record.seenInputs).length && (elems record.seenInputs).length ≤ maxSeenInputs &&
      record.incident.validate.isOk && record.incident.dedupeKey ≠ [] &&
      phaseMatchesIncident record.phase record.incident &&
        validInputs (elems record.seenInputs) then
    .ok ()
  else .error errCorruptIncident

def decodeRecord (document : Bytes) : Except Error PersistedIncident :=
  match decode PersistedIncident.codec
    ⟨maxRecordBytes, schemaVersionV1, validateRecord⟩ document with
  | .ok record => .ok record
  | .error _ => .error errCorruptIncident

/-! ## Keys -/

def windowStart (c : Correlator) (observedAt : Time) : Time := observedAt.truncate c.dedupeWindow

def dedupeKey (c : Correlator) (o : HealthObservation) : Bytes :=
  o.targetID ++ lit "/" ++ o.ruleID ++ lit "/" ++
    Decimal.formatInt (c.windowStart o.observedAt).unixNano.toInt

def signalInputKey (signal : Signal) : Bytes :=
  let identity := if signal.externalAlertID = [] then signal.observation.observationID
    else signal.source ++ [0] ++ signal.externalAlertID
  lit "input:" ++ Hex.encode (Sha256.sum256 identity)

/-! ## Transitions -/

def severityRank : Severity → Nat
  | .critical => 3
  | .warning => 2
  | .info => 1
  | .other .. => 0

def severityHigher (candidate current : Severity) : Bool :=
  severityRank current < severityRank candidate

/-- A record moved to another phase and state, with a terminal time where it ends. -/
def PersistedIncident.moved (record : PersistedIncident) (phase : Phase) (state : IncidentState)
    (terminalAt : Time) : PersistedIncident :=
  { record with
    phase := phase
    incident := { record.incident with state := state, terminalAt := terminalAt } }

def advanceUnhealthy (record : PersistedIncident) (observedAt : Time) : PersistedIncident :=
  match record.phase with
  | .candidate => record.moved .confirmed .analyzing record.incident.terminalAt
  | .recovering => record.moved .terminal .failed observedAt
  | _ => record

def advanceHealthy (record : PersistedIncident) (observedAt : Time) : PersistedIncident :=
  match record.phase with
  | .candidate => record.moved .terminal .closed observedAt
  | .confirmed => record.moved .recovering .recovering record.incident.terminalAt
  | .recovering =>
    if record.incident.state = .recovering then
      record.moved .recovering .stabilizing record.incident.terminalAt
    else record.moved .terminal .closed observedAt
  | _ => record

def raised (record : PersistedIncident) (severity : Severity) : PersistedIncident :=
  if severityHigher severity record.incident.severity then
    { record with incident := { record.incident with severity := severity } }
  else record

def advance (record : PersistedIncident) (signal : Signal) : PersistedIncident :=
  if record.phase = .terminal then record
  else if signal.observation.normalizedState = .unhealthy then
    advanceUnhealthy (raised record signal.severity) signal.observation.observedAt
  else advanceHealthy (raised record signal.severity) signal.observation.observedAt

/-- Drops the oldest inputs beyond the limit. -/
def appendBounded (inputs : List Bytes) (input : Bytes) : List Bytes :=
  (inputs ++ [input]).drop ((inputs ++ [input]).length - maxSeenInputs)

/-- What `updateRecord` stores for an input it has not seen. -/
def applied (record : PersistedIncident) (inputKey : Bytes) (signal : Signal) : PersistedIncident :=
  advance
    { record with seenInputs := some (appendBounded (elems record.seenInputs) inputKey) } signal

def newCandidate (signal : Signal) (dedupeKey inputKey incidentID : Bytes) : PersistedIncident where
  schemaVersion := schemaVersionV1
  phase := .candidate
  incident :=
    { schemaVersion := schemaVersionV1
      incidentID := incidentID
      dedupeKey := dedupeKey
      targetID := signal.observation.targetID
      ruleIDs := some [signal.observation.ruleID]
      state := .opened
      severity := signal.severity
      openedAt := signal.observation.observedAt }
  seenInputs := some [inputKey]

/-! ## Transactions -/

def putRecord (key : Bytes) (record : PersistedIncident) : Tx Unit := do
  Tx.liftExcept (validateRecord record)
  let document ← Tx.liftExcept (encode PersistedIncident.codec "encode incident record: " record)
  Tx.put .incidents key document

def PersistedIncident.result (record : PersistedIncident) (duplicate : Bool) : Result where
  incident := record.incident
  phase := record.phase
  duplicate := duplicate

def updateRecord (key : Bytes) (record : PersistedIncident) (inputKey : Bytes) (signal : Signal) :
    Tx Result := do
  if (elems record.seenInputs).contains inputKey then pure (record.result true)
  else
    let next := applied record inputKey signal
    putRecord key next
    pure (next.result false)

def matchesActiveRecord (record : PersistedIncident) (o : HealthObservation) : Bool :=
  record.phase ≠ .terminal && record.incident.targetID = o.targetID &&
    elems record.incident.ruleIDs = [o.ruleID] && record.incident.openedAt ≤ o.observedAt

/-- One entry of the scan for the latest active incident; of two opened at the same time the
first in key order stays. -/
def scanActive (o : HealthObservation) (latest : Option (Bytes × PersistedIncident))
    (key document : Bytes) : Except Error (Option (Bytes × PersistedIncident)) :=
  match decodeRecord document with
  | .error e => .error e
  | .ok record =>
    if !matchesActiveRecord record o then .ok latest
    else
      match latest with
      | none => .ok (some (key, record))
      | some (_, found) =>
        if found.incident.openedAt < record.incident.openedAt then .ok (some (key, record))
        else .ok latest

def findActiveRecord (o : HealthObservation) : Tx (Option (Bytes × PersistedIncident)) :=
  Tx.forEach .incidents none (scanActive o)

def incidentID (newID : Except Error Bytes) : Except Error Bytes := do
  let id ← newID
  if blank id then .error errInvalidOptions else .ok id

/-- The transaction of `Ingest` on a validated signal; `newID` is what the generator would
answer. -/
def ingestTx (c : Correlator) (newID : Except Error Bytes) (signal : Signal) : Tx Result := do
  let key := c.dedupeKey signal.observation
  let inputKey := signalInputKey signal
  match ← Tx.get .incidents key with
  | some document =>
    let record ← Tx.liftExcept (decodeRecord document)
    updateRecord key record inputKey signal
  | none =>
    if signal.observation.normalizedState = .healthy then
      match ← findActiveRecord signal.observation with
      | none => pure { ignored := true }
      | some (activeKey, record) => updateRecord activeKey record inputKey signal
    else
      let id ← Tx.liftExcept (incidentID newID)
      let record := newCandidate signal key inputKey id
      putRecord key record
      pure (record.result false)

/-- What one call of `Ingest` depends on besides the store. -/
structure Call where
  correlator : Correlator
  signal : Signal
  newID : Except Error Bytes
  /-- A fault of the store, which keeps the transaction from committing. -/
  fault : Option Error := none

def ingest (call : Call) (s : Store) : Except Error Result × Store :=
  match validateSignal call.signal with
  | .error e => (.error e, s)
  | .ok signal =>
    match call.fault, ingestTx call.correlator call.newID signal s with
    | none, .ok (result, s') => (.ok result, s')
    | none, .error e | some e, _ => (.error e, s)

end Correlator
end PulseAgent
