import PulseAgent.Policy
import PulseAgent.Recovery.Record
import PulseAgent.Store

/-!
# Stabilization results

One result for each command and attempt, stored under a digest of both. The transactions of the
verifier load it and store it back.
-/

namespace PulseAgent.Stabilization

open Go Go.Json Contract Policy

def maxRecoverySamples : Int64 := 256
def maxStabilizationDocSize : Nat := 64 * 1024
def stabilizationKeyPrefix : Bytes := lit "stabilization/"

def errInvalidOptions : Error := .new "invalid stabilization verifier options"
def errInvalidRequest : Error := .new "invalid stabilization request"
def errCorruptResult : Error := .new "corrupt stabilization result"

def Outcome.names : List Bytes :=
  [lit "pending", lit "succeeded", lit "retry_scheduled", lit "failed"]

inductive Outcome where
  | pending
  | succeeded
  | retryScheduled
  | failed
  | other (text : Bytes) (unnamed : text ∉ Outcome.names)
deriving DecidableEq

namespace Outcome

def unset : Outcome := other [] (by decide)

def text : Outcome → Bytes
  | pending => lit "pending"
  | succeeded => lit "succeeded"
  | retryScheduled => lit "retry_scheduled"
  | failed => lit "failed"
  | other s _ => s

def ofText : Bytes → Outcome :=
  ofTable [(pending.text, pending), (succeeded.text, succeeded),
    (retryScheduled.text, retryScheduled), (failed.text, failed)] fun s h => other s h

def codec : Codec Outcome := .named text ofText

end Outcome

def FailureReason.names : List Bytes :=
  [[], lit "unhealthy", lit "flapping", lit "timeout", lit "metric_regression",
    lit "docker_unavailable", lit "probe_failed"]

inductive FailureReason where
  | none
  | unhealthy
  | flapping
  | timeout
  | metricRegression
  | dockerUnavailable
  | probe
  | other (text : Bytes) (unnamed : text ∉ FailureReason.names)
deriving DecidableEq

namespace FailureReason

def text : FailureReason → Bytes
  | none => []
  | unhealthy => lit "unhealthy"
  | flapping => lit "flapping"
  | timeout => lit "timeout"
  | metricRegression => lit "metric_regression"
  | dockerUnavailable => lit "docker_unavailable"
  | probe => lit "probe_failed"
  | other s _ => s

def ofText : Bytes → FailureReason :=
  ofTable [(none.text, none), (unhealthy.text, unhealthy), (flapping.text, flapping),
    (timeout.text, timeout), (metricRegression.text, metricRegression),
    (dockerUnavailable.text, dockerUnavailable), (probe.text, probe)] fun s h => other s h

def codec : Codec FailureReason := .named text ofText

/-- `validFailureReason`. -/
def valid : FailureReason → Bool
  | other .. => false
  | _ => true

end FailureReason

def reasonCodec : Codec ReasonCode := .named ReasonCode.text ReasonCode.ofText

structure ResultRecord where
  schemaVersion : Bytes := []
  commandID : Bytes := []
  executionSucceeded : Bool := false
  attempt : Int64 := 0
  startedAt : Time := 0
  healthySamples : Int64 := 0
  outcome : Outcome := .unset
  failureReason : FailureReason := .none
  retryReason : ReasonCode := .unset
  nextAttempt : Int64 := 0
deriving DecidableEq

namespace ResultRecord

def fields : List (Member ResultRecord) :=
  [.of (lit "schema_version") .string (·.schemaVersion) fun x s => { s with schemaVersion := x },
   .of (lit "command_id") .string (·.commandID) fun x s => { s with commandID := x },
   .of (lit "execution_succeeded") .bool (·.executionSucceeded)
     fun x s => { s with executionSucceeded := x },
   .of (lit "attempt") .int64 (·.attempt) fun x s => { s with attempt := x },
   .of (lit "started_at") .time (·.startedAt) fun x s => { s with startedAt := x },
   .of (lit "healthy_samples") .int64 (·.healthySamples) fun x s => { s with healthySamples := x },
   .of (lit "outcome") Outcome.codec (·.outcome) fun x s => { s with outcome := x },
   .omitEmpty (lit "failure_reason") FailureReason.codec (·.failureReason)
     (fun x s => { s with failureReason := x }) (· = .none)
     (fun _ h => by rw [of_decide_eq_true h]; rfl) (fun _ => rfl),
   .omitEmpty (lit "retry_reason") reasonCodec (·.retryReason)
     (fun x s => { s with retryReason := x }) (· = .unset)
     (fun _ h => by rw [of_decide_eq_true h]; rfl) (fun _ => rfl),
   .of (lit "next_attempt") .int64 (·.nextAttempt) fun x s => { s with nextAttempt := x }]

def codec : Codec ResultRecord :=
  .struct fields {} (by decide +kernel) (by decide +kernel) fun _ => by
    repeat' constructor

def document : Document ResultRecord where
  codec := codec
  version := ResultRecord.schemaVersion
  header := header_of_members (by decide +kernel)

end ResultRecord

/-- The outcome agrees with the failure, the retry and the next attempt. -/
def validOutcome (record : ResultRecord) : Bool :=
  match record.outcome with
  | .pending | .succeeded =>
    record.failureReason = .none && record.retryReason = .unset && record.nextAttempt = -1
  | .retryScheduled =>
    record.failureReason.valid && record.failureReason ≠ .none && record.retryReason = .allowed &&
      record.nextAttempt = record.attempt + 1
  | .failed =>
    record.failureReason.valid && record.failureReason ≠ .none && record.nextAttempt = -1
  | .other .. => false

def validateRecord (record : ResultRecord) : Except Error Unit :=
  if record.schemaVersion = schemaVersionV1 && record.commandID ≠ [] &&
      record.executionSucceeded && 0 ≤ record.attempt && !record.startedAt.isZero &&
      0 ≤ record.healthySamples && record.healthySamples ≤ maxRecoverySamples &&
      -1 ≤ record.nextAttempt && validOutcome record then .ok ()
  else .error errCorruptResult

def resultKey (commandID : Bytes) (attempt : Int64) : Bytes :=
  stabilizationKeyPrefix ++
    Hex.encode (Sha256.sum256 (commandID ++ [0] ++ Decimal.formatInt attempt.toInt))

/-! ## Transactions -/

def loadResult (commandID : Bytes) (attempt : Int64) : Tx (Option ResultRecord) := do
  match ← Tx.get .stabilizationResults (resultKey commandID attempt) with
  | none => pure none
  | some document =>
    match decode ResultRecord.codec ⟨maxStabilizationDocSize, schemaVersionV1, validateRecord⟩
        document with
    | .ok record => pure (some record)
    | .error _ => throw errCorruptResult

def putResult (commandID : Bytes) (attempt : Int64) (document : Bytes) : Tx Unit :=
  Tx.put .stabilizationResults (resultKey commandID attempt) document

theorem loadResult_ok {commandID : Bytes} {attempt : Int64} {s s' : Store}
    {found : Option ResultRecord} (h : loadResult commandID attempt s = .ok (found, s')) :
    s' = s := by
  unfold loadResult at h
  obtain ⟨-, h⟩ := Tx.bind_get_ok.mp h
  cases hdocument : (s .stabilizationResults)[resultKey commandID attempt]? with
  | none =>
    rw [hdocument] at h
    cases h
    rfl
  | some document =>
    rw [hdocument] at h
    dsimp only at h
    cases hdecode : decode ResultRecord.codec ⟨maxStabilizationDocSize, schemaVersionV1,
        validateRecord⟩ document with
    | ok record =>
      rw [hdecode] at h
      cases h
      rfl
    | error e =>
      rw [hdecode] at h
      cases h

end PulseAgent.Stabilization
