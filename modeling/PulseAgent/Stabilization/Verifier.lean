import PulseAgent.Recovery.Coordinator

/-!
# The stabilization verifier

The verifier's finalizer is the coordinator, its retries are decided by the recovery policy.
-/

namespace PulseAgent

open Go Contract Policy

def Docker.errUnavailable : Error := .new "docker engine unavailable"
def Docker.errTimeout : Error := .new "docker request timed out"
def contextDeadlineExceeded : Error := .new "context deadline exceeded"

namespace Stabilization

open Recovery (Prog call commit Sample ExecutionState completeCommand)

structure Request where
  command : RecoveryCommand
  target : ServiceTarget
  policy : StabilizationPolicy
  retryPolicy : RetryPolicy
  attempt : Int64

/-- A result has the fields of the stored record, without its schema version. -/
structure Result where
  commandID : Bytes := []
  executionSucceeded : Bool := false
  attempt : Int64 := 0
  startedAt : Time := 0
  healthySamples : Int64 := 0
  outcome : Outcome := .unset
  failureReason : FailureReason := .none
  retryReason : ReasonCode := .unset
  nextAttempt : Int64 := 0
deriving DecidableEq

def ResultRecord.result (r : ResultRecord) : Result where
  commandID := r.commandID
  executionSucceeded := r.executionSucceeded
  attempt := r.attempt
  startedAt := r.startedAt
  healthySamples := r.healthySamples
  outcome := r.outcome
  failureReason := r.failureReason
  retryReason := r.retryReason
  nextAttempt := r.nextAttempt

/-! ## Checks -/

def validateRequest (request : Request) : Except Error Unit :=
  if request.command.validate.isOk && request.command.state = .stabilizing &&
      request.target.schemaVersion = schemaVersionV1 && request.target.enabled &&
      request.target.targetID = request.command.targetID && 1 ≤ request.policy.recoverySamples &&
      request.policy.recoverySamples ≤ maxRecoverySamples && 0 < request.policy.window &&
      1 ≤ request.retryPolicy.maxAttempts && 0 ≤ request.attempt &&
      request.attempt < request.retryPolicy.maxAttempts then .ok ()
  else .error errInvalidRequest

def validSample (sample : Sample) : Bool := sample.metrics.toList.all fun entry => entry.2.isFinite

/-- Availability has a lower bound, every other signal an upper one. -/
def metricMeetsRule (metrics : Std.ExtTreeMap Bytes Float64) (rule : ProbeRule) : Bool :=
  match metrics[rule.signalType]? with
  | none => false
  | some value =>
    if rule.signalType = lit "availability" then !value.lt rule.threshold
    else !rule.threshold.lt value

def metricsMeetRules (metrics : Std.ExtTreeMap Bytes Float64) (rules : List ProbeRule) : Bool :=
  rules.all (metricMeetsRule metrics)

def probeFailureReason (err : Error) : FailureReason :=
  if err.is Docker.errUnavailable then .dockerUnavailable
  else if err.is Docker.errTimeout || err.is contextDeadlineExceeded then .timeout
  else .probe

def sameTarget (left right : ServiceTarget) : Bool :=
  left.schemaVersion = right.schemaVersion && left.targetID = right.targetID &&
    left.adapterType = right.adapterType && left.selector = right.selector &&
    left.enabled = right.enabled

def retryDecision (request : Request) (state : ExecutionState) (now : Time) : Decision :=
  let input := state.policyInput
  if input.runbookID ≠ request.command.runbookID || input.targetID ≠ request.command.targetID ||
      input.actionIndex ≠ request.command.actionIndex ||
      !sameTarget state.target request.target then ⟨.deny, .invalidPolicy⟩
  else
    evaluate state.policySnapshot
      { input with
        commandID := request.command.commandID
        runbookDigest := request.command.runbookDigest
        now := now
        attemptCount := if input.attemptCount < request.attempt + 1 then request.attempt + 1
          else input.attemptCount }

def newRecord (request : Request) (now : Time) : ResultRecord where
  schemaVersion := schemaVersionV1
  commandID := request.command.commandID
  executionSucceeded := true
  attempt := request.attempt
  startedAt := now
  outcome := .pending
  nextAttempt := -1

/-! ## Programs -/

def now : Prog (Except Error Time) := do
  let t ← call .clock
  pure (if Time.isZero t then .error errInvalidOptions else .ok t)

def load (commandID : Bytes) (attempt : Int64) : Prog (Except Error (Option ResultRecord)) := do
  match ← commit (.loadResult commandID attempt) with
  | .error e => pure (.error e)
  | .ok none => pure (.ok none)
  | .ok (some record) =>
    if record.commandID ≠ commandID ∨ record.attempt ≠ attempt then pure (.error errCorruptResult)
    else pure (.ok (some record))

def persist (record : ResultRecord) : Prog (Except Error Unit) :=
  match validateRecord record, encode ResultRecord.codec "encode stabilization result: " record with
  | .error _, _ => pure (.error errCorruptResult)
  | .ok _, .error e => pure (.error e)
  | .ok _, .ok document => commit (.putResult record.commandID record.attempt document)

def complete (commandID : Bytes) (succeeded : Bool) : Prog (Except Error Unit) := do
  match ← completeCommand commandID succeeded with
  | .ok _ => pure (.ok ())
  | .error e =>
    pure (.error (.wrap (if succeeded then "complete successful stabilization: "
      else "complete failed stabilization: ") e ""))

/-- Completes the command and only then stores the result. -/
def finish (record : ResultRecord) (succeeded : Bool) (err : Option Error) :
    Prog (Result × Option Error) := do
  match ← complete record.commandID succeeded with
  | .error e => pure ({}, some e)
  | .ok _ =>
    match ← persist record with
    | .error e => pure ({}, some e)
    | .ok _ => pure (record.result, err)

def fail (request : Request) (record : ResultRecord) (now : Time) (reason : FailureReason) :
    Prog (Result × Option Error) := do
  let record := { record with failureReason := reason, healthySamples := 0, nextAttempt := -1 }
  if request.attempt + 1 < request.retryPolicy.maxAttempts then
    match ← call (.loadRetryState request.command) with
    | .error e =>
      finish { record with outcome := .failed, retryReason := .invalidPolicy } false
        (some (.wrap "recheck stabilization retry: " (.wrap "load retry state: " e "") ""))
    | .ok state =>
      let decision := retryDecision request state now
      if decision.verdict = .allow then
        finish { record with
          retryReason := decision.reasonCode, outcome := .retryScheduled
          nextAttempt := request.attempt + 1 } false none
      else finish { record with retryReason := decision.reasonCode, outcome := .failed } false none
  else finish { record with outcome := .failed, retryReason := .retryExhausted } false none

/-- A healthy sample that meets the rules, at a time not after the deadline. -/
def succeedSample (request : Request) (record : ResultRecord) (now deadline : Time) :
    Prog (Result × Option Error) := do
  let record := { record with healthySamples := record.healthySamples + 1 }
  if request.policy.recoverySamples ≤ record.healthySamples ∧ ¬now < deadline then
    finish { record with outcome := .succeeded } true none
  else
    match ← persist record with
    | .error e => pure ({}, some e)
    | .ok _ => pure (record.result, none)

def observe (request : Request) (record : ResultRecord) (now deadline : Time) :
    Prog (Result × Option Error) := do
  match ← call (.observe request.target) with
  | .error e => fail request record now (probeFailureReason e)
  | .ok sample =>
    if !validSample sample then fail request record now .probe
    else if !sample.healthy then
      fail request record now (if 0 < record.healthySamples then .flapping else .unhealthy)
    else if !metricsMeetRules sample.metrics (elems request.target.probeRules) then
      fail request record now .metricRegression
    else succeedSample request record now deadline

def verify (request : Request) : Prog (Result × Option Error) := do
  match validateRequest request with
  | .error _ => pure ({}, some errInvalidRequest)
  | .ok _ =>
    match ← now with
    | .error e => pure ({}, some e)
    | .ok now =>
      match ← load request.command.commandID request.attempt with
      | .error e => pure ({}, some e)
      | .ok found =>
        let record := found.getD (newRecord request now)
        if record.outcome ≠ .pending then pure (record.result, none)
        else
          let deadline := record.startedAt.add request.policy.window
          if deadline < now then fail request record now .timeout
          else observe request record now deadline

end Stabilization
end PulseAgent
