import Mathlib
import PulseAgent.Audit.Registration
import PulseAgent.Policy

/-!
# The target registry

`register` writes the target and its audit event in one transaction and then replaces the snapshot;
`newRegistry` builds the snapshot from the store.
-/

namespace PulseAgent.Target

open Go Go.Json Contract Audit

def maxTargets : Int64 := 10000
def maxTargetIDBytes : Nat := 96
def maxProbeRules : Nat := 64
def maxDuration : Duration := 24 * 3600 * 1000000000
def maxSamples : Int64 := 100

def errInvalidOptions : Error := .new "invalid target registry options"
def errInvalidTarget : Error := .new "invalid service target"
def errUnknownAdapter : Error := .new "unknown target adapter"
def errTargetNotAllowed : Error := .new "target is not allowed"
def errDuplicateTarget : Error := .new "duplicate service target"
def errTargetLimit : Error := .new "service target limit reached"

structure AllowedTarget where
  targetID : Bytes
  adapterType : Bytes

structure Options where
  allowedTargets : List AllowedTarget
  maxTargets : Int64
  maxEvidenceBytes : Int64

structure Registration where
  target : ServiceTarget
  actorIdentity : Bytes
  requestID : Bytes
  reasonCode : Bytes

structure Snapshot where
  schemaVersion : Bytes := []
  version : UInt64 := 0
  targets : List ServiceTarget := []
deriving DecidableEq

structure RegistrationResult where
  schemaVersion : Bytes := []
  version : UInt64 := 0
  targetID : Bytes := []
deriving DecidableEq

/-- `allowedTargets` lists the adapter of every allowed target. -/
structure Registry where
  allowedTargets : List (Bytes × Bytes)
  maxTargets : Int64
  maxEvidenceBytes : Int64
  snapshot : Snapshot

structure PersistedTarget where
  schemaVersion : Bytes := []
  version : UInt64 := 0
  target : ServiceTarget := {}
deriving DecidableEq

def PersistedTarget.fields : List (Member PersistedTarget) :=
  [.of (lit "schema_version") .string (·.schemaVersion) fun x s => { s with schemaVersion := x },
   .of (lit "version") .uint64 (·.version) fun x s => { s with version := x },
   .of (lit "target") ServiceTarget.codec (·.target) fun x s => { s with target := x }]

def PersistedTarget.codec : Codec PersistedTarget :=
  .struct PersistedTarget.fields {} (by decide +kernel) (by decide +kernel) fun _ => by
    repeat' constructor

/-! ## Checks -/

def alphanumeric (b : UInt8) : Bool :=
  (65 ≤ b && b ≤ 90) || (97 ≤ b && b ≤ 122) || (48 ≤ b && b ≤ 57)

def identifierByte (b : UInt8) : Bool := alphanumeric b || b = 46 || b = 95 || b = 45

/-- The pattern `[A-Za-z0-9][A-Za-z0-9._-]{0,95}` over the whole text. -/
def matchesIdentifier : Bytes → Bool
  | [] => false
  | b :: rest => alphanumeric b && rest.length ≤ 95 && rest.all identifierByte

/-- The pattern `(container|compose_service):[A-Za-z0-9][A-Za-z0-9._-]{0,95}` over the whole
text. -/
def matchesSelector (value : Bytes) : Bool :=
  [lit "container:", lit "compose_service:"].any fun kind =>
    kind.isPrefixOf value && matchesIdentifier (value.drop kind.length)

def validIdentifier (value : Bytes) : Bool :=
  value.length ≤ maxTargetIDBytes && matchesIdentifier value && !decide (lit ".." <:+: value)

def validateProbeRule (rule : ProbeRule) : Except Error Unit :=
  if !validIdentifier rule.ruleID ||
      (rule.signalType ≠ lit "availability" && rule.signalType ≠ lit "error_rate" &&
        rule.signalType ≠ lit "latency_ms") ||
      rule.interval < 1000000000 || rule.interval > 3600 * 1000000000 ||
      rule.timeout < 1000000 || rule.timeout > rule.interval ||
      !rule.threshold.isFinite || !Float64.zero.lt rule.threshold ||
      Float64.lt (.finite (Dec.normalize false 1000000 0)) rule.threshold ||
      rule.consecutiveFailures < 1 || rule.consecutiveFailures > maxSamples ||
      rule.recoverySamples < 1 || rule.recoverySamples > maxSamples ||
      rule.sloWindow < rule.interval || rule.sloWindow > maxDuration then .error errInvalidTarget
  else if rule.severity ≠ .info && rule.severity ≠ .warning && rule.severity ≠ .critical then
    .error errInvalidTarget
  else .ok ()

/-- The loop over the rules, with the identifiers it has seen. -/
def validateProbeRules (seen : List Bytes) : List ProbeRule → Except Error Unit
  | [] => .ok ()
  | rule :: rules => do
    validateProbeRule rule
    if rule.ruleID ∈ seen then .error errInvalidTarget
    else validateProbeRules (rule.ruleID :: seen) rules

def Registry.validateTarget (r : Registry) (candidate : ServiceTarget) : Except Error Unit :=
  if candidate.schemaVersion ≠ schemaVersionV1 || !validIdentifier candidate.targetID then
    .error errInvalidTarget
  else
    match r.allowedTargets.lookup candidate.targetID with
    | none => .error errTargetNotAllowed
    | some allowedAdapter =>
      if candidate.adapterType ≠ allowedAdapter || candidate.adapterType ≠ lit "docker" then
        .error errUnknownAdapter
      else if !matchesSelector candidate.selector || decide (lit ".." <:+: candidate.selector) then
        .error errInvalidTarget
      else if (elems candidate.probeRules).length = 0 ||
          maxProbeRules < (elems candidate.probeRules).length then .error errInvalidTarget
      else do
        validateProbeRules [] (elems candidate.probeRules)
        if (candidate.evidencePolicy.redactionProfile ≠ lit "default" &&
              candidate.evidencePolicy.redactionProfile ≠ lit "strict") ||
            candidate.evidencePolicy.maxBytes < 1 ||
            candidate.evidencePolicy.maxBytes > r.maxEvidenceBytes then .error errInvalidTarget
        else if candidate.stabilizationPolicy.recoverySamples < 1 ||
            candidate.stabilizationPolicy.recoverySamples > maxSamples ||
            candidate.stabilizationPolicy.window < 1000000000 ||
            candidate.stabilizationPolicy.window > maxDuration then .error errInvalidTarget
        else .ok ()

def allowedTargetMap (allowed : List (Bytes × Bytes)) :
    List AllowedTarget → Except Error (List (Bytes × Bytes))
  | [] => .ok allowed
  | candidate :: targets =>
    if !validIdentifier candidate.targetID || candidate.adapterType ≠ lit "docker" then
      .error errInvalidOptions
    else if (allowed.lookup candidate.targetID).isSome then .error errInvalidOptions
    else allowedTargetMap ((candidate.targetID, candidate.adapterType) :: allowed) targets

def validAuditValue (value : Bytes) : Bool :=
  value ≠ [] && value.length ≤ 128 && (Utf8.runes value).all Audit.safeRune

def validRegistrationContext (registration : Registration) : Bool :=
  validAuditValue registration.actorIdentity && validAuditValue registration.requestID &&
    validAuditValue registration.reasonCode

def auditAggregateID (targetID : Bytes) : Bytes :=
  if validIdentifier targetID then targetID else lit "target-unknown"

/-! ## Documents -/

def decodePersistedTarget (document : Bytes) : Except Error PersistedTarget :=
  match decode PersistedTarget.codec ⟨maxDocumentBytes, schemaVersionV1, fun value =>
      if value.schemaVersion ≠ schemaVersionV1 || value.target.schemaVersion ≠ schemaVersionV1 then
        .error errInvalidTarget
      else .ok ()⟩ document with
  | .error _ => .error errInvalidTarget
  | .ok record => .ok record

/-- The copy of a slice through `append` to a nil one: an empty slice becomes nil. -/
def cloneTarget (candidate : ServiceTarget) : ServiceTarget :=
  { candidate with
    probeRules := if (elems candidate.probeRules).isEmpty then none else candidate.probeRules }

def sortTargets (targets : List ServiceTarget) : List ServiceTarget :=
  targets.mergeSort fun left right => Policy.bytesLE left.targetID right.targetID

/-! ## The registry -/

/-- The callback of `load` for one record. -/
def Registry.loadRecord (r : Registry) (loaded : Snapshot) (key document : Bytes) :
    Except Error Snapshot :=
  match decodePersistedTarget document with
  | .error _ => .error errInvalidTarget
  | .ok record =>
    if key ≠ record.target.targetID || record.version = 0 then .error errInvalidTarget
    else do
      r.validateTarget record.target
      return { loaded with
        targets := loaded.targets ++ [cloneTarget record.target]
        version := if record.version > loaded.version then record.version else loaded.version }

def emptySnapshot : Snapshot := ⟨schemaVersionV1, 0, []⟩

def Registry.load (r : Registry) (s : Store) : Except Error Registry := do
  let loaded ← Store.view (Tx.forEach .serviceTargets emptySnapshot r.loadRecord) s
  if r.maxTargets.toInt < loaded.targets.length then .error errTargetLimit
  else return { r with snapshot := { loaded with targets := sortTargets loaded.targets } }

def newRegistry (options : Options) (s : Store) : Except Error Registry :=
  match allowedTargetMap [] options.allowedTargets with
  | .error _ => .error errInvalidOptions
  | .ok allowedTargets =>
    if options.maxTargets < 1 || options.maxTargets > maxTargets ||
      options.maxEvidenceBytes < 1 then
      .error errInvalidOptions
    else Registry.load ⟨allowedTargets, options.maxTargets, options.maxEvidenceBytes,
      emptySnapshot⟩ s

def auditEvent (registration : Registration) (aggregateID result reason eventID : Bytes)
    (occurredAt : Time) : AuditEvent where
  schemaVersion := schemaVersionV1
  eventID := eventID
  aggregateType := lit "service_target"
  aggregateID := aggregateID
  actorIdentity := registration.actorIdentity
  action := lit "target.register"
  result := result
  reasonCode := reason
  occurredAt := occurredAt

def appendAudit (answers : Answers) (registration : Registration)
    (aggregateID result reason : Bytes) (change : Option Mutation) : Tx Unit :=
  answers.appendAudit errInvalidOptions (auditEvent registration aggregateID result reason) change

/-- What a registration ends with: a rejection and the reason in its audit event, or nothing. -/
def Registry.registerTx (r : Registry) (answers : Answers) (registration : Registration) :
    Tx (Option Error) := do
  let aggregateID := auditAggregateID registration.target.targetID
  let found ← Tx.get .serviceTargets registration.target.targetID
  if found.isSome then
    appendAudit answers registration aggregateID (lit "rejected") (lit "duplicate_target") none
    return some errDuplicateTarget
  else if r.maxTargets.toInt ≤ r.snapshot.targets.length then
    appendAudit answers registration aggregateID (lit "rejected") (lit "target_limit_reached") none
    return some errTargetLimit
  else
    let document ← Tx.liftExcept (encode PersistedTarget.codec ""
      ⟨schemaVersionV1, r.snapshot.version + 1, cloneTarget registration.target⟩)
    appendAudit answers registration aggregateID (lit "accepted") registration.reasonCode
      (some (.put .serviceTargets registration.target.targetID document .ret))
    return none

def Snapshot.add (snapshot : Snapshot) (target : ServiceTarget) : Snapshot where
  schemaVersion := schemaVersionV1
  version := snapshot.version + 1
  targets := sortTargets (snapshot.targets ++ [cloneTarget target])

/-- What `Register` returns, the registry and the store after it. -/
structure Registered where
  returned : Snapshot
  error : Option Error
  registry : Registry
  store : Store

def Registry.register (r : Registry) (answers : Answers) (registration : Registration)
    (s : Store) : Registered :=
  if !validRegistrationContext registration then ⟨{}, some errInvalidOptions, r, s⟩
  else
    match r.validateTarget registration.target with
    | .error err =>
      match answers.commit (appendAudit answers registration
          (auditAggregateID registration.target.targetID) (lit "rejected") (lit "invalid_target")
          none) s with
      | (.error auditErr, s) => ⟨r.snapshot, some auditErr, r, s⟩
      | (.ok _, s) => ⟨r.snapshot, some err, r, s⟩
    | .ok _ =>
      match answers.commit (r.registerTx answers registration) s with
      | (.error e, s) => ⟨r.snapshot, some e, r, s⟩
      | (.ok (some rejected), s) => ⟨r.snapshot, some rejected, r, s⟩
      | (.ok none, s) =>
        let snapshot := r.snapshot.add registration.target
        ⟨snapshot, none, { r with snapshot := snapshot }, s⟩

end PulseAgent.Target
