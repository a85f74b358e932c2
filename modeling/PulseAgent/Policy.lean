import PulseAgent.Contract.Types

/-!
# Recovery authorization

`evaluate` decides one requested recovery action from a snapshot of the registered runbooks and
the facts of the moment.
-/

namespace PulseAgent.Policy

open Go Contract

/-- `unset` is the empty verdict of a zero decision. -/
inductive Verdict where
  | unset
  | allow
  | awaitApproval
  | deny
deriving DecidableEq

def ReasonCode.names : List Bytes :=
  [[], lit "allowed", lit "approval_required", lit "unregistered_runbook", lit "forged_digest",
    lit "target_mismatch", lit "action_invalid", lit "analysis_unavailable",
    lit "analysis_runbook_mismatch", lit "precondition_failed", lit "cooldown_active",
    lit "retry_exhausted", lit "stabilization_invalid", lit "approval_expired",
    lit "approval_revoked", lit "approval_denied", lit "invalid_policy"]

inductive ReasonCode where
  | unset
  | allowed
  | approvalRequired
  | unregisteredRunbook
  | forgedDigest
  | targetMismatch
  | actionInvalid
  | analysisUnavailable
  | analysisMismatch
  | preconditionFailed
  | cooldownActive
  | retryExhausted
  | stabilizationInvalid
  | approvalExpired
  | approvalRevoked
  | approvalDenied
  | invalidPolicy
  | other (text : Bytes) (unnamed : text ∉ ReasonCode.names)
deriving DecidableEq

namespace ReasonCode

def text : ReasonCode → Bytes
  | unset => []
  | allowed => lit "allowed"
  | approvalRequired => lit "approval_required"
  | unregisteredRunbook => lit "unregistered_runbook"
  | forgedDigest => lit "forged_digest"
  | targetMismatch => lit "target_mismatch"
  | actionInvalid => lit "action_invalid"
  | analysisUnavailable => lit "analysis_unavailable"
  | analysisMismatch => lit "analysis_runbook_mismatch"
  | preconditionFailed => lit "precondition_failed"
  | cooldownActive => lit "cooldown_active"
  | retryExhausted => lit "retry_exhausted"
  | stabilizationInvalid => lit "stabilization_invalid"
  | approvalExpired => lit "approval_expired"
  | approvalRevoked => lit "approval_revoked"
  | approvalDenied => lit "approval_denied"
  | invalidPolicy => lit "invalid_policy"
  | other s _ => s

def ofText : Bytes → ReasonCode :=
  ofTable [(unset.text, unset), (allowed.text, allowed),
    (approvalRequired.text, approvalRequired), (unregisteredRunbook.text, unregisteredRunbook),
    (forgedDigest.text, forgedDigest), (targetMismatch.text, targetMismatch),
    (actionInvalid.text, actionInvalid), (analysisUnavailable.text, analysisUnavailable),
    (analysisMismatch.text, analysisMismatch), (preconditionFailed.text, preconditionFailed),
    (cooldownActive.text, cooldownActive), (retryExhausted.text, retryExhausted),
    (stabilizationInvalid.text, stabilizationInvalid), (approvalExpired.text, approvalExpired),
    (approvalRevoked.text, approvalRevoked), (approvalDenied.text, approvalDenied),
    (invalidPolicy.text, invalidPolicy)]
    fun s h => other s h

end ReasonCode

structure RegisteredRunbook where
  runbook : Runbook := {}
  targetID : Bytes := []
  analysisRequired : Bool := false

structure Snapshot where
  runbooks : List RegisteredRunbook := []
  authorizedApprovers : List Bytes := []

structure Input where
  runbookID : Bytes := []
  runbookDigest : Bytes := []
  targetID : Bytes := []
  actionIndex : Int64 := 0
  commandID : Bytes := []
  analysisAvailable : Bool := false
  analysisCandidateIDs : List Bytes := []
  analysisConfidence : List ConfidenceLabel := []
  notificationSuggestion : NotificationRecommendation := .unset
  preconditions : Bytes → Bool := fun _ => false
  lastAttemptAt : Time := 0
  now : Time := 0
  attemptCount : Int64 := 0
  approval : Option Approval := none
  approvalRevoked : Bool := false

structure Decision where
  verdict : Verdict := .unset
  reasonCode : ReasonCode := .unset
deriving DecidableEq

def deny (reason : ReasonCode) : Decision := ⟨.deny, reason⟩

def bytesLE (a b : Bytes) : Bool := (compare a b).isLE

/-- A search in the sorted copy of `values` for the first entry not below `want`. -/
def contains (values : List Bytes) (want : Bytes) : Bool :=
  (values.mergeSort bytesLE).find? (bytesLE want) = some want

def uniqueNonEmpty (values : List Bytes) : Bool := values.all (· ≠ []) && values.Nodup

def validTypedAction (action : TypedAction) : Bool :=
  (action.actionType = .dockerContainerRestart ||
    action.actionType = .dockerComposeServiceRestart) &&
  action.targetSelector ≠ [] && 0 < action.stopTimeout && 0 ≤ action.cooldown

def validRegistration (registered : RegisteredRunbook) : Bool :=
  let runbook := registered.runbook
  registered.targetID ≠ [] && runbook.schemaVersion = schemaVersionV1 && runbook.runbookID ≠ [] &&
    runbook.digest ≠ [] && (elems runbook.typedActions).length ≠ 0 &&
    1 ≤ runbook.retryPolicy.maxAttempts &&
    (runbook.riskTier = .low || runbook.riskTier = .medium || runbook.riskTier = .high) &&
    (elems runbook.typedActions).all validTypedAction

def validSnapshot (snapshot : Snapshot) : Bool :=
  snapshot.runbooks.length ≠ 0 && snapshot.runbooks.all validRegistration &&
    (snapshot.runbooks.map fun registered => registered.runbook.runbookID).Nodup &&
    uniqueNonEmpty snapshot.authorizedApprovers

def registeredRunbook (snapshot : Snapshot) (input : Input) : Except ReasonCode RegisteredRunbook :=
  if !validSnapshot snapshot || input.runbookID = [] || input.runbookDigest = [] ||
      input.targetID = [] || input.commandID = [] then .error .invalidPolicy
  else
    match snapshot.runbooks.find? fun registered =>
      registered.runbook.runbookID == input.runbookID with
    | some registered => .ok registered
    | none => .error .unregisteredRunbook

def preconditionsMet (required : List Bytes) (observed : Bytes → Bool) : Bool :=
  uniqueNonEmpty required && required.all observed

def cooldownElapsed (cooldown : Duration) (previous now : Time) : Bool :=
  if cooldown < 0 || previous.isZero then 0 ≤ cooldown
  else !now.isZero && !(now < previous) && cooldown ≤ now.sub previous

/-- The zero decision when no approval was supplied. -/
def approval (authorized : List Bytes) (input : Input) : Decision :=
  match input.approval with
  | none => {}
  | some approval =>
    if input.approvalRevoked || !contains authorized approval.approverIdentity then
      deny .approvalRevoked
    else if approval.decision = .denied then deny .approvalDenied
    else if approval.schemaVersion ≠ schemaVersionV1 || approval.approvalID = [] ||
        approval.decision ≠ .granted || approval.commandID ≠ input.commandID ||
        approval.createdAt.isZero || approval.expiresAt.isZero ||
        !(approval.createdAt < approval.expiresAt) || input.now.isZero ||
        !(input.now < approval.expiresAt) then deny .approvalExpired
    else ⟨.allow, .allowed⟩

def needsApproval (runbook : Runbook) : Bool :=
  runbook.riskTier ≠ .low || runbook.approvalPolicy.required || !runbook.autoExecute

def evaluate (snapshot : Snapshot) (input : Input) : Decision :=
  match registeredRunbook snapshot input with
  | .error reason => deny reason
  | .ok registered =>
    let runbook := registered.runbook
    if input.runbookDigest ≠ runbook.digest then deny .forgedDigest
    else if input.targetID ≠ registered.targetID then deny .targetMismatch
    else if input.actionIndex < 0 then deny .actionInvalid
    else
      match (elems runbook.typedActions)[input.actionIndex.toInt.toNat]? with
      | none => deny .actionInvalid
      | some action =>
        if registered.analysisRequired && !input.analysisAvailable then deny .analysisUnavailable
        else if registered.analysisRequired &&
            !contains input.analysisCandidateIDs runbook.runbookID then deny .analysisMismatch
        else if !preconditionsMet (elems runbook.preconditions) input.preconditions then
          deny .preconditionFailed
        else if !cooldownElapsed action.cooldown input.lastAttemptAt input.now then
          deny .cooldownActive
        else if input.attemptCount < 0 || runbook.retryPolicy.maxAttempts ≤ input.attemptCount then
          deny .retryExhausted
        else if runbook.stabilizationPolicy.recoverySamples < 1 ||
            runbook.stabilizationPolicy.window ≤ 0 then deny .stabilizationInvalid
        else
          let approvalDecision := approval snapshot.authorizedApprovers input
          if approvalDecision.reasonCode ≠ .unset then approvalDecision
          else if needsApproval runbook then ⟨.awaitApproval, .approvalRequired⟩
          else ⟨.allow, .allowed⟩

/-! ## The search is membership -/

theorem pairwise_mergeSort_bytesLE (values : List Bytes) :
    (values.mergeSort bytesLE).Pairwise fun a b => bytesLE a b = true := by
  apply List.pairwise_mergeSort
  · intro a b c hab hbc
    exact Std.TransCmp.isLE_trans hab hbc
  · intro a b
    have hswap : compare b a = (compare a b).swap := Std.OrientedCmp.eq_swap
    rw [bytesLE, bytesLE, hswap]
    cases compare a b <;> rfl

theorem contains_iff {values : List Bytes} {want : Bytes} :
    contains values want = true ↔ want ∈ values := by
  unfold contains
  rw [decide_eq_true_iff]
  constructor
  · intro h
    exact List.mem_mergeSort.mp (List.mem_of_find?_eq_some h)
  · intro hmem
    have hself : bytesLE want want = true := Std.ReflCmp.isLE_rfl
    have hin : want ∈ values.mergeSort bytesLE := List.mem_mergeSort.mpr hmem
    obtain ⟨v, hv⟩ := Option.isSome_iff_exists.mp (List.find?_isSome.mpr ⟨want, hin, hself⟩)
    obtain ⟨hle, before, after, hsplit, hbefore⟩ := List.find?_eq_some_iff_append.mp hv
    have hsorted := pairwise_mergeSort_bytesLE values
    rw [hsplit] at hsorted hin
    rw [hv]
    rcases List.mem_append.mp hin with h | h
    · have hno := hbefore want h
      rw [hself] at hno
      cases hno
    · rcases List.mem_cons.mp h with rfl | h
      · rfl
      · have hge := (List.pairwise_cons.mp (List.pairwise_append.mp hsorted).2.1).1 want h
        rw [Std.LawfulEqCmp.eq_of_compare (Std.OrientedCmp.isLE_antisymm hge hle)]

end PulseAgent.Policy
