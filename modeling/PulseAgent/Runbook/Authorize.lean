import PulseAgent.Policy.Specification
import PulseAgent.Runbook.Pair

/-!
# Accepted runbooks that can be authorized

The check of a decoded pair does not look at the stabilization policy or at the preconditions, which
every decision needs.
-/

namespace PulseAgent.Runbooks

open Go Contract Policy

def snapshotOf (runbook : Runbook) (analysisRequired : Bool) (targetID : Bytes)
    (authorizedApprovers : List Bytes) : Snapshot where
  runbooks := [⟨runbook, targetID, analysisRequired⟩]
  authorizedApprovers := authorizedApprovers

/-- The facts of the moment that speak for an action: the preconditions are observed, nothing was
tried before, the analysis names the runbook and the command is granted. -/
structure Favourable (authorizedApprovers : List Bytes) (runbook : Runbook) (input : Input) :
    Prop where
  preconditions : ∀ condition ∈ elems runbook.preconditions, input.preconditions condition = true
  lastAttemptAt : input.lastAttemptAt = 0
  attemptCount : input.attemptCount = 0
  available : input.analysisAvailable = true
  candidate : runbook.runbookID ∈ input.analysisCandidateIDs
  granted : ∃ a, input.approval = some a ∧ Approved authorizedApprovers input a

/-- What a decision asks of a runbook beyond its validation. -/
structure Verifiable (runbook : Runbook) : Prop where
  samples : 1 ≤ runbook.stabilizationPolicy.recoverySamples
  window : 0 < runbook.stabilizationPolicy.window
  preconditions : [] ∉ elems runbook.preconditions
  distinct : (elems runbook.preconditions).Nodup

theorem wellFormed_of_valid {runbook : Runbook} (h : Valid runbook) (hdigest : runbook.digest ≠ [])
    {targetID : Bytes} (htarget : targetID ≠ []) (analysisRequired : Bool) :
    WellFormed ⟨runbook, targetID, analysisRequired⟩ where
  targetID := htarget
  schemaVersion := h.schemaVersion
  runbookID := by
    intro hnil
    have hid : validCode runbook.runbookID = true := h.runbookID
    rw [show runbook.runbookID = [] from hnil] at hid
    exact absurd hid (by decide)
  digest := hdigest
  typedActions := h.nonempty
  maxAttempts := Int64.le_iff_toInt_le.mp h.minAttempts
  riskTier := h.riskTier
  actions := by
    intro action haction
    have hvalid := h.actions action haction
    simp only [validAction, Bool.and_eq_true, Bool.or_eq_true, decide_eq_true_eq,
      Int64.lt_iff_toInt_lt, Int64.le_iff_toInt_le] at hvalid
    obtain ⟨⟨⟨⟨htype, hselector⟩, -⟩, hstop⟩, hcooldown⟩ := hvalid
    refine ⟨htype, ?_, hstop, hcooldown⟩
    -- either accepted beginning of a selector is more than nothing
    rintro hnil
    rw [hnil] at hselector
    exact absurd hselector (by decide)

theorem valid_of_decode {markdown document : Bytes} {pair : Pair}
    (h : decode markdown document = .ok pair) : Valid pair.runbook ∧ pair.runbook.digest ≠ [] := by
  obtain ⟨-, -, runbook, hrunbook, -, hdigest, -, heq⟩ := decode_ok.mp h
  obtain ⟨-, -, v, -, -, -, -, hvalidate⟩ := Contract.decode_ok.mp hrunbook
  have hvalid := validateRunbook_ok.mp hvalidate
  rw [heq]
  -- the digest is no part of the validation
  exact ⟨⟨hvalid.schemaVersion, hvalid.runbookID, hvalid.version, hvalid.adapterType,
    hvalid.nonempty, hvalid.bounded, hvalid.riskTier, hvalid.minAttempts, hvalid.maxAttempts,
    hvalid.actions⟩, digest_ne_nil hdigest⟩

def favourableInput (runbook : Runbook) (index : Nat) : Input where
  runbookID := runbook.runbookID
  runbookDigest := runbook.digest
  targetID := lit "target"
  actionIndex := .ofInt index
  commandID := lit "command"
  analysisAvailable := true
  analysisCandidateIDs := [runbook.runbookID]
  preconditions := fun _ => true
  now := 2
  approval := some
    { schemaVersion := schemaVersionV1
      approvalID := lit "approval"
      commandID := lit "command"
      decision := .granted
      approverIdentity := lit "approver"
      createdAt := 1
      expiresAt := 3 }

theorem approved_favourableInput (runbook : Runbook) (index : Nat) :
    ∃ a, (favourableInput runbook index).approval = some a ∧
      Approved [lit "approver"] (favourableInput runbook index) a :=
  ⟨_, rfl, rfl, List.mem_singleton_self _, rfl, by decide, rfl, rfl, by decide, by decide,
    by decide, (by decide : (2 : Time) ≠ 0), (by decide : (2 : Time) < 3)⟩

theorem favourable_favourableInput (runbook : Runbook) (index : Nat) :
    Favourable [lit "approver"] runbook (favourableInput runbook index) where
  preconditions := fun _ _ => rfl
  lastAttemptAt := rfl
  attemptCount := rfl
  available := rfl
  candidate := List.mem_singleton_self _
  granted := approved_favourableInput runbook index

theorem eligible_favourableInput {runbook : Runbook} (hvalid : Valid runbook)
    (hdigest : runbook.digest ≠ []) (hverifiable : Verifiable runbook) (analysisRequired : Bool)
    {index : Nat} {action : TypedAction}
    (haction : (elems runbook.typedActions)[index]? = some action) :
    Eligible (snapshotOf runbook analysisRequired (lit "target") [lit "approver"])
      (favourableInput runbook index) ⟨runbook, lit "target", analysisRequired⟩ action := by
  have hwell := wellFormed_of_valid hvalid hdigest (by decide : lit "target" ≠ []) analysisRequired
  have hlt : index < (elems runbook.typedActions).length :=
    (List.getElem?_eq_some_iff.mp haction).1
  have hbound := hvalid.bounded
  have hindex : (favourableInput runbook index).actionIndex.toInt = index :=
    Int64.toInt_ofInt_of_le (by omega) (by omega)
  have hattempts := Int64.le_iff_toInt_le.mp hvalid.minAttempts
  exact
    { valid :=
        { runbooks := List.cons_ne_nil _ _
          wellFormed := fun registered hregistered => List.mem_singleton.mp hregistered ▸ hwell
          distinct := List.nodup_singleton _
          approvers := (by decide : [] ∉ [lit "approver"])
          distinctApprovers := List.nodup_singleton _ }
      runbookID := hwell.runbookID
      runbookDigest := hdigest
      targetID := (by decide : lit "target" ≠ [])
      commandID := (by decide : lit "command" ≠ [])
      mem := List.mem_singleton_self _
      named := rfl
      only := fun other hother _ => List.mem_singleton.mp hother
      digest := rfl
      target := rfl
      index := by
        rw [hindex]
        exact Int.natCast_nonneg index
      selected := by
        rw [hindex]
        exact haction
      analysis := fun _ => ⟨rfl, List.mem_singleton_self _⟩
      preconditions := hverifiable.preconditions
      distinct := hverifiable.distinct
      observed := fun _ _ => rfl
      rested := .inl rfl
      attempts := Int.le_refl 0
      remaining := Int.lt_of_lt_of_le (by decide : (0 : Int64).toInt < (1 : Int64).toInt) hattempts
      samples := Int64.le_iff_toInt_le.mp hverifiable.samples
      window := Int64.lt_iff_toInt_lt.mp hverifiable.window }

def Authorizable (runbook : Runbook) (analysisRequired : Bool) (index : Nat) : Prop :=
  ∃ (targetID : Bytes) (authorizedApprovers : List Bytes) (input : Input),
    input.actionIndex = .ofInt index ∧ Favourable authorizedApprovers runbook input ∧
      evaluate (snapshotOf runbook analysisRequired targetID authorizedApprovers) input =
        ⟨.allow, .allowed⟩

/-- An action of an accepted runbook can be authorized exactly if the runbook says how it is
verified and has distinct, nonempty preconditions. -/
theorem authorizable_iff (markdown document : Bytes) (pair : Pair)
    (h : decode markdown document = .ok pair) (analysisRequired : Bool) (index : Nat)
    (hindex : index < (elems pair.runbook.typedActions).length) :
    Authorizable pair.runbook analysisRequired index ↔ Verifiable pair.runbook := by
  obtain ⟨hvalid, hdigest⟩ := valid_of_decode h
  constructor
  · rintro ⟨targetID, authorizedApprovers, input, -, -, hallow⟩
    obtain ⟨registered, action, heligible⟩ := eligible_of_not_deny (by rw [hallow]; decide)
    have hregistered := List.mem_singleton.mp heligible.mem
    subst hregistered
    exact ⟨Int64.le_iff_toInt_le.mpr heligible.samples, Int64.lt_iff_toInt_lt.mpr heligible.window,
      heligible.preconditions, heligible.distinct⟩
  · intro hverifiable
    refine ⟨lit "target", [lit "approver"], favourableInput pair.runbook index, rfl,
      favourable_favourableInput _ _, ?_⟩
    have haction := List.getElem?_eq_getElem hindex
    rw [evaluate_of_eligible
      (eligible_favourableInput hvalid hdigest hverifiable analysisRequired haction)]
    exact outcome_iff.1.mpr (.inl (approved_favourableInput _ _))

def exampleRunbook (policy : StabilizationPolicy) : Runbook where
  schemaVersion := schemaVersionV1
  runbookID := lit "restart"
  version := lit "1"
  adapterType := lit "docker"
  typedActions := some [⟨.dockerContainerRestart, lit "container:web", 1000000000, 0⟩]
  riskTier := .low
  retryPolicy := ⟨1⟩
  stabilizationPolicy := policy

def exampleMarkdown : Bytes := lit "---\nrunbook_id: restart\nversion: 1\n---\n"

def exampleDocument (policy : StabilizationPolicy) : Bytes :=
  (Runbook.codec.marshal (exampleRunbook policy)).getD []

theorem decode_example {policy : StabilizationPolicy}
    (h : Contract.decode Runbook.codec decodeOptions (exampleDocument policy) =
      .ok (exampleRunbook policy))
    (hempty : (exampleDocument policy).length ≠ 0)
    (hsize : (exampleDocument policy).length ≤ maxDocumentBytes) :
    ∃ d, decode exampleMarkdown (exampleDocument policy) =
      .ok ⟨{ exampleRunbook policy with digest := d }, d⟩ := by
  obtain ⟨d, hd⟩ := exists_digest (exampleRunbook policy)
  have hmetadata : markdownMetadata exampleMarkdown =
      some [(lit "version", lit "1"), (lit "runbook_id", lit "restart")] := by
    decide +kernel
  exact ⟨d, decode_ok.mpr ⟨by decide +kernel, ⟨hempty, hsize⟩, exampleRunbook policy, h,
    ⟨_, hmetadata, rfl, rfl⟩, hd, .inl rfl, rfl⟩⟩

theorem authorizable_iff_restart :
    ∃ d, Authorizable { exampleRunbook ⟨1, 1000000000⟩ with digest := d } true 0 := by
  obtain ⟨d, hd⟩ := @decode_example ⟨1, 1000000000⟩ (ok_of_toOption (by decide +kernel))
    (by decide +kernel) (by decide +kernel)
  exact ⟨d, (authorizable_iff _ _ _ hd true 0 Nat.one_pos).mpr
    ⟨Int64.le_refl 1, (by decide : (0 : Int64) < 1000000000), List.not_mem_nil, List.nodup_nil⟩⟩

/-- A runbook without a stabilization policy is accepted, and no request for it is ever allowed. -/
theorem accepted_never_allowed :
    ∃ (markdown document : Bytes) (pair : Pair), decode markdown document = .ok pair ∧
      elems pair.runbook.typedActions ≠ [] ∧
      ∀ (targetID : Bytes) (analysisRequired : Bool) (authorizedApprovers : List Bytes)
        (input : Input), (evaluate (snapshotOf pair.runbook analysisRequired targetID
          authorizedApprovers) input).verdict = .deny := by
  obtain ⟨d, hd⟩ := @decode_example ⟨0, 0⟩ (ok_of_toOption (by decide +kernel))
    (by decide +kernel) (by decide +kernel)
  refine ⟨_, _, _, hd, List.cons_ne_nil _ _, fun targetID analysisRequired approvers input => ?_⟩
  by_contra hdeny
  obtain ⟨registered, action, heligible⟩ := eligible_of_not_deny hdeny
  have hsamples := heligible.samples
  rw [List.mem_singleton.mp heligible.mem] at hsamples
  exact absurd hsamples (by decide : ¬1 ≤ (0 : Int64).toInt)

end PulseAgent.Runbooks
