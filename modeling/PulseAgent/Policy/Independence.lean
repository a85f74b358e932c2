import PulseAgent.Policy.Specification

/-!
# What a decision does not depend on

Two evaluations give the same decision when the lookups they make agree.
-/

namespace PulseAgent.Policy

open Go Contract

/-- The input after a model said something else: other candidates, other labels, another
suggestion. -/
def Input.withAnalysis (input : Input) (candidates : List Bytes)
    (confidence : List ConfidenceLabel) (suggestion : NotificationRecommendation) : Input :=
  { input with
    analysisCandidateIDs := candidates
    analysisConfidence := confidence
    notificationSuggestion := suggestion }

theorem contains_congr {values values' : List Bytes} {want : Bytes}
    (h : want ∈ values' ↔ want ∈ values) : contains values' want = contains values want := by
  rw [Bool.eq_iff_iff, contains_iff, contains_iff, h]

/-- The decision on one snapshot is the decision on another, whatever an analysis said, when the
lookups agree. -/
theorem evaluate_congr {snapshot snapshot' : Snapshot} {input : Input} {candidates : List Bytes}
    {confidence : List ConfidenceLabel} {suggestion : NotificationRecommendation}
    (hregistered : registeredRunbook snapshot' input = registeredRunbook snapshot input)
    (happrovers : ∀ a, a ∈ snapshot'.authorizedApprovers ↔ a ∈ snapshot.authorizedApprovers)
    (hcandidates : ∀ registered, registeredRunbook snapshot input = .ok registered →
      registered.analysisRequired = true →
        (registered.runbook.runbookID ∈ candidates ↔
          registered.runbook.runbookID ∈ input.analysisCandidateIDs)) :
    evaluate snapshot' (input.withAnalysis candidates confidence suggestion) =
      evaluate snapshot input := by
  have happroval : approval snapshot'.authorizedApprovers
        (input.withAnalysis candidates confidence suggestion) =
      approval snapshot.authorizedApprovers input := by
    unfold approval
    dsimp only [Input.withAnalysis]
    split
    case h_1 => rfl
    case h_2 a _ =>
      rw [contains_congr (happrovers _)]
      rfl
  have hlookup : registeredRunbook snapshot' (input.withAnalysis candidates confidence suggestion) =
      registeredRunbook snapshot input := hregistered
  unfold evaluate
  rw [hlookup, happroval]
  split
  case h_1 => rfl
  case h_2 registered hok =>
    dsimp only [Input.withAnalysis]
    cases hrequired : registered.analysisRequired with
    | false => rfl
    | true =>
      simp only [contains_congr (hcandidates registered hok hrequired)]
      rfl

theorem registeredRunbook_congr {snapshot snapshot' : Snapshot} {input : Input}
    (hvalid : snapshot'.Valid ↔ snapshot.Valid)
    (hmem : ∀ registered, registered.runbook.runbookID = input.runbookID →
      (registered ∈ snapshot'.runbooks ↔ registered ∈ snapshot.runbooks)) :
    registeredRunbook snapshot' input = registeredRunbook snapshot input := by
  have hsame : validSnapshot snapshot' = validSnapshot snapshot := by
    rw [Bool.eq_iff_iff, validSnapshot_iff, validSnapshot_iff, hvalid]
  unfold registeredRunbook
  rw [hsame]
  split
  case isTrue => rfl
  case isFalse haccepted =>
    have haccepts : snapshot.Valid := by
      rw [← validSnapshot_iff]
      simp only [Bool.or_eq_true, not_or, Bool.not_eq_true', Bool.not_eq_false] at haccepted
      exact haccepted.1.1.1.1
    have hfind : (snapshot'.runbooks.find? fun r => r.runbook.runbookID == input.runbookID) =
        snapshot.runbooks.find? fun r => r.runbook.runbookID == input.runbookID := by
      apply Option.ext
      intro registered
      rw [find?_of_nodup (hvalid.mpr haccepts).distinct, find?_of_nodup haccepts.distinct]
      exact and_congr_left (hmem registered)
    rw [hfind]

theorem Snapshot.Valid.of_perm {snapshot snapshot' : Snapshot} (h : snapshot.Valid)
    (hrunbooks : snapshot'.runbooks.Perm snapshot.runbooks)
    (happrovers : snapshot'.authorizedApprovers.Perm snapshot.authorizedApprovers) :
    snapshot'.Valid where
  runbooks := by
    intro hnil
    rw [hnil] at hrunbooks
    exact h.runbooks hrunbooks.symm.eq_nil
  wellFormed registered hmem := h.wellFormed registered (hrunbooks.mem_iff.mp hmem)
  distinct := (hrunbooks.map _).nodup_iff.mpr h.distinct
  approvers hmem := h.approvers (happrovers.mem_iff.mp hmem)
  distinctApprovers := happrovers.nodup_iff.mpr h.distinctApprovers

theorem Snapshot.valid_cons_iff {snapshot : Snapshot} {registered : RegisteredRunbook}
    (hnonempty : snapshot.runbooks ≠ []) (hregistered : WellFormed registered)
    (hfresh : ∀ other ∈ snapshot.runbooks,
      other.runbook.runbookID ≠ registered.runbook.runbookID) :
    Snapshot.Valid { snapshot with runbooks := registered :: snapshot.runbooks } ↔
      snapshot.Valid := by
  have hnew : registered.runbook.runbookID ∉
      snapshot.runbooks.map fun other => other.runbook.runbookID := by
    rw [List.mem_map]
    rintro ⟨other, hmem, heq⟩
    exact hfresh other hmem heq
  constructor
  · intro h
    exact ⟨hnonempty, fun other hmem => h.wellFormed other (List.mem_cons_of_mem _ hmem),
      (List.nodup_cons.mp h.distinct).2, h.approvers, h.distinctApprovers⟩
  · intro h
    refine ⟨List.cons_ne_nil _ _, ?_, List.nodup_cons.mpr ⟨hnew, h.distinct⟩, h.approvers,
      h.distinctApprovers⟩
    intro other hmem
    rcases List.mem_cons.mp hmem with rfl | hmem
    · exact hregistered
    · exact h.wellFormed other hmem

/-- What a model says reaches a decision only through whether it lists the requested runbook, and
only where its registration requires an analysis. The order of the registrations and of the
approvers is not seen, nor is a registration of another runbook. -/
theorem model_output_cannot_steer (snapshot : Snapshot) (input : Input) :
    (∀ candidates confidence suggestion,
      ((input.runbookID ∈ candidates ↔ input.runbookID ∈ input.analysisCandidateIDs) ∨
        ∀ registered ∈ snapshot.runbooks, registered.runbook.runbookID = input.runbookID →
          registered.analysisRequired = false) →
      evaluate snapshot (input.withAnalysis candidates confidence suggestion) =
        evaluate snapshot input) ∧
    (∀ runbooks approvers, runbooks.Perm snapshot.runbooks →
      approvers.Perm snapshot.authorizedApprovers →
      evaluate ⟨runbooks, approvers⟩ input = evaluate snapshot input) ∧
    ∀ registered runbooks, snapshot.runbooks ≠ [] → WellFormed registered →
      (∀ other ∈ snapshot.runbooks,
        other.runbook.runbookID ≠ registered.runbook.runbookID) →
      registered.runbook.runbookID ≠ input.runbookID →
      runbooks.Perm (registered :: snapshot.runbooks) →
      evaluate { snapshot with runbooks := runbooks } input = evaluate snapshot input := by
  refine ⟨?_, ?_, ?_⟩
  · intro candidates confidence suggestion hsame
    apply evaluate_congr rfl (fun _ => Iff.rfl)
    intro registered hok hrequired
    obtain ⟨-, hmem, hnamed⟩ := registeredRunbook_ok_iff.mp hok
    rcases hsame with hsame | hnone
    · rw [hnamed, hsame]
    · rw [hnone registered hmem hnamed] at hrequired
      cases hrequired
  · intro runbooks approvers hrunbooks happrovers
    have hvalid : (Snapshot.mk runbooks approvers).Valid ↔ snapshot.Valid :=
      ⟨fun h => h.of_perm hrunbooks.symm happrovers.symm, fun h => h.of_perm hrunbooks happrovers⟩
    have hlookup : registeredRunbook ⟨runbooks, approvers⟩ input =
      registeredRunbook snapshot input :=
      registeredRunbook_congr hvalid fun _ _ => hrunbooks.mem_iff
    exact @evaluate_congr snapshot ⟨runbooks, approvers⟩ input _ _ _ hlookup
      (fun _ => happrovers.mem_iff) fun _ _ _ => Iff.rfl
  · intro registered runbooks hnonempty hregistered hfresh hother hrunbooks
    have hcons := Snapshot.valid_cons_iff hnonempty hregistered hfresh
    have hvalid : Snapshot.Valid { snapshot with runbooks := runbooks } ↔ snapshot.Valid := by
      rw [← hcons]
      constructor
      · intro h
        exact h.of_perm hrunbooks.symm (.refl _)
      · intro h
        exact h.of_perm hrunbooks (.refl _)
    have hlookup : registeredRunbook { snapshot with runbooks := runbooks } input =
        registeredRunbook snapshot input := by
      apply registeredRunbook_congr hvalid
      intro found hnamed
      rw [hrunbooks.mem_iff, List.mem_cons, or_iff_right]
      rintro rfl
      exact hother hnamed
    exact @evaluate_congr snapshot { snapshot with runbooks := runbooks } input _ _ _ hlookup
      (fun _ => Iff.rfl) fun _ _ _ => Iff.rfl

def exampleRegistration (runbookID : Bytes) : RegisteredRunbook where
  runbook :=
    { schemaVersion := schemaVersionV1
      runbookID := runbookID
      digest := lit "d"
      typedActions := some [⟨.dockerContainerRestart, lit "container:web", 1, 0⟩]
      riskTier := .low
      autoExecute := true
      retryPolicy := { maxAttempts := 1 }
      stabilizationPolicy := { recoverySamples := 1, window := 1 } }
  targetID := lit "t"
  analysisRequired := true

def exampleInput : Input where
  runbookID := lit "a"
  runbookDigest := lit "d"
  targetID := lit "t"
  commandID := lit "c"
  analysisAvailable := true
  analysisCandidateIDs := [lit "a"]

theorem model_output_cannot_steer_allowed :
    evaluate ⟨[exampleRegistration (lit "a")], []⟩ exampleInput = ⟨.allow, .allowed⟩ ∧
    evaluate ⟨[exampleRegistration (lit "a")], []⟩
        (exampleInput.withAnalysis [lit "b", lit "a"] [.low] .page) =
      evaluate ⟨[exampleRegistration (lit "a")], []⟩ exampleInput ∧
    evaluate ⟨[exampleRegistration (lit "a"), exampleRegistration (lit "b")], []⟩ exampleInput =
      evaluate ⟨[exampleRegistration (lit "a")], []⟩ exampleInput := by
  have h := model_output_cannot_steer ⟨[exampleRegistration (lit "a")], []⟩ exampleInput
  refine ⟨by decide +kernel, h.1 _ _ _ (.inl (by decide)), ?_⟩
  exact h.2.2 (exampleRegistration (lit "b")) _ (List.cons_ne_nil _ _)
    (validRegistration_iff.mp (by decide)) (by decide) (by decide) (.swap _ _ _)

end PulseAgent.Policy
