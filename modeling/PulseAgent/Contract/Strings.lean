import PulseAgent.Contract.Codecs

/-!
# The strings of a contract

A record whose strings are all valid UTF-8 is read back exactly as it was written.
-/

namespace PulseAgent.Contract

open Go Go.Json

def Valid (strings : List Bytes) : Prop := ∀ s ∈ strings, Utf8.validString s = true

instance (strings : List Bytes) : Decidable (Valid strings) :=
  inferInstanceAs (Decidable (∀ s ∈ strings, _))

theorem valid_cons {s : Bytes} {strings : List Bytes} :
    Valid (s :: strings) ↔ Utf8.validString s = true ∧ Valid strings := List.forall_mem_cons

theorem valid_append {first second : List Bytes} :
    Valid (first ++ second) ↔ Valid first ∧ Valid second := List.forall_mem_append

theorem valid_flatMap {α : Type} {strings : α → List Bytes} {as : List α} :
    Valid (as.flatMap strings) ↔ ∀ a ∈ as, Valid (strings a) := List.forall_mem_flatMap

theorem string_norm {s : Bytes} (h : Utf8.validString s = true) : Codec.string.norm s = s :=
  Utf8.toValidUTF8_of_valid h

theorem named_norm {α : Type} {text : α → Bytes} {ofText : Bytes → α} {a : α}
    (hback : ofText (text a) = a) (h : Utf8.validString (text a) = true) :
    (Codec.named text ofText).norm a = a := by
  change ofText (Utf8.toValidUTF8 (text a)) = a
  rw [Utf8.toValidUTF8_of_valid h, hback]

theorem slice_norm {α : Type} {c : Codec α} {as : Option (List α)}
    (h : ∀ a ∈ elems as, c.norm a = a) : c.slice.norm as = as := by
  cases as with
  | none => rfl
  | some as => exact congrArg some ((List.map_congr_left h).trans (List.map_id as))

theorem strings_norm {as : Option (List Bytes)} (h : Valid (elems as)) :
    Codec.string.slice.norm as = as := slice_norm fun s hs => string_norm (h s hs)

theorem map_norm {α : Type} {c : Codec α} {strings : α → List Bytes} {a : Option α}
    (h : Valid (a.elim [] strings)) (hnorm : ∀ x, Valid (strings x) → c.norm x = x) :
    a.map c.norm = a := by
  cases a with
  | none => rfl
  | some a => exact congrArg some (hnorm a h)

/-! ## Named strings -/

theorem RiskTier.ofText_text (tier : RiskTier) : ofText tier.text = tier := by
  cases tier with
  | other s h => exact ofTable_of_not_mem h
  | _ => rfl

theorem ActionType.ofText_text (type : ActionType) : ofText type.text = type := by
  cases type with
  | other s h => exact ofTable_of_not_mem h
  | _ => rfl

theorem ApprovalDecision.ofText_text (decision : ApprovalDecision) :
    ofText decision.text = decision := by
  cases decision with
  | other s h => exact ofTable_of_not_mem h
  | _ => rfl

theorem IncidentState.ofText_text (state : IncidentState) : ofText state.text = state := by
  cases state with
  | other s h => exact ofTable_of_not_mem h
  | _ => rfl

theorem RecoveryCommandState.ofText_text (state : RecoveryCommandState) :
    ofText state.text = state := by
  cases state with
  | other s h => exact ofTable_of_not_mem h
  | _ => rfl

/-! ## Targets -/

def ProbeRule.strings (rule : ProbeRule) : List Bytes :=
  [rule.ruleID, rule.signalType, rule.severity.text]

theorem ProbeRule.norm_eq {rule : ProbeRule} (h : Valid rule.strings) :
    ProbeRule.codec.norm rule = rule := by
  simp only [strings, valid_cons] at h
  have hsplit : ProbeRule.codec.norm rule =
      { rule with
        ruleID := Codec.string.norm rule.ruleID
        signalType := Codec.string.norm rule.signalType
        severity := Severity.codec.norm rule.severity } := rfl
  rw [hsplit, string_norm h.1, string_norm h.2.1, Severity.codec,
    named_norm (Severity.ofText_text _) h.2.2.1]

def ServiceTarget.strings (target : ServiceTarget) : List Bytes :=
  [target.schemaVersion, target.targetID, target.adapterType, target.selector,
    target.evidencePolicy.redactionProfile] ++ (elems target.probeRules).flatMap ProbeRule.strings

theorem ServiceTarget.norm_eq {target : ServiceTarget} (h : Valid target.strings) :
    ServiceTarget.codec.norm target = target := by
  simp only [strings, valid_append, valid_cons, valid_flatMap] at h
  obtain ⟨⟨hversion, hid, hadapter, hselector, hprofile, -⟩, hrules⟩ := h
  have hsplit : ServiceTarget.codec.norm target =
      { target with
        schemaVersion := Codec.string.norm target.schemaVersion
        targetID := Codec.string.norm target.targetID
        adapterType := Codec.string.norm target.adapterType
        selector := Codec.string.norm target.selector
        probeRules := ProbeRule.codec.slice.norm target.probeRules
        evidencePolicy := { target.evidencePolicy with
          redactionProfile := Codec.string.norm target.evidencePolicy.redactionProfile } } := rfl
  rw [hsplit, string_norm hversion, string_norm hid, string_norm hadapter, string_norm hselector,
    string_norm hprofile, slice_norm fun rule hrule => ProbeRule.norm_eq (hrules rule hrule)]

/-! ## Runbooks -/

def TargetConstraint.strings (constraint : TargetConstraint) : List Bytes :=
  [constraint.field, constraint.value]

theorem TargetConstraint.norm_eq {constraint : TargetConstraint} (h : Valid constraint.strings) :
    TargetConstraint.codec.norm constraint = constraint := by
  simp only [strings, valid_cons] at h
  have hsplit : TargetConstraint.codec.norm constraint =
      ⟨Codec.string.norm constraint.field, Codec.string.norm constraint.value⟩ := rfl
  rw [hsplit, string_norm h.1, string_norm h.2.1]

def TypedAction.strings (action : TypedAction) : List Bytes :=
  [action.actionType.text, action.targetSelector]

theorem TypedAction.norm_eq {action : TypedAction} (h : Valid action.strings) :
    TypedAction.codec.norm action = action := by
  simp only [strings, valid_cons] at h
  have hsplit : TypedAction.codec.norm action =
      { action with
        actionType := ActionType.codec.norm action.actionType
        targetSelector := Codec.string.norm action.targetSelector } := rfl
  rw [hsplit, string_norm h.2.1, ActionType.codec, named_norm (ActionType.ofText_text _) h.1]

def Runbook.strings (runbook : Runbook) : List Bytes :=
  [runbook.schemaVersion, runbook.runbookID, runbook.version, runbook.digest, runbook.adapterType,
    runbook.riskTier.text] ++ elems runbook.preconditions ++
    (elems runbook.targetConstraints).flatMap TargetConstraint.strings ++
    (elems runbook.typedActions).flatMap TypedAction.strings

theorem Runbook.norm_eq {runbook : Runbook} (h : Valid runbook.strings) :
    Runbook.codec.norm runbook = runbook := by
  simp only [strings, valid_append, valid_cons, valid_flatMap] at h
  obtain ⟨⟨⟨⟨hschema, hid, hversion, hdigest, hadapter, hrisk, -⟩, hpreconditions⟩, hconstraints⟩,
    hactions⟩ := h
  have hsplit : Runbook.codec.norm runbook =
      { runbook with
        schemaVersion := Codec.string.norm runbook.schemaVersion
        runbookID := Codec.string.norm runbook.runbookID
        version := Codec.string.norm runbook.version
        digest := Codec.string.norm runbook.digest
        adapterType := Codec.string.norm runbook.adapterType
        targetConstraints := TargetConstraint.codec.slice.norm runbook.targetConstraints
        typedActions := TypedAction.codec.slice.norm runbook.typedActions
        riskTier := RiskTier.codec.norm runbook.riskTier
        preconditions := Codec.string.slice.norm runbook.preconditions } := rfl
  rw [hsplit, string_norm hschema, string_norm hid, string_norm hversion, string_norm hdigest,
    string_norm hadapter, slice_norm fun c hc => TargetConstraint.norm_eq (hconstraints c hc),
    slice_norm fun a ha => TypedAction.norm_eq (hactions a ha), RiskTier.codec,
    named_norm (RiskTier.ofText_text _) hrisk, strings_norm hpreconditions]

/-! ## Incidents -/

def Incident.strings (incident : Incident) : List Bytes :=
  [incident.schemaVersion, incident.incidentID, incident.dedupeKey, incident.targetID,
    incident.state.text, incident.severity.text, incident.analysisRef,
      incident.selectedRunbookID] ++
    elems incident.ruleIDs

theorem Incident.norm_eq {incident : Incident} (h : Valid incident.strings) :
    Incident.codec.norm incident = incident := by
  simp only [strings, valid_append, valid_cons] at h
  obtain ⟨⟨hversion, hid, hkey, htarget, hstate, hseverity, hanalysis, hselected, -⟩, hrules⟩ := h
  have hsplit : Incident.codec.norm incident =
      { incident with
        schemaVersion := Codec.string.norm incident.schemaVersion
        incidentID := Codec.string.norm incident.incidentID
        dedupeKey := Codec.string.norm incident.dedupeKey
        targetID := Codec.string.norm incident.targetID
        ruleIDs := Codec.string.slice.norm incident.ruleIDs
        state := IncidentState.codec.norm incident.state
        severity := Severity.codec.norm incident.severity
        analysisRef := Codec.string.norm incident.analysisRef
        selectedRunbookID := Codec.string.norm incident.selectedRunbookID } := rfl
  rw [hsplit, string_norm hversion, string_norm hid, string_norm hkey, string_norm htarget,
    strings_norm hrules, IncidentState.codec, named_norm (IncidentState.ofText_text _) hstate,
    Severity.codec, named_norm (Severity.ofText_text _) hseverity, string_norm hanalysis,
    string_norm hselected]

end PulseAgent.Contract
