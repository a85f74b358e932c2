import PulseAgent.Correlator.Stored

/-!
# The lifecycle of an incident

One call writes at most one record: it opens an incident or moves one along its lifecycle, and never
touches what identifies it.
-/

namespace PulseAgent.Correlator

open Go Go.Json Contract Relation

/-! ## One transition -/

/-- The first severity is at most the second: info, warning, critical in this order, after any text
that names none of them. -/
inductive AtMost : Severity → Severity → Prop
  | same (severity : Severity) : AtMost severity severity
  | infoWarning : AtMost .info .warning
  | infoCritical : AtMost .info .critical
  | warningCritical : AtMost .warning .critical
  | unnamed {text : Bytes} {unnamed : text ∉ Severity.names} (severity : Severity) :
    AtMost (.other text unnamed) severity

theorem severityRank_le_iff {a b : Severity} : severityRank a ≤ severityRank b ↔ AtMost a b := by
  constructor
  · intro h
    cases a <;> cases b <;> first
      | exact .unnamed _
      | exact .same _
      | exact .infoWarning
      | exact .infoCritical
      | exact .warningCritical
      | simp [severityRank] at h
  · intro h
    cases h with
    | same => exact le_rfl
    | unnamed => exact Nat.zero_le _
    | _ => decide

/-- What no signal changes: the identity of an incident, a severity that was reached, and
everything about an incident that has ended. -/
structure Kept (r r' : PersistedIncident) : Prop where
  incidentID : r'.incident.incidentID = r.incident.incidentID
  dedupeKey : r'.incident.dedupeKey = r.incident.dedupeKey
  targetID : r'.incident.targetID = r.incident.targetID
  ruleIDs : r'.incident.ruleIDs = r.incident.ruleIDs
  openedAt : r'.incident.openedAt = r.incident.openedAt
  severity : AtMost r.incident.severity r'.incident.severity
  ended : r.incident.state.terminal = true → r'.incident.state = r.incident.state ∧
    r'.incident.severity = r.incident.severity ∧ r'.incident.terminalAt = r.incident.terminalAt

namespace Kept

variable {r r' r'' : PersistedIncident}

theorem refl (r : PersistedIncident) : Kept r r :=
  ⟨rfl, rfl, rfl, rfl, rfl, .same _, fun _ => ⟨rfl, rfl, rfl⟩⟩

theorem trans (h : Kept r r') (h' : Kept r' r'') : Kept r r'' where
  incidentID := h'.incidentID.trans h.incidentID
  dedupeKey := h'.dedupeKey.trans h.dedupeKey
  targetID := h'.targetID.trans h.targetID
  ruleIDs := h'.ruleIDs.trans h.ruleIDs
  openedAt := h'.openedAt.trans h.openedAt
  severity := severityRank_le_iff.mp
    ((severityRank_le_iff.mpr h.severity).trans (severityRank_le_iff.mpr h'.severity))
  ended hterminal := by
    obtain ⟨hstate, hseverity, htime⟩ := h.ended hterminal
    obtain ⟨hstate', hseverity', htime'⟩ := h'.ended (hstate.symm ▸ hterminal)
    exact ⟨hstate'.trans hstate, hseverity'.trans hseverity, htime'.trans htime⟩

end Kept

def Moves (state state' : IncidentState) : Prop :=
  state' = state ∨ state.canTransitionTo state' = true

section Transition

variable {r : PersistedIncident} {signal : Signal}

theorem raised_spec (r : PersistedIncident) (severity : Severity) :
    AtMost r.incident.severity (raised r severity).incident.severity ∧
      raised r severity = { r with incident := { r.incident with
        severity := (raised r severity).incident.severity } } := by
  unfold raised
  split
  case isTrue h => exact ⟨severityRank_le_iff.mp (of_decide_eq_true h).le, rfl⟩
  case isFalse => exact ⟨.same _, rfl⟩

theorem moved_spec (hactive : r.incident.state.terminal = false) (severity : Severity)
    {phase : Phase} {state : IncidentState} (terminalAt : Time)
    (hmove : Moves r.incident.state state) :
    Kept r ((raised r severity).moved phase state terminalAt) ∧
      Moves r.incident.state ((raised r severity).moved phase state terminalAt).incident.state := by
  obtain ⟨hrank, hraised⟩ := raised_spec r severity
  refine ⟨?_, hmove⟩
  rw [hraised] at hrank ⊢
  exact ⟨rfl, rfl, rfl, rfl, rfl, hrank, fun h => by rw [hactive] at h; cases h⟩

theorem raised_phase (r : PersistedIncident) (severity : Severity) :
    (raised r severity).phase = r.phase := by
  rw [(raised_spec r severity).2]

theorem raised_state (r : PersistedIncident) (severity : Severity) :
    (raised r severity).incident.state = r.incident.state := by
  rw [(raised_spec r severity).2]

/-- The phase of a record tells from which state a signal moves it, and where to. -/
theorem advance_spec (hmatch : phaseMatchesIncident r.phase r.incident = true) :
    Kept r (advance r signal) ∧ Moves r.incident.state (advance r signal).incident.state := by
  have hstays (hactive : r.incident.state.terminal = false) : Kept r (raised r signal.severity) ∧
      Moves r.incident.state (raised r signal.severity).incident.state :=
    moved_spec hactive signal.severity (raised r signal.severity).incident.terminalAt
      (.inl (raised_state r signal.severity))
  unfold advance advanceUnhealthy advanceHealthy
  rw [raised_phase, raised_state]
  cases hphase : r.phase with
  | terminal =>
    rw [if_pos rfl]
    exact ⟨Kept.refl r, .inl rfl⟩
  | candidate =>
    rw [hphase] at hmatch
    have hstate := of_decide_eq_true hmatch
    have hactive : r.incident.state.terminal = false := by rw [hstate]; rfl
    rw [if_neg (by simp)]
    split
    · exact moved_spec hactive _ _ (.inr (by rw [hstate]; rfl))
    · exact moved_spec hactive _ _ (.inr (by rw [hstate]; rfl))
  | confirmed =>
    rw [hphase] at hmatch
    have hstate := of_decide_eq_true hmatch
    have hactive : r.incident.state.terminal = false := by rw [hstate]; rfl
    rw [if_neg (by simp)]
    split
    · exact hstays hactive
    · exact moved_spec hactive _ _ (.inr (by rw [hstate]; rfl))
  | recovering =>
    rw [hphase] at hmatch
    simp only [phaseMatchesIncident, Bool.or_eq_true, decide_eq_true_eq] at hmatch
    rw [if_neg (by simp)]
    -- a failed recovery, the first healthy sample, or the one that closes the incident
    rcases hmatch with hstate | hstate
    · have hactive : r.incident.state.terminal = false := by rw [hstate]; rfl
      rw [if_pos hstate]
      split
      · exact moved_spec hactive _ _ (.inr (by rw [hstate]; rfl))
      · exact moved_spec hactive _ _ (.inr (by rw [hstate]; rfl))
    · have hactive : r.incident.state.terminal = false := by rw [hstate]; rfl
      have hnot : r.incident.state ≠ .recovering := by rw [hstate]; decide
      rw [if_neg hnot]
      split
      · exact moved_spec hactive _ _ (.inr (by rw [hstate]; rfl))
      · exact moved_spec hactive _ _ (.inr (by rw [hstate]; rfl))
  | other text unnamed =>
    rw [hphase] at hmatch
    cases hmatch

theorem applied_spec (hmatch : phaseMatchesIncident r.phase r.incident = true) (inputKey : Bytes) :
    Kept r (applied r inputKey signal) ∧
      Moves r.incident.state (applied r inputKey signal).incident.state := by
  have h : Kept { r with seenInputs := some (appendBounded (elems r.seenInputs) inputKey) }
      (applied r inputKey signal) ∧
      Moves r.incident.state (applied r inputKey signal).incident.state := advance_spec hmatch
  exact ⟨⟨h.1.incidentID, h.1.dedupeKey, h.1.targetID, h.1.ruleIDs, h.1.openedAt, h.1.severity,
    h.1.ended⟩, h.2⟩

theorem advance_seenInputs : (advance r signal).seenInputs = r.seenInputs := by
  have hraised : (raised r signal.severity).seenInputs = r.seenInputs := by
    rw [(raised_spec r signal.severity).2]
  unfold advance advanceUnhealthy advanceHealthy
  split
  · rfl
  · split
    · split <;> exact hraised
    · split
      · exact hraised
      · exact hraised
      · split <;> exact hraised
      · exact hraised

theorem advance_severity : (advance r signal).incident.severity = r.incident.severity ∨
    (advance r signal).incident.severity = signal.severity := by
  have hraised : (raised r signal.severity).incident.severity = r.incident.severity ∨
      (raised r signal.severity).incident.severity = signal.severity := by
    unfold raised
    split
    · exact .inr rfl
    · exact .inl rfl
  unfold advance advanceUnhealthy advanceHealthy
  split
  · exact .inl rfl
  · split
    · split <;> exact hraised
    · split
      · exact hraised
      · exact hraised
      · split <;> exact hraised
      · exact hraised

end Transition

/-! ## One call -/

def Signal.ValidText (signal : Signal) : Prop :=
  Utf8.validString signal.observation.targetID = true ∧
    Utf8.validString signal.observation.ruleID = true

def WithinLimit (s : Store) : Prop :=
  ∀ key document : Bytes, (s .incidents)[key]? = some document → document.length ≤ maxRecordBytes

/-- A store in which every incident can be read and stands under its own dedupe key. -/
structure Consistent (s : Store) : Prop where
  readable : ∀ key document : Bytes, (s .incidents)[key]? = some document →
    ∃ r, decodeRecord document = .ok r
  keyed : ∀ key r, Loads s key r → r.incident.dedupeKey = key
  severity : ∀ key r, Loads s key r → Severity.named r.incident.severity

theorem consistent_empty {s : Store} (h : s .incidents = ∅) : Consistent s := by
  have hnone : ∀ key : Bytes, (s .incidents)[key]? = none := by
    intro key
    rw [h]
    exact Std.ExtTreeMap.getElem?_empty
  have hloads : ∀ key r, ¬Loads s key r := by
    rintro key r ⟨document, hdocument, -⟩
    rw [hnone key] at hdocument
    cases hdocument
  refine ⟨?_, fun key r h => absurd h (hloads key r), fun key r h => absurd h (hloads key r)⟩
  intro key document hdocument
  rw [hnone key] at hdocument
  cases hdocument

theorem Loads.matches {s : Store} {key : Bytes} {r : PersistedIncident} (h : Loads s key r) :
    phaseMatchesIncident r.phase r.incident = true := by
  obtain ⟨document, -, hr⟩ := h
  exact (validateRecord_ok.mp (decodeRecord_spec hr).1).2.2.2.2.2.2.1

theorem Loads.inputs {s : Store} {key : Bytes} {r : PersistedIncident} (h : Loads s key r) :
    (elems r.seenInputs).Nodup ∧ (elems r.seenInputs).length ≤ maxSeenInputs := by
  obtain ⟨document, -, hr⟩ := h
  obtain ⟨-, -, -, hle, -, -, -, hinputs⟩ := validateRecord_ok.mp (decodeRecord_spec hr).1
  simp only [validInputs, Bool.and_eq_true, decide_eq_true_eq] at hinputs
  exact ⟨hinputs.2, hle⟩

theorem clean_dedupeKey {signal : Signal} (h : signal.ValidText) (c : Correlator) :
    Utf8.toValidUTF8 (c.dedupeKey signal.observation) = c.dedupeKey signal.observation := by
  have hslash : Utf8.validString (lit "/") = true := by decide +kernel
  refine Utf8.toValidUTF8_of_valid (Utf8.validString_append ?_ (Decimal.validString_formatInt _))
  exact Utf8.validString_append (Utf8.validString_append (Utf8.validString_append h.1 hslash) h.2)
    hslash

/-- What the record under a key became by one call. -/
structure Stepped (signal : Signal) (s s' : Store) : Prop where
  one : ∃ key : Bytes, ∀ k : Bytes, k ≠ key → (s' .incidents)[k]? = (s .incidents)[k]?
  advanced : ∀ key r, Loads s key r → ∃ r', Loads s' key r' ∧ Kept r r' ∧
    Moves r.incident.state r'.incident.state
  remembered : ∀ key : Bytes, (s' .incidents)[key]? ≠ (s .incidents)[key]? → ∃ r', Loads s' key r' ∧
    (elems r'.seenInputs).getLast? = some (signalInputKey signal)

theorem Stepped.refl (signal : Signal) (s : Store) : Stepped signal s s :=
  ⟨⟨[], fun _ _ => rfl⟩, fun _ r h => ⟨r, h, Kept.refl r, .inl rfl⟩, fun _ h => absurd rfl h⟩

section Call

variable {c : Correlator} {s : Store} {signal : Signal} {key document : Bytes}
  {r : PersistedIncident}

theorem loads_withIncident_of_ne {k : Bytes} (h : k ≠ key) {old : PersistedIncident} :
    Loads (withIncident s key document) k old ↔ Loads s k old := by
  unfold Loads
  rw [withIncident_get, if_neg h]

theorem loads_withIncident_self (hr : decodeRecord document = .ok r) :
    Loads (withIncident s key document) key r := by
  refine ⟨document, ?_, hr⟩
  rw [withIncident_get, if_pos rfl]

theorem Change.getLast (h : Change c signal s key r) :
    (elems r.seenInputs).getLast? = some (signalInputKey signal) := by
  cases h with
  | applied hroute hnew =>
    unfold Correlator.applied
    rw [advance_seenInputs, elems, Option.getD_some]
    exact getLast_appendBounded _ _
  | opened id hnone => rfl

theorem Change.kept {old : PersistedIncident} (h : Change c signal s key r)
    (hseverity : Severity.named signal.severity) (hold : Loads s key old) :
    PersistedIncident.codec.norm r = r ∧ Kept old r ∧
      Moves old.incident.state r.incident.state := by
  cases h with
  | applied hroute hnew =>
    cases hold.unique hroute.loads
    have hspec := @applied_spec _ signal hold.matches (signalInputKey signal)
    obtain ⟨_, -, hr⟩ := hold
    exact ⟨norm_applied (decodeRecord_spec hr).2 hseverity, hspec⟩
  | opened id hnone =>
    obtain ⟨_, hdocument, -⟩ := hold
    rw [hnone] at hdocument
    cases hdocument

theorem norm_severity {severity : Severity} (h : Severity.named severity) :
    Severity.codec.norm severity = severity := by
  rcases h with rfl | rfl | rfl <;> rfl

theorem Change.keyed (h : Change c signal s key r) (hs : Consistent s) (htext : signal.ValidText)
    (hseverity : Severity.named signal.severity) :
    (PersistedIncident.codec.norm r).incident.dedupeKey = key ∧
      Severity.named (PersistedIncident.codec.norm r).incident.severity := by
  cases h with
  | @applied _ old hroute hnew =>
    obtain ⟨hnorm, hkept, -⟩ := Change.kept (.applied hroute hnew) hseverity hroute.loads
    rw [hnorm]
    refine ⟨hkept.dedupeKey.trans (hs.keyed key old hroute.loads), ?_⟩
    rcases advance_severity with h | h
    · exact h.symm ▸ hs.severity key old hroute.loads
    · exact h.symm ▸ hseverity
  | opened id hnone =>
    refine ⟨clean_dedupeKey htext c, ?_⟩
    change Severity.named (Severity.codec.norm signal.severity)
    rw [norm_severity hseverity]
    exact hseverity

theorem Signal.withDefaults_validText (h : signal.ValidText) : signal.withDefaults.ValidText := h

/-- The step lemma: a call keeps the store consistent and moves at most one incident. -/
theorem consistent_of_ingest (hs : Consistent s) (call : Call) (htext : call.signal.ValidText)
    (hlimit : WithinLimit (ingest call s).2) :
    Consistent (ingest call s).2 ∧ Stepped call.signal.withDefaults s (ingest call s).2 := by
  rcases ingest_cases call s with hsame
    | ⟨key, r, document, hchange, hseverity, hvalid, hmarshal, hs'⟩
  · rw [hsame]
    exact ⟨hs, Stepped.refl _ s⟩
  rw [hs'] at hlimit ⊢
  have hsize : document.length ≤ maxRecordBytes :=
    hlimit key document (by rw [withIncident_get, if_pos rfl])
  have hdecode := (decodeRecord_marshal hvalid (hchange.seen_norm hseverity) hmarshal).mpr hsize
  have hloads : Loads (withIncident s key document) key _ := loads_withIncident_self hdecode
  obtain ⟨hkeyed, hnamed⟩ := hchange.keyed hs htext hseverity
  refine ⟨⟨?_, ?_, ?_⟩, ⟨⟨key, ?_⟩, ?_, ?_⟩⟩
  · intro k d hd
    rw [withIncident_get] at hd
    split at hd
    · cases hd
      exact ⟨_, hdecode⟩
    · exact hs.readable k d hd
  · intro k r' hr'
    by_cases hk : k = key
    · subst hk
      rw [hr'.unique hloads]
      exact hkeyed
    · exact hs.keyed k r' ((loads_withIncident_of_ne hk).mp hr')
  · intro k r' hr'
    by_cases hk : k = key
    · subst hk
      rw [hr'.unique hloads]
      exact hnamed
    · exact hs.severity k r' ((loads_withIncident_of_ne hk).mp hr')
  · intro k hk
    rw [withIncident_get, if_neg hk]
  · intro k old hold
    by_cases hk : k = key
    · subst hk
      obtain ⟨hnorm, hkept, hmoves⟩ := hchange.kept hseverity hold
      rw [hnorm] at hloads
      exact ⟨r, hloads, hkept, hmoves⟩
    · exact ⟨old, (loads_withIncident_of_ne hk).mpr hold, Kept.refl old, .inl rfl⟩
  · intro k hchanged
    rw [withIncident_get] at hchanged
    split at hchanged
    · subst_vars
      refine ⟨_, hloads, ?_⟩
      rw [hchange.seen_norm hseverity]
      exact hchange.getLast
    · exact absurd rfl hchanged

end Call

/-! ## Runs -/

/-- One call with a valid UTF-8 signal, after which every record is within the size limit. -/
inductive Step (s : Store) : Store → Prop
  | ingest (call : Call) (htext : call.signal.ValidText) (hlimit : WithinLimit (ingest call s).2) :
      Step s (ingest call s).2

theorem consistent_of_run {s s' : Store} (hs : Consistent s) (hrun : ReflTransGen Step s s') :
    Consistent s' := by
  induction hrun with
  | refl => exact hs
  | tail _ hstep ih =>
    cases hstep with
    | ingest call htext hlimit => exact (consistent_of_ingest ih call htext hlimit).1

/-- The run lemma: whatever calls follow, an incident stays what it is and moves along its
lifecycle. -/
theorem kept_of_run {s s' : Store} (hs : Consistent s) (hrun : ReflTransGen Step s s')
    {key : Bytes} {r : PersistedIncident} (h : Loads s key r) :
    ∃ r', Loads s' key r' ∧ Kept r r' ∧ ReflTransGen Moves r.incident.state r'.incident.state := by
  induction hrun with
  | refl => exact ⟨r, h, Kept.refl r, .refl⟩
  | tail hrun hstep ih =>
    obtain ⟨r1, hr1, hkept1, hmoves1⟩ := ih
    cases hstep with
    | ingest call htext hlimit =>
      have hconsistent := consistent_of_run hs hrun
      obtain ⟨r2, hr2, hkept2, hmove2⟩ :=
        (consistent_of_ingest hconsistent call htext hlimit).2.advanced key r1 hr1
      exact ⟨r2, hr2, hkept1.trans hkept2, hmoves1.tail hmove2⟩

/-- The lifecycle of incidents. In every run from an empty bucket each incident can be read, its
phase agrees with its state, no two share a dedupe key, and its inputs are distinct and at most
256; a call changes at most one record, deletes none, moves the incident by an allowed transition
and remembers its input; and whatever follows keeps the identity of every incident, never lowers
its severity and leaves one that has ended as it ended. -/
theorem incident_lifecycle {start s : Store} (hempty : start .incidents = ∅)
    (hrun : ReflTransGen Step start s) :
    Consistent s ∧
    (∀ key r, Loads s key r → phaseMatchesIncident r.phase r.incident = true ∧
      (elems r.seenInputs).Nodup ∧ (elems r.seenInputs).length ≤ maxSeenInputs) ∧
    (∀ key key' r r', Loads s key r → Loads s key' r' →
      r.incident.dedupeKey = r'.incident.dedupeKey → key = key') ∧
    (∀ call : Call, call.signal.ValidText → WithinLimit (ingest call s).2 →
      Stepped call.signal.withDefaults s (ingest call s).2) ∧
    (∀ s', ReflTransGen Step s s' → ∀ key r, Loads s key r → ∃ r', Loads s' key r' ∧ Kept r r' ∧
      ReflTransGen Moves r.incident.state r'.incident.state) := by
  have hs : Consistent s := consistent_of_run (consistent_empty hempty) hrun
  refine ⟨hs, ?_, ?_, ?_, ?_⟩
  · intro key r hr
    exact ⟨hr.matches, hr.inputs⟩
  · intro key key' r r' hr hr' heq
    exact (hs.keyed key r hr).symm.trans (heq.trans (hs.keyed key' r' hr'))
  · intro call htext hlimit
    exact (consistent_of_ingest hs call htext hlimit).2
  · intro s' hrun' key r hr
    exact kept_of_run hs hrun' hr

theorem withinLimit_of_all {s : Store}
    (h : (s .incidents).toList.all (fun entry => entry.2.length ≤ maxRecordBytes) = true) :
    WithinLimit s := by
  intro key document hdocument
  have hmem := Std.ExtTreeMap.mem_toList_iff_getElem?_eq_some.mpr hdocument
  exact of_decide_eq_true (List.all_eq_true.mp h _ hmem)

def sampleCorrelator : Correlator := ⟨defaultDedupeWindow, by decide⟩

def sampleSignal (observationID : Bytes) (state : NormalizedState)
    (observedAt : Time) : Signal where
  observation :=
    { schemaVersion := schemaVersionV1
      observationID := observationID
      targetID := lit "web"
      ruleID := lit "availability"
      observedAt := observedAt
      normalizedState := state }

def sampleCall (observationID : Bytes) (state : NormalizedState) (observedAt : Time) : Call where
  correlator := sampleCorrelator
  signal := sampleSignal observationID state observedAt
  newID := .ok (lit "incident-1")

/-- An unhealthy signal opens an incident, and a healthy one closes it a minute later. -/
theorem sample_incident_lifecycle :
    let opened := (ingest (sampleCall (lit "o-1") .unhealthy 63900000000000000000) Store.empty).2
    let closing := sampleCall (lit "o-2") .healthy 63900000060000000000
    (ingest closing opened).1.toOption.map Result.phase = some .terminal ∧
      Consistent (ingest closing opened).2 ∧
      ∀ key r, Loads opened key r → ∃ r', Loads (ingest closing opened).2 key r' ∧ Kept r r' ∧
        ReflTransGen Moves r.incident.state r'.incident.state := by
  intro opened closing
  have hopened : Step Store.empty opened :=
    .ingest _ ⟨by decide +kernel, by decide +kernel⟩ (withinLimit_of_all (by decide +kernel))
  have hclosed : Step opened (ingest closing opened).2 :=
    .ingest _ ⟨by decide +kernel, by decide +kernel⟩ (withinLimit_of_all (by decide +kernel))
  have hrun : ReflTransGen Step Store.empty opened := .single hopened
  exact ⟨by decide +kernel, (incident_lifecycle rfl (hrun.tail hclosed)).1,
    (incident_lifecycle rfl hrun).2.2.2.2 _ (.single hclosed)⟩

end PulseAgent.Correlator
