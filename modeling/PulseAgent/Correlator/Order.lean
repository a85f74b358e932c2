import PulseAgent.Correlator.Replay

/-!
# When an incident begins and ends

The search for an active incident passes over those opened later than the signal. The record of the
signal's own window is taken whatever its time, so signals out of order can end an incident before
it began.
-/

namespace PulseAgent.Correlator

open Go Go.Json Contract Relation

def Ends (r : PersistedIncident) (state : NormalizedState) : Prop :=
  if state = .unhealthy then r.phase = .recovering else Closes r

/-- Every stored incident that has ended did so no earlier than it was opened. -/
def EndsAfterOpening (s : Store) : Prop :=
  ∀ (key document : Bytes) (r : PersistedIncident), (s .incidents)[key]? = some document →
    content PersistedIncident.codec document = some r → r.incident.state.terminal = true →
    r.incident.openedAt ≤ r.incident.terminalAt

/-- A signal that ends the incident of its window was not observed before that incident opened. -/
def InOrder (call : Call) (s : Store) : Prop :=
  ∀ r, Loads s (call.correlator.dedupeKey call.signal.observation) r →
    Ends r call.signal.observation.normalizedState →
    r.incident.openedAt ≤ call.signal.observation.observedAt

/-! ## One transition -/

section Transition

variable {r : PersistedIncident} {signal : Signal}

theorem phase_terminal_iff (hmatch : phaseMatchesIncident r.phase r.incident = true) :
    r.incident.state.terminal = true ↔ r.phase = .terminal := by
  cases hphase : r.phase with
  | other text unnamed =>
    rw [hphase] at hmatch
    cases hmatch
  | candidate =>
    rw [hphase] at hmatch
    simp [of_decide_eq_true hmatch, IncidentState.terminal]
  | confirmed =>
    rw [hphase] at hmatch
    simp [of_decide_eq_true hmatch, IncidentState.terminal]
  | recovering =>
    simp only [hphase, phaseMatchesIncident, Bool.or_eq_true, decide_eq_true_eq] at hmatch
    rcases hmatch with h | h
    · simp [h, IncidentState.terminal]
    · simp [h, IncidentState.terminal]
  | terminal =>
    simp only [hphase, phaseMatchesIncident, Bool.or_eq_true, decide_eq_true_eq] at hmatch
    rcases hmatch with h | h
    · simp [h, IncidentState.terminal]
    · simp [h, IncidentState.terminal]

theorem advance_terminal (hmatch : phaseMatchesIncident r.phase r.incident = true)
    (hactive : r.phase ≠ .terminal) :
    ((advance r signal).incident.state.terminal = true ↔
        Ends r signal.observation.normalizedState) ∧
      (Ends r signal.observation.normalizedState →
        (advance r signal).incident.terminalAt = signal.observation.observedAt) := by
  have hraised : (raised r signal.severity).incident.state = r.incident.state := raised_state r _
  unfold advance advanceUnhealthy advanceHealthy Ends Closes
  rw [if_neg hactive, raised_phase]
  cases hphase : r.phase with
  | terminal => exact absurd hphase hactive
  | other text unnamed =>
    rw [hphase] at hmatch
    cases hmatch
  | candidate =>
    rw [hphase] at hmatch
    have hstate := of_decide_eq_true hmatch
    split <;> simp [PersistedIncident.moved, IncidentState.terminal]
  | confirmed =>
    rw [hphase] at hmatch
    have hstate := of_decide_eq_true hmatch
    split <;> simp [PersistedIncident.moved, IncidentState.terminal, hraised, hstate]
  | recovering =>
    rw [hphase] at hmatch
    simp only [phaseMatchesIncident, Bool.or_eq_true, decide_eq_true_eq] at hmatch
    rw [hraised]
    rcases hmatch with hstate | hstate
    · split <;> simp [PersistedIncident.moved, IncidentState.terminal, hstate]
    · split <;> simp [PersistedIncident.moved, IncidentState.terminal, hstate]

end Transition

/-! ## One call -/

section Call

variable {c : Correlator} {signal : Signal} {s : Store} {key document : Bytes}
  {r : PersistedIncident}

theorem content_incident (hvalid : validateRecord r = .ok ())
    (hmarshal : PersistedIncident.codec.marshal r = some document) :
    ∃ r', content PersistedIncident.codec document = some r' ∧
      r'.incident.state = r.incident.state ∧ r'.incident.openedAt = r.incident.openedAt ∧
      r'.incident.terminalAt = r.incident.terminalAt := by
  have hincident := (validateRecord_ok.mp hvalid).2.2.2.2.1
  have hstate := (Incident.validate_ok.mp (isOk_iff.mp hincident)).2.2.2.1.1
  exact ⟨_, content_marshal hmarshal, IncidentState.norm_of_valid hstate, rfl, rfl⟩

theorem matchesActiveRecord_spec {o : HealthObservation} (h : matchesActiveRecord r o = true) :
    r.phase ≠ .terminal ∧ r.incident.openedAt ≤ o.observedAt := by
  simp only [matchesActiveRecord, Bool.and_eq_true, decide_eq_true_eq] at h
  exact ⟨h.1.1.1, h.2⟩

theorem Routed.opened_le {o : HealthObservation} (h : Routed c o s key r)
    (hwindow : Loads s (c.dedupeKey o) r → r.incident.openedAt ≤ o.observedAt) :
    r.incident.openedAt ≤ o.observedAt := by
  cases h with
  | window hloads => exact hwindow hloads
  | active hnone hhealthy hfound =>
    have hmem := latestOf_mem (findActiveRecord_ok.mp hfound).2.2
    exact (matchesActiveRecord_spec (mem_activeRecords.mp hmem).2).2

theorem applied_times (hloads : Loads s key r) (inputKey : Bytes) :
    (applied r inputKey signal).incident.openedAt = r.incident.openedAt ∧
    (r.phase = .terminal → (applied r inputKey signal).incident = r.incident) ∧
    (r.phase ≠ .terminal →
      ((applied r inputKey signal).incident.state.terminal = true ↔
        Ends r signal.observation.normalizedState) ∧
      (Ends r signal.observation.normalizedState →
        (applied r inputKey signal).incident.terminalAt = signal.observation.observedAt)) := by
  refine ⟨(applied_spec hloads.matches inputKey).1.openedAt, ?_, ?_⟩
  · intro hterminal
    unfold applied advance
    rw [if_pos hterminal]
  · intro hactive
    exact advance_terminal (r := { r with seenInputs := _ }) hloads.matches hactive

theorem not_ends_of_terminal (hloads : Loads s key r) (hterminal : r.phase = .terminal)
    (state : NormalizedState) : ¬Ends r state := by
  have hstate := (phase_terminal_iff hloads.matches).mpr hterminal
  intro hends
  unfold Ends Closes at hends
  rw [hterminal] at hends
  split at hends
  · cases hends
  · rcases hends with h | h
    · cases h
    · rw [h] at hstate
      cases hstate

theorem Change.ends_after_iff (h : Change c signal s key r) (hs : EndsAfterOpening s) :
    (r.incident.state.terminal = true → r.incident.openedAt ≤ r.incident.terminalAt) ↔
      ∀ old, Loads s (c.dedupeKey signal.observation) old →
        Ends old signal.observation.normalizedState →
        old.incident.openedAt ≤ signal.observation.observedAt := by
  cases h with
  | opened id hnone =>
    constructor
    · rintro - old ⟨document, hdocument, -⟩
      rw [hnone] at hdocument
      cases hdocument
    · rintro - ⟨⟩
  | @applied _ old hroute hnew =>
    obtain ⟨hopened, hended, hmoved⟩ :=
      @applied_times signal _ _ _ hroute.loads (signalInputKey signal)
    rw [hopened]
    constructor
    · intro hafter old' hold' hends
      -- only the record of the window is concerned, and that is where the signal went
      cases hroute with
      | active hnone =>
        obtain ⟨document, hdocument, -⟩ := hold'
        rw [hnone] at hdocument
        cases hdocument
      | window hloads =>
        cases hold'.unique hloads
        have hactive : old.phase ≠ .terminal := fun ht => not_ends_of_terminal hloads ht _ hends
        have hle := hafter ((hmoved hactive).1.mpr hends)
        rwa [(hmoved hactive).2 hends] at hle
    · intro horder hterminal
      by_cases hphase : old.phase = .terminal
      · rw [hended hphase] at hterminal ⊢
        obtain ⟨document, hdocument, hdecode⟩ := hroute.loads
        exact hs _ document old hdocument
          (content_of_decode (decodeRecord_ok.mp hdecode)).1 hterminal
      · have hends := (hmoved hphase).1.mp hterminal
        rw [(hmoved hphase).2 hends]
        exact hroute.opened_le fun hloads => horder old hloads hends

/-- The step lemma: a call that changes the store keeps the order of times exactly when its
signal is in order. -/
theorem endsAfterOpening_ingest_iff (hs : EndsAfterOpening s) (call : Call)
    (hchanged : (ingest call s).2 ≠ s) :
    EndsAfterOpening (ingest call s).2 ↔ InOrder call s := by
  rcases ingest_cases call s with hsame | ⟨key, r, document, hchange, -, hvalid, hmarshal, hs'⟩
  · exact absurd hsame hchanged
  obtain ⟨r', hcontent, hstate, hopened, hterminal⟩ := content_incident hvalid hmarshal
  have hiff := hchange.ends_after_iff hs
  rw [← hstate, ← hopened, ← hterminal] at hiff
  rw [hs']
  refine Iff.trans ?_ hiff
  constructor
  · intro hafter
    exact hafter key document r' (by rw [withIncident_get, if_pos rfl]) hcontent
  · intro hnew k d r'' hd hr''
    rw [withIncident_get] at hd
    split at hd
    · cases hd
      cases hcontent.symm.trans hr''
      exact hnew
    · exact hs k d r'' hd hr''

end Call

/-! ## Runs -/

inductive OrderedStep (s : Store) : Store → Prop
  | ingest (call : Call) (horder : InOrder call s) : OrderedStep s (ingest call s).2

theorem endsAfterOpening_of_run {s s' : Store} (hs : EndsAfterOpening s)
    (hrun : ReflTransGen OrderedStep s s') : EndsAfterOpening s' := by
  induction hrun with
  | refl => exact hs
  | @tail t _ _ hstep ih =>
    cases hstep with
    | ingest call horder =>
      by_cases hchanged : (ingest call t).2 = t
      · rw [hchanged]
        exact ih
      · exact (endsAfterOpening_ingest_iff ih call hchanged).mpr horder

/-- In every run of signals in order each incident ends no earlier than it was opened, and a
signal that is not in order breaks this as soon as it is stored. -/
theorem ends_after_opening {start s : Store} (hempty : start .incidents = ∅)
    (hrun : ReflTransGen OrderedStep start s) :
    EndsAfterOpening s ∧ ∀ call : Call, (ingest call s).2 ≠ s →
      (EndsAfterOpening (ingest call s).2 ↔ InOrder call s) := by
  have hstart : EndsAfterOpening start := by
    intro key document r hdocument
    rw [hempty, Std.ExtTreeMap.getElem?_empty] at hdocument
    cases hdocument
  have hs := endsAfterOpening_of_run hstart hrun
  exact ⟨hs, endsAfterOpening_ingest_iff hs⟩

theorem Loads.of_all {s : Store} {key : Bytes} {p : PersistedIncident → Bool}
    (h : (((s .incidents)[key]?).bind fun document =>
      (decodeRecord document).toOption).all p = true)
    {r : PersistedIncident} (hr : Loads s key r) : p r = true := by
  obtain ⟨document, hdocument, hdecode⟩ := hr
  rwa [hdocument, Option.bind_some, hdecode] at h

theorem inOrder_of_stored {call : Call} {s : Store}
    (h : (((s .incidents)[call.correlator.dedupeKey call.signal.observation]?).bind fun document =>
      (decodeRecord document).toOption).all (fun r =>
        r.incident.openedAt ≤ call.signal.observation.observedAt) = true) : InOrder call s :=
  fun _ hr _ => of_decide_eq_true (hr.of_all h)

theorem sample_ends_after_opening :
    let opened := (ingest (sampleCall (lit "o-1") .unhealthy 63900000000000000000) Store.empty).2
    let closing := sampleCall (lit "o-2") .healthy 63900000060000000000
    ((ingest closing opened).2 .incidents).toList.map (fun entry =>
        (content PersistedIncident.codec entry.2).map fun r =>
          (r.incident.state, r.incident.openedAt, r.incident.terminalAt)) =
      [some (.closed, 63900000000000000000, 63900000060000000000)] ∧
    EndsAfterOpening (ingest closing opened).2 ∧
    ∀ call : Call, (ingest call opened).2 ≠ opened →
      (EndsAfterOpening (ingest call opened).2 ↔ InOrder call opened) := by
  intro opened closing
  have hopened : Relation.ReflTransGen OrderedStep Store.empty opened :=
    .single (.ingest _ (inOrder_of_stored (by decide +kernel)))
  have hclosed : OrderedStep opened (ingest closing opened).2 :=
    .ingest closing (inOrder_of_stored (by decide +kernel))
  exact ⟨by decide +kernel, (ends_after_opening rfl (hopened.tail hclosed)).1,
    (ends_after_opening rfl hopened).2⟩

/-- An unhealthy signal opens an incident; a healthy one of a minute earlier, which arrives after
it, closes that incident a minute before it was opened. -/
theorem late_signal_ends_before_opening :
    ((ingest (sampleCall (lit "o-2") .healthy 63900000000000000000)
      (ingest (sampleCall (lit "o-1") .unhealthy 63900000060000000000) Store.empty).2).2
        .incidents).toList.map (fun entry => (content PersistedIncident.codec entry.2).map fun r =>
          (r.incident.state, r.incident.openedAt, r.incident.terminalAt)) =
      [some (.closed, 63900000060000000000, 63900000000000000000)] := by
  decide +kernel

end PulseAgent.Correlator
