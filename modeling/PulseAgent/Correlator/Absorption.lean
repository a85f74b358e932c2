import PulseAgent.Correlator.Order

/-!
# Signals that reach an ended incident

A record that has ended takes every further signal of its window. A relapse therefore opens nothing,
and a healthy signal does not reach the incident of another window that is still active.
-/

namespace PulseAgent.Correlator

open Go Go.Json Contract

/-- The record of the signal's window has ended and has not seen the signal yet. -/
def Ended (call : Call) (s : Store) : Prop :=
  ∃ r, Loads s (call.correlator.dedupeKey call.signal.observation) r ∧
    r.incident.state.terminal = true ∧
    signalInputKey call.signal.withDefaults ∉ elems r.seenInputs

def Modified (s s' : Store) (key : Bytes) (r : PersistedIncident) : Prop :=
  Loads s key r ∧ (s' .incidents)[key]? ≠ (s .incidents)[key]?

/-- What an unhealthy signal does to the incident it reaches: confirms it, keeps it open, or makes
its recovery fail. -/
def Worsened (r : PersistedIncident) (result : Result) : Prop :=
  (r.phase = .candidate ∧ result.phase = .confirmed) ∨
    (r.phase = .confirmed ∧ result.phase = .confirmed) ∨
    (r.phase = .recovering ∧ result.incident.state = .failed)

/-- The incident that a call returns had not ended; an unhealthy signal opened it or worsened it,
and a healthy one moved an incident along wherever one of its target and rule was active. -/
structure Heard (call : Call) (s : Store) (result : Result) (s' : Store) : Prop where
  active : ∀ key r, Modified s s' key r → r.incident.state.terminal = false
  unhealthy : call.signal.observation.normalizedState = .unhealthy →
    (result.phase = .candidate ∧
      (s .incidents)[call.correlator.dedupeKey call.signal.observation]? = none) ∨
      ∃ key r, Modified s s' key r ∧ Worsened r result
  healthy : call.signal.observation.normalizedState = .healthy →
    (∃ key r, Loads s key r ∧ matchesActiveRecord r call.signal.observation = true) →
    ∃ key r, Modified s s' key r ∧
      r.incident.state.canTransitionTo result.incident.state = true

/-! ## Transitions of an active record -/

section

variable {r : PersistedIncident} {signal : Signal}

theorem advance_worsens (hmatch : phaseMatchesIncident r.phase r.incident = true)
    (hactive : r.phase ≠ .terminal) (hunhealthy : signal.observation.normalizedState = .unhealthy)
    (inputKey : Bytes) : Worsened r ((applied r inputKey signal).result false) := by
  unfold Worsened applied advance advanceUnhealthy PersistedIncident.result
  rw [if_neg hactive, if_pos hunhealthy, raised_phase]
  cases hphase : r.phase with
  | terminal => exact absurd hphase hactive
  | other text unnamed =>
    rw [hphase] at hmatch
    cases hmatch
  | candidate => exact .inl ⟨rfl, rfl⟩
  | confirmed => exact .inr (.inl ⟨rfl, raised_phase _ _⟩)
  | recovering => exact .inr (.inr ⟨rfl, rfl⟩)

theorem advance_moves (hmatch : phaseMatchesIncident r.phase r.incident = true)
    (hactive : r.phase ≠ .terminal) (hhealthy : signal.observation.normalizedState = .healthy)
    (inputKey : Bytes) :
    r.incident.state.canTransitionTo (applied r inputKey signal).incident.state = true := by
  have hnot : signal.observation.normalizedState ≠ .unhealthy := by
    rw [hhealthy]
    decide
  unfold applied advance advanceHealthy
  rw [if_neg hactive, if_neg hnot, raised_phase, raised_state]
  cases hphase : r.phase with
  | terminal => exact absurd hphase hactive
  | other text unnamed =>
    rw [hphase] at hmatch
    cases hmatch
  | candidate =>
    rw [hphase] at hmatch
    rw [of_decide_eq_true hmatch]
    rfl
  | confirmed =>
    rw [hphase] at hmatch
    rw [of_decide_eq_true hmatch]
    rfl
  | recovering =>
    rw [hphase] at hmatch
    simp only [phaseMatchesIncident, Bool.or_eq_true, decide_eq_true_eq] at hmatch
    rcases hmatch with hstate | hstate
    · rw [hstate]
      rfl
    · rw [hstate]
      rfl

end

/-! ## One call -/

section

variable {call : Call} {s s' : Store} {key : Bytes} {r : PersistedIncident}

theorem modified_of_applied {signal : Signal} (hseverity : Severity.named signal.severity)
    (hloads : Loads s key r) (hnew : signalInputKey signal ∉ elems r.seenInputs)
    (hput : putRecord key (applied r (signalInputKey signal) signal) s = .ok ((), s')) :
    Modified s s' key r := by
  obtain ⟨-, -, document', hmarshal, rfl⟩ := putRecord_ok.mp hput
  refine ⟨hloads, ?_⟩
  obtain ⟨document, hdocument, hdecode⟩ := hloads
  rw [withIncident_get, if_pos rfl, hdocument]
  rintro ⟨⟩
  have hwritten := content_marshal hmarshal
  rw [norm_applied (decodeRecord_spec hdecode).2 hseverity] at hwritten
  have hsame := Option.some.inj
    (hwritten.symm.trans (content_of_decode (decodeRecord_ok.mp hdecode)).1)
  have hlast : (elems r.seenInputs).getLast? = some (signalInputKey signal) := by
    rw [← hsame, applied, advance_seenInputs, elems, Option.getD_some]
    exact getLast_appendBounded _ _
  exact hnew (List.mem_of_getLast? hlast)

theorem eq_of_modified {document : Bytes} {k : Bytes} {old : PersistedIncident}
    (h : Modified s (withIncident s key document) k old) : k = key := by
  by_contra hne
  exact h.2 (by rw [withIncident_get, if_neg hne])

theorem latestOf_eq_none {found : List (Bytes × PersistedIncident)} (h : latestOf found = none) :
    found = [] := by
  have hfold : ∀ (found : List (Bytes × PersistedIncident)) l,
      ∃ l', found.foldl laterOf (some l) = some l' := by
    intro found
    induction found with
    | nil => exact fun l => ⟨l, rfl⟩
    | cons x found ih =>
      intro l
      rw [List.foldl_cons, laterOf]
      split
      · exact ih x
      · exact ih l
  cases found with
  | nil => rfl
  | cons x found =>
    obtain ⟨l, hl⟩ := hfold found x
    cases hl.symm.trans h

theorem Heard.of_ignored (hhealthy : call.signal.observation.normalizedState = .healthy)
    (hfound : findActiveRecord call.signal.observation s = .ok (none, s)) :
    Heard call s { ignored := true } s := by
  refine ⟨fun key r h => absurd rfl h.2, fun h => ?_, ?_⟩
  · rw [hhealthy] at h
    cases h
  · rintro - ⟨key, r, hactive⟩
    have hmem := mem_activeRecords.mpr hactive
    rw [latestOf_eq_none (findActiveRecord_ok.mp hfound).2.2] at hmem
    cases hmem

theorem heard_applied_iff (hseverity : Severity.named call.signal.withDefaults.severity)
    (hroute : Routed call.correlator call.signal.observation s key r)
    (hnew : signalInputKey call.signal.withDefaults ∉ elems r.seenInputs)
    (hput : putRecord key (applied r (signalInputKey call.signal.withDefaults)
      call.signal.withDefaults) s = .ok ((), s')) :
    Heard call s ((applied r (signalInputKey call.signal.withDefaults)
        call.signal.withDefaults).result false) s' ↔ r.incident.state.terminal = false := by
  have hmodified := modified_of_applied hseverity hroute.loads hnew hput
  constructor
  · intro h
    exact h.active key r hmodified
  · intro hactive
    have hphase : r.phase ≠ .terminal := by
      intro hterminal
      rw [(phase_terminal_iff hroute.loads.matches).mpr hterminal] at hactive
      cases hactive
    refine ⟨?_, fun hunhealthy => .inr ⟨key, r, hmodified, ?_⟩, fun hhealthy _ =>
      ⟨key, r, hmodified, ?_⟩⟩
    · intro k old hold
      obtain ⟨-, -, document, -, rfl⟩ := putRecord_ok.mp hput
      cases eq_of_modified hold
      rw [hold.1.unique hroute.loads]
      exact hactive
    · exact @advance_worsens r call.signal.withDefaults hroute.loads.matches hphase hunhealthy _
    · exact @advance_moves r call.signal.withDefaults hroute.loads.matches hphase hhealthy _

end

theorem exists_of_isSome {call : Call} {s : Store}
    (h : (ingest call s).1.toOption.isSome = true) :
    ∃ result, ingest call s = (.ok result, (ingest call s).2) := by
  cases hresult : (ingest call s).1 with
  | error e =>
    rw [hresult] at h
    cases h
  | ok result => exact ⟨result, Prod.ext hresult rfl⟩

/-- The store after an unhealthy signal and, a minute later, a healthy one: the incident is
closed. -/
def closedStore : Store :=
  (ingest (sampleCall (lit "o-2") .healthy 63900000060000000000)
    (ingest (sampleCall (lit "o-1") .unhealthy 63900000000000000000) Store.empty).2).2

end PulseAgent.Correlator
