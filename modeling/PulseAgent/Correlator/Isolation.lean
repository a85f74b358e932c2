import PulseAgent.Correlator.Lifecycle

/-!
# Incidents of different targets and rules

The incident found under a key is the signal's own as long as no two pairs of a run are joined to
the same text and every text survives its way through JSON.
-/

namespace PulseAgent.Correlator

open Go Go.Json Contract

theorem sep_append_inj {α : Type} {sep : α} {x y r r' : List α} (hr : sep ∉ r) (hr' : sep ∉ r')
    (h : x ++ sep :: r = y ++ sep :: r') : x = y ∧ r = r' := by
  have hreverse : r.reverse ++ sep :: x.reverse = r'.reverse ++ sep :: y.reverse := by
    simpa using congrArg List.reverse h
  obtain ⟨hrest, hfront⟩ := Strings.append_sep_inj (by simpa using hr) (by simpa using hr') hreverse
  exact ⟨List.reverse_injective hfront, List.reverse_injective hrest⟩

def pairText (o : HealthObservation) : Bytes := o.targetID ++ lit "/" ++ o.ruleID

theorem pairText_of_dedupeKey {c c' : Correlator} {o o' : HealthObservation}
    (h : c.dedupeKey o = c'.dedupeKey o') : pairText o = pairText o' := by
  have hslash : lit "/" = [47] := by decide
  have hkey : ∀ (c : Correlator) (o : HealthObservation), c.dedupeKey o =
      pairText o ++ 47 :: Decimal.formatInt (c.windowStart o.observedAt).unixNano.toInt := by
    intro c o
    simp [dedupeKey, pairText, hslash]
  rw [hkey, hkey] at h
  exact (sep_append_inj (Decimal.slash_not_mem_formatInt _) (Decimal.slash_not_mem_formatInt _) h).1

/-- Two observations whose joined texts agree are of one target and rule. -/
def Unambiguous (o o' : HealthObservation) : Prop :=
  pairText o = pairText o' → o.targetID = o'.targetID ∧ o.ruleID = o'.ruleID

theorem unambiguous_of_no_slash {o o' : HealthObservation} (h : (47 : UInt8) ∉ o.ruleID)
    (h' : (47 : UInt8) ∉ o'.ruleID) : Unambiguous o o' := by
  have hslash : lit "/" = [47] := by decide
  intro heq
  unfold pairText at heq
  rw [hslash, List.append_assoc, List.append_assoc] at heq
  exact sep_append_inj h h' heq

def Own (o : HealthObservation) (i : Incident) : Prop :=
  i.targetID = o.targetID ∧ elems i.ruleIDs = [o.ruleID]

/-- The call neither modifies nor returns an incident of another target or rule. -/
structure Isolated (call : Call) (s : Store) : Prop where
  returned : ∀ result, (ingest call s).1 = .ok result → result.ignored = false →
    Own call.signal.observation result.incident
  modified : ∀ key r, Loads s key r →
    ((ingest call s).2 .incidents)[key]? ≠ (s .incidents)[key]? →
    Own call.signal.observation r.incident

section Step

variable {call : Call} {s : Store}

/-- The record a call goes to: one it finds, or a free key under which it opens one. -/
inductive GoesTo (call : Call) (s : Store) (key : Bytes) : Prop
  | found {r : PersistedIncident} (h : Routed call.correlator call.signal.observation s key r)
  | opens (hkey : key = call.correlator.dedupeKey call.signal.observation)
      (hnone : (s .incidents)[key]? = none)
      (hunhealthy : call.signal.observation.normalizedState ≠ .healthy)

/-- Only the window path can reach a foreign record: the scan compares target and rule. -/
theorem own_of_routed {key : Bytes} {r : PersistedIncident}
    (h : Routed call.correlator call.signal.observation s key r)
    (hwindow : ∀ r, Loads s (call.correlator.dedupeKey call.signal.observation) r →
      Own call.signal.observation r.incident) : Own call.signal.observation r.incident := by
  cases h with
  | window hloads => exact hwindow r hloads
  | active hnone hhealthy hfound =>
    have hmem := latestOf_mem (findActiveRecord_ok.mp hfound).2.2
    have hmatch := (mem_activeRecords.mp hmem).2
    simp only [matchesActiveRecord, Bool.and_eq_true, decide_eq_true_eq] at hmatch
    exact ⟨hmatch.1.1.2, hmatch.1.2⟩

theorem Own.kept {o : HealthObservation} {r r' : PersistedIncident} (h : Own o r.incident)
    (hkept : Kept r r') : Own o r'.incident :=
  ⟨hkept.targetID.trans h.1, (congrArg elems hkept.ruleIDs).trans h.2⟩

theorem own_of_kept {o : HealthObservation} {r r' : PersistedIncident} (hkept : Kept r r')
    (h : Own o r'.incident) : Own o r.incident :=
  ⟨hkept.targetID.symm.trans h.1, (congrArg elems hkept.ruleIDs).symm.trans h.2⟩

theorem isolated_of_window
    (hwindow : ∀ r, Loads s (call.correlator.dedupeKey call.signal.observation) r →
      Own call.signal.observation r.incident) : Isolated call s := by
  refine ⟨?_, ?_⟩
  · intro result hresult hnot
    obtain ⟨s', hs'⟩ : ∃ s', (ingest call s).2 = s' := ⟨_, rfl⟩
    obtain ⟨filled, hsignal, -, hcommit⟩ := ingest_ok.mp (Prod.ext hresult hs')
    obtain ⟨rfl, -, -⟩ := validateSignal_ok hsignal
    cases ingested_of_ok hcommit with
    | ignored => cases hnot
    | duplicate hroute => exact own_of_routed hroute hwindow
    | applied hroute =>
      exact (own_of_routed hroute hwindow).kept (applied_spec hroute.loads.matches _).1
    | opened => exact ⟨rfl, rfl⟩
  · intro key r hloads hchanged
    rcases ingest_cases call s with hsame | ⟨key', r', document, hchange, -, -, -, hs'⟩
    · rw [hsame] at hchanged
      exact absurd rfl hchanged
    rw [hs', withIncident_get] at hchanged
    split at hchanged
    case isFalse => exact absurd rfl hchanged
    case isTrue heq =>
      subst heq
      cases hchange with
      | applied hroute hnew =>
        rw [hloads.unique hroute.loads]
        exact own_of_routed hroute hwindow
      | opened id hnone =>
        obtain ⟨d, hd, -⟩ := hloads
        rw [hnone] at hd
        cases hd

/-- One successful call is isolated exactly if the record in the window of its signal, when there
is one, is of the signal's target and rule. -/
theorem isolated_iff {result : Result} (h : (ingest call s).1 = .ok result) :
    Isolated call s ↔ ∀ r, Loads s (call.correlator.dedupeKey call.signal.observation) r →
      Own call.signal.observation r.incident := by
  constructor
  · intro hisolated r hloads
    obtain ⟨filled, hsignal, -, hcommit⟩ := ingest_ok.mp (Prod.ext h rfl)
    obtain ⟨rfl, -, -⟩ := validateSignal_ok hsignal
    have hroute : Routed call.correlator call.signal.withDefaults.observation s _ r :=
      .window hloads
    have hupdate := (ingestTx_of_routed hroute).symm.trans hcommit
    rcases updateRecord_ok.mp hupdate with ⟨-, rfl, -⟩ | ⟨-, -, rfl⟩
    · exact hisolated.returned _ h rfl
    · exact own_of_kept (applied_spec hloads.matches _).1 (hisolated.returned _ h rfl)
  · exact isolated_of_window

end Step

/-! ## Runs -/

def runCalls (calls : List Call) (s : Store) : Store :=
  calls.foldl (fun s call => (ingest call s).2) s

/-- Every incident was opened by one of the calls, and is of that call's target and rule. -/
def OpenedBy (calls : List Call) (s : Store) : Prop :=
  ∀ key r, Loads s key r → ∃ call ∈ calls,
    key = call.correlator.dedupeKey call.signal.observation ∧
      Own call.signal.observation r.incident

section Run

variable {call : Call} {calls : List Call} {s : Store}

theorem OpenedBy.mono {calls' : List Call} (h : OpenedBy calls s) (hsub : calls ⊆ calls') :
    OpenedBy calls' s := by
  intro key r hr
  obtain ⟨call', hmem, hkey, hown⟩ := h key r hr
  exact ⟨call', hsub hmem, hkey, hown⟩

theorem own_newCandidate {signal : Signal} (htext : signal.ValidText)
    (dedupeKey inputKey id : Bytes) :
    Own signal.observation
      (PersistedIncident.codec.norm (newCandidate signal dedupeKey inputKey id)).incident :=
  ⟨Utf8.toValidUTF8_of_valid htext.1, congrArg (fun x => [x]) (Utf8.toValidUTF8_of_valid htext.2)⟩

theorem openedBy_step (hs : OpenedBy calls s) (htext : call.signal.ValidText) :
    OpenedBy (calls ++ [call]) (ingest call s).2 := by
  have hold := hs.mono (List.subset_append_left calls [call])
  rcases ingest_cases call s with hsame
    | ⟨key, r, document, hchange, hseverity, hvalid, hmarshal, hs'⟩
  · rw [hsame]
    exact hold
  rw [hs']
  intro k r' hr'
  by_cases hk : k = key
  · subst hk
    obtain ⟨d, hd, hdecode⟩ := hr'
    rw [withIncident_get, if_pos rfl] at hd
    cases hd
    have hback := (decodeRecord_marshal hvalid (hchange.seen_norm hseverity) hmarshal).mpr
      (decodeRecord_length hdecode)
    cases hdecode.symm.trans hback
    cases hchange with
    | applied hroute hnew =>
      obtain ⟨hnorm, hkept, -⟩ := Change.kept (.applied hroute hnew) hseverity hroute.loads
      obtain ⟨call', hmem, hkey, hown⟩ := hold k _ hroute.loads
      rw [hnorm]
      exact ⟨call', hmem, hkey, hown.kept hkept⟩
    | opened id hnone =>
      have hown := own_newCandidate (Signal.withDefaults_validText htext)
        (call.correlator.dedupeKey call.signal.withDefaults.observation)
        (signalInputKey call.signal.withDefaults) id
      exact ⟨call, List.mem_append_right _ List.mem_cons_self, rfl, hown⟩
  · exact hold k r' ((loads_withIncident_of_ne hk).mp hr')

theorem runCalls_concat (calls : List Call) (call : Call) (s : Store) :
    runCalls (calls ++ [call]) s = (ingest call (runCalls calls s)).2 := by
  unfold runCalls
  rw [List.foldl_append]
  rfl

theorem openedBy_run {start : Store} (hempty : start .incidents = ∅)
    (htext : ∀ call ∈ calls, call.signal.ValidText) : OpenedBy calls (runCalls calls start) := by
  induction calls using List.reverseRecOn with
  | nil =>
    intro key r hr
    obtain ⟨document, hdocument, -⟩ := hr
    rw [runCalls, List.foldl_nil, hempty] at hdocument
    cases Std.ExtTreeMap.getElem?_empty.symm.trans hdocument
  | append_singleton calls call ih =>
    rw [runCalls_concat]
    exact openedBy_step (ih fun c hc => htext c (List.mem_append_left _ hc))
      (htext call (List.mem_append_right _ List.mem_cons_self))

theorem own_of_openedBy (hs : OpenedBy calls s)
    (hunambiguous : ∀ other ∈ calls, Unambiguous other.signal.observation call.signal.observation)
    {r : PersistedIncident}
    (hr : Loads s (call.correlator.dedupeKey call.signal.observation) r) :
    Own call.signal.observation r.incident := by
  obtain ⟨other, hmem, hkey, hown⟩ := hs _ r hr
  obtain ⟨htarget, hrule⟩ := hunambiguous other hmem (pairText_of_dedupeKey hkey.symm)
  exact ⟨hown.1.trans htarget, hrule ▸ hown.2⟩

theorem pairText_of_goesTo (hs : OpenedBy calls s) {key : Bytes} (h : GoesTo call s key) :
    ∃ (c : Correlator) (o : HealthObservation), key = c.dedupeKey o ∧
      pairText o = pairText call.signal.observation := by
  cases h with
  | opens hkey => exact ⟨call.correlator, call.signal.observation, hkey, rfl⟩
  | found hroute =>
    cases hroute with
    | window => exact ⟨call.correlator, call.signal.observation, rfl, rfl⟩
    | active hnone hhealthy hfound =>
      have hmem := latestOf_mem (findActiveRecord_ok.mp hfound).2.2
      obtain ⟨hloads, hmatch⟩ := mem_activeRecords.mp hmem
      simp only [matchesActiveRecord, Bool.and_eq_true, decide_eq_true_eq] at hmatch
      obtain ⟨⟨⟨-, htarget⟩, hrules⟩, -⟩ := hmatch
      obtain ⟨other, -, hkey, hown⟩ := hs key _ hloads
      refine ⟨other.correlator, other.signal.observation, hkey, ?_⟩
      have hrule := List.singleton_inj.mp (hown.2.symm.trans hrules)
      unfold pairText
      rw [hown.1.symm.trans htarget, hrule]

end Run

/-- Incident isolation. A successful call is isolated exactly if the record in its signal's window
is of its target and rule. In a run whose signals are valid UTF-8 and of which no two pairs of
target and rule are joined to one text, every call is isolated, and two calls that go to the same
record are of the same target and rule. -/
theorem incident_isolation {start : Store} (hempty : start .incidents = ∅) (calls : List Call) :
    (∀ (call : Call) (s : Store) (result : Result), (ingest call s).1 = .ok result →
      (Isolated call s ↔ ∀ r, Loads s (call.correlator.dedupeKey call.signal.observation) r →
        Own call.signal.observation r.incident)) ∧
    ((∀ call ∈ calls, call.signal.ValidText) →
      (∀ a ∈ calls, ∀ b ∈ calls, Unambiguous a.signal.observation b.signal.observation) →
      (∀ before call after, calls = before ++ call :: after →
        Isolated call (runCalls before start)) ∧
      (∀ before a between b after, calls = before ++ a :: between ++ b :: after → ∀ key,
        GoesTo a (runCalls before start) key →
          GoesTo b (runCalls (before ++ a :: between) start) key →
        a.signal.observation.targetID = b.signal.observation.targetID ∧
          a.signal.observation.ruleID = b.signal.observation.ruleID)) := by
  refine ⟨fun call s result h => isolated_iff h, ?_⟩
  intro htext hunambiguous
  refine ⟨?_, ?_⟩
  · rintro before call after rfl
    have hopened : OpenedBy before (runCalls before start) :=
      openedBy_run hempty fun c hc => htext c (List.mem_append_left _ hc)
    refine isolated_of_window fun r hr => own_of_openedBy hopened (fun other hother => ?_) hr
    exact hunambiguous other (List.mem_append_left _ hother) call (by simp)
  · rintro before a between b after rfl key ha hb
    have hfirst : OpenedBy before (runCalls before start) :=
      openedBy_run hempty fun c hc => htext c (by simp [hc])
    have hsecond : OpenedBy (before ++ a :: between) (runCalls (before ++ a :: between) start) :=
      openedBy_run hempty fun c hc => htext c (List.mem_append_left _ hc)
    obtain ⟨c, o, hkey, hpair⟩ := pairText_of_goesTo hfirst ha
    obtain ⟨c', o', hkey', hpair'⟩ := pairText_of_goesTo hsecond hb
    have hsame := pairText_of_dedupeKey (hkey.symm.trans hkey')
    exact hunambiguous a (by simp) b (by simp) (hpair.symm.trans (hsame.trans hpair'))

def pairCall (targetID ruleID : Bytes) : Call where
  correlator := sampleCorrelator
  signal :=
    { observation :=
        { schemaVersion := schemaVersionV1
          observationID := targetID
          targetID := targetID
          ruleID := ruleID
          observedAt := 63900000000000000000
          normalizedState := .unhealthy } }
  newID := .ok (lit "incident-1")

theorem sample_incident_isolation : Isolated (pairCall (lit "a") (lit "d"))
    (runCalls [pairCall (lit "a/b") (lit "c")] Store.empty) := by
  refine ((@incident_isolation Store.empty rfl
    [pairCall (lit "a/b") (lit "c"), pairCall (lit "a") (lit "d")]).2 ?_ ?_).1 [_] _ [] rfl
  · simp only [List.forall_mem_cons, List.not_mem_nil, false_imp_iff, implies_true, and_true]
    exact ⟨⟨by decide +kernel, by decide +kernel⟩, by decide +kernel, by decide +kernel⟩
  · simp only [List.forall_mem_cons, List.not_mem_nil, false_imp_iff, implies_true, and_true]
    refine ⟨⟨?_, ?_⟩, ?_, ?_⟩ <;> exact unambiguous_of_no_slash (by decide) (by decide)

/-- The rule "c" of the target "a/b" and the rule "b/c" of the target "a" share an incident. -/
theorem slash_shares_incident :
    (ingest (pairCall (lit "a") (lit "b/c")) (ingest (pairCall (lit "a/b") (lit "c"))
      Store.empty).2).1.toOption.map (fun r => (r.incident.targetID, r.phase)) =
      some (lit "a/b", .confirmed) := by
  decide +kernel

end PulseAgent.Correlator
