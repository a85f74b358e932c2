import PulseAgent.Go.TreeMap
import PulseAgent.Correlator.Lifecycle

/-!
# Replayed signals

An input is remembered in the record it was applied to, so a signal that is delivered again is
recognised only if it goes to the same record again.
-/

namespace PulseAgent.Correlator

open Go Go.Json Contract

/-! ## The scan after a record was rewritten -/

theorem foldl_laterOf_map {f : Bytes × PersistedIncident → Bytes × PersistedIncident}
    {found : List (Bytes × PersistedIncident)} {latest : Option (Bytes × PersistedIncident)}
    (hfound : ∀ x ∈ found, (f x).2.incident.openedAt = x.2.incident.openedAt)
    (hlatest : ∀ x ∈ latest, (f x).2.incident.openedAt = x.2.incident.openedAt) :
    (found.map f).foldl laterOf (latest.map f) = (found.foldl laterOf latest).map f := by
  induction found generalizing latest with
  | nil => rfl
  | cons x found ih =>
    have hx := hfound x List.mem_cons_self
    have hstep : laterOf (latest.map f) (f x) = (laterOf latest x).map f := by
      cases latest with
      | none => rfl
      | some l =>
        have hl := hlatest l rfl
        simp only [laterOf, Option.map_some, hl, hx]
        split <;> rfl
    rw [List.map_cons, List.foldl_cons, List.foldl_cons, hstep]
    refine ih (fun y hy => hfound y (List.mem_cons_of_mem x hy)) ?_
    intro y hy
    rcases laterOf_mem hy with h | rfl
    · exact hlatest y h
    · exact hx

theorem latestOf_map {f : Bytes × PersistedIncident → Bytes × PersistedIncident}
    {found : List (Bytes × PersistedIncident)}
    (h : ∀ x ∈ found, (f x).2.incident.openedAt = x.2.incident.openedAt) :
    latestOf (found.map f) = (latestOf found).map f :=
  @foldl_laterOf_map f found none h (by simp)

def activeRecords (s : Store) (o : HealthObservation) : List (Bytes × PersistedIncident) :=
  (s .incidents).toList.filterMap (activeRecord o)

section Rewritten

variable {s : Store} {o : HealthObservation} {key document : Bytes} {r r' : PersistedIncident}

theorem toList_withIncident (h : Loads s key r) :
    (withIncident s key document .incidents).toList =
      (s .incidents).toList.map fun entry => if entry.1 = key then (key, document) else entry := by
  obtain ⟨old, hold, -⟩ := h
  unfold withIncident
  rw [Function.update_self]
  exact TreeMap.toList_insert_of_some hold

theorem activeRecord_of_loads (h : Loads s key r) {entry : Bytes × Bytes}
    (hentry : entry ∈ (s .incidents).toList) (hkey : entry.1 = key) :
    activeRecord o entry = if matchesActiveRecord r o then some (key, r) else none := by
  obtain ⟨old, hold, hr⟩ := h
  obtain ⟨k, d⟩ := entry
  have hd := Std.ExtTreeMap.mem_toList_iff_getElem?_eq_some.mp hentry
  cases hkey
  cases hold.symm.trans hd
  unfold activeRecord
  rw [hr]

theorem activeRecord_fst {entry : Bytes × Bytes} {x : Bytes × PersistedIncident}
    (h : activeRecord o entry = some x) : x.1 = entry.1 := by
  unfold activeRecord at h
  split at h
  case h_1 =>
    split at h
    case isTrue =>
      cases h
      rfl
    case isFalse => cases h
  case h_2 => cases h

theorem activeRecords_still (h : Loads s key r) (hmatch : matchesActiveRecord r o = true)
    (hr' : decodeRecord document = .ok r') (hmatch' : matchesActiveRecord r' o = true) :
    activeRecords (withIncident s key document) o =
      (activeRecords s o).map fun x => if x.1 = key then (key, r') else x := by
  unfold activeRecords
  rw [toList_withIncident h, List.filterMap_map, List.map_filterMap]
  refine List.filterMap_congr fun entry hentry => ?_
  rw [Function.comp_apply]
  by_cases hkey : entry.1 = key
  · rw [if_pos hkey, activeRecord_of_loads h hentry hkey, hmatch, activeRecord, hr']
    simp [hmatch']
  · rw [if_neg hkey]
    cases hactive : activeRecord o entry with
    | none => rfl
    | some x =>
      have hfst := activeRecord_fst hactive
      rw [Option.map_some, if_neg (hfst ▸ hkey)]

theorem activeRecords_ended (h : Loads s key r) (hr' : decodeRecord document = .ok r')
    (hmatch' : matchesActiveRecord r' o = false) :
    activeRecords (withIncident s key document) o =
      (activeRecords s o).filter fun x => x.1 ≠ key := by
  unfold activeRecords
  rw [toList_withIncident h, List.filterMap_map, List.filter_filterMap]
  refine List.filterMap_congr fun entry hentry => ?_
  rw [Function.comp_apply]
  by_cases hkey : entry.1 = key
  · rw [if_pos hkey, activeRecord_of_loads h hentry hkey, activeRecord, hr']
    simp only [hmatch', Bool.false_eq_true, if_false]
    split <;> simp [Option.filter]
  · rw [if_neg hkey]
    cases hactive : activeRecord o entry with
    | none => rfl
    | some x =>
      have hfst := activeRecord_fst hactive
      simp [Option.filter, hfst, hkey]

theorem readable_withIncident (h : Loads s key r) (hread : Readable (s .incidents).toList) :
    Readable (withIncident s key document .incidents).toList ↔
      ∃ r', decodeRecord document = .ok r' := by
  rw [toList_withIncident h]
  unfold Readable
  rw [List.forall_mem_map]
  constructor
  · intro hall
    obtain ⟨old, hold, -⟩ := h
    have hentry := hall _ (Std.ExtTreeMap.mem_toList_iff_getElem?_eq_some.mpr hold)
    rw [if_pos rfl] at hentry
    exact hentry
  · intro hdocument entry hentry
    split
    · exact hdocument
    · exact hread entry hentry

end Rewritten

/-! ## The second delivery -/

/-- The record the signal goes to has seen it. -/
def Remembered (c : Correlator) (signal : Signal) (s : Store) : Prop :=
  ∃ key r, Routed c signal.observation s key r ∧ signalInputKey signal ∈ elems r.seenInputs

section Again

variable {c : Correlator} {newID : Except Error Bytes} {signal : Signal} {s : Store}

theorem duplicate_iff_remembered : (∃ result, ingestTx c newID signal s = .ok (result, s) ∧
    result.duplicate = true) ↔ Remembered c signal s := by
  constructor
  · rintro ⟨result, hcommit, hduplicate⟩
    cases ingested_of_ok hcommit with
    | ignored => cases hduplicate
    | duplicate hroute hseen => exact ⟨_, _, hroute, hseen⟩
    | applied => cases hduplicate
    | opened => cases hduplicate
  · rintro ⟨key, r, hroute, hseen⟩
    refine ⟨r.result true, ?_, rfl⟩
    rw [ingestTx_of_routed hroute]
    exact updateRecord_ok.mpr (.inl ⟨hseen, rfl, rfl⟩)

theorem remembered_of_window {document : Bytes}
    (h : (s .incidents)[c.dedupeKey signal.observation]? = some document) :
    Remembered c signal s ↔
      ∃ r, decodeRecord document = .ok r ∧ signalInputKey signal ∈ elems r.seenInputs := by
  constructor
  · rintro ⟨key, r, hroute, hseen⟩
    cases hroute with
    | window hloads =>
      obtain ⟨d, hd, hr⟩ := hloads
      cases h.symm.trans hd
      exact ⟨r, hr, hseen⟩
    | active hnone =>
      rw [h] at hnone
      cases hnone
  · rintro ⟨r, hr, hseen⟩
    exact ⟨_, r, .window ⟨document, h, hr⟩, hseen⟩

theorem remembered_of_active (h : (s .incidents)[c.dedupeKey signal.observation]? = none)
    (hhealthy : signal.observation.normalizedState = .healthy) :
    Remembered c signal s ↔ Readable (s .incidents).toList ∧
      ∃ found, latestOf (activeRecords s signal.observation) = some found ∧
        signalInputKey signal ∈ elems found.2.seenInputs := by
  constructor
  · rintro ⟨key, r, hroute, hseen⟩
    cases hroute with
    | window hloads =>
      obtain ⟨d, hd, -⟩ := hloads
      rw [h] at hd
      cases hd
    | active _ _ hfound =>
      obtain ⟨-, hread, hlatest⟩ := findActiveRecord_ok.mp hfound
      exact ⟨hread, (key, r), hlatest, hseen⟩
  · rintro ⟨hread, ⟨key, r⟩, hlatest, hseen⟩
    exact ⟨key, r, .active h hhealthy (findActiveRecord_ok.mpr ⟨rfl, hread, hlatest⟩), hseen⟩

end Again

/-! ## When a signal is recognised again -/

/-- The record is short enough to be read back. -/
def Fits (r : PersistedIncident) : Prop :=
  ∀ document, PersistedIncident.codec.marshal r = some document → document.length ≤ maxRecordBytes

/-- A healthy signal ends the incident. -/
def Closes (r : PersistedIncident) : Prop :=
  r.phase = .candidate ∨ r.incident.state = .stabilizing

/-- The record the signal is written to fits, and a healthy signal that ends the latest active
incident is already remembered by the one that is the latest after it. -/
def Repeatable (c : Correlator) (newID : Except Error Bytes) (signal : Signal) (s : Store) : Prop :=
  match (s .incidents)[c.dedupeKey signal.observation]? with
  | some document => ∀ r, decodeRecord document = .ok r →
    Fits (applied r (signalInputKey signal) signal)
  | none =>
    if signal.observation.normalizedState = .healthy then
      ∀ key r, latestOf (activeRecords s signal.observation) = some (key, r) →
        Fits (applied r (signalInputKey signal) signal) ∧
        (Closes r → ∃ next, latestOf ((activeRecords s signal.observation).filter
          fun x => x.1 ≠ key) = some next ∧ signalInputKey signal ∈ elems next.2.seenInputs)
    else ∀ id, newID = .ok id → Fits (newCandidate signal (c.dedupeKey signal.observation)
      (signalInputKey signal) id)

section Applied

variable {c : Correlator} {newID : Except Error Bytes} {signal : Signal} {s s' : Store}
  {r : PersistedIncident} {document key : Bytes}

theorem applied_ended_iff (hhealthy : signal.observation.normalizedState = .healthy)
    (hmatch : phaseMatchesIncident r.phase r.incident = true) (hactive : r.phase ≠ .terminal)
    (inputKey : Bytes) : (applied r inputKey signal).phase = .terminal ↔ Closes r := by
  unfold applied advance advanceHealthy Closes
  rw [if_neg hactive, if_neg (by rw [hhealthy]; decide), raised_phase, raised_state]
  cases hphase : r.phase with
  | candidate => simp [PersistedIncident.moved]
  | confirmed =>
    rw [hphase] at hmatch
    have hstate := of_decide_eq_true hmatch
    simp [PersistedIncident.moved, hstate]
  | recovering =>
    rw [hphase] at hmatch
    simp only [phaseMatchesIncident, Bool.or_eq_true, decide_eq_true_eq] at hmatch
    rcases hmatch with hstate | hstate <;> simp [PersistedIncident.moved, hstate]
  | terminal => exact absurd hphase hactive
  | other text unnamed =>
    rw [hphase] at hmatch
    cases hmatch

theorem matches_applied_iff (hloads : Loads s key r) {o : HealthObservation}
    (hmatch : matchesActiveRecord r o = true) (inputKey : Bytes) :
    matchesActiveRecord (applied r inputKey signal) o = true ↔
      (applied r inputKey signal).phase ≠ .terminal := by
  have hkept := (@applied_spec _ signal hloads.matches inputKey).1
  simp only [matchesActiveRecord, Bool.and_eq_true, decide_eq_true_eq, hkept.targetID,
    hkept.ruleIDs, hkept.openedAt] at hmatch ⊢
  tauto

theorem fits_iff (hmarshal : PersistedIncident.codec.marshal r = some document) :
    Fits r ↔ document.length ≤ maxRecordBytes := by
  constructor
  · exact fun h => h document hmarshal
  · intro h d hd
    cases hmarshal.symm.trans hd
    exact h

theorem remembered_of_written (hchange : Change c signal s (c.dedupeKey signal.observation) r)
    (hseverity : Severity.named signal.severity) (hvalid : validateRecord r = .ok ())
    (hmarshal : PersistedIncident.codec.marshal r = some document) :
    Remembered c signal (withIncident s (c.dedupeKey signal.observation) document) ↔ Fits r := by
  have hseen := hchange.seen_norm hseverity
  have hget : (withIncident s (c.dedupeKey signal.observation) document .incidents)[
      c.dedupeKey signal.observation]? = some document := by
    rw [withIncident_get, if_pos rfl]
  rw [remembered_of_window hget, fits_iff hmarshal, ← decodeRecord_marshal hvalid hseen hmarshal]
  constructor
  · rintro ⟨r', hr', -⟩
    exact (decodeRecord_marshal hvalid hseen hmarshal).mpr (decodeRecord_length hr')
  · intro hdecode
    refine ⟨_, hdecode, ?_⟩
    rw [hseen]
    exact List.mem_of_getLast? hchange.getLast

/-- After a signal was applied to the latest active incident, the next delivery goes to the same
one unless the signal ended it. -/
theorem remembered_of_active_written
    (hnone : (s .incidents)[c.dedupeKey signal.observation]? = none)
    (hhealthy : signal.observation.normalizedState = .healthy)
    (hfound : findActiveRecord signal.observation s = .ok (some (key, r), s))
    (hnew : signalInputKey signal ∉ elems r.seenInputs) (hseverity : Severity.named signal.severity)
    (hvalid : validateRecord (applied r (signalInputKey signal) signal) = .ok ())
    (hmarshal : PersistedIncident.codec.marshal (applied r (signalInputKey signal) signal) =
      some document) :
    Remembered c signal (withIncident s key document) ↔
      Fits (applied r (signalInputKey signal) signal) ∧
      (Closes r → ∃ next, latestOf ((activeRecords s signal.observation).filter
        fun x => x.1 ≠ key) = some next ∧ signalInputKey signal ∈ elems next.2.seenInputs) := by
  obtain ⟨-, hread, hlatest⟩ := findActiveRecord_ok.mp hfound
  obtain ⟨hloads, hmatch⟩ := mem_activeRecords.mp (latestOf_mem hlatest)
  have hchange : Change c signal s key (applied r (signalInputKey signal) signal) :=
    .applied (.active hnone hhealthy hfound) hnew
  obtain ⟨hnorm, hkept, -⟩ := hchange.kept hseverity hloads
  have hkey : c.dedupeKey signal.observation ≠ key := by
    rintro rfl
    obtain ⟨_, hdocument, -⟩ := hloads
    rw [hnone] at hdocument
    cases hdocument
  have hnone' : (withIncident s key document .incidents)[c.dedupeKey
    signal.observation]? = none := by
    rw [withIncident_get, if_neg hkey, hnone]
  have hreadback : (∃ r', decodeRecord document = .ok r') ↔
      decodeRecord document = .ok (applied r (signalInputKey signal) signal) := by
    have hiff := decodeRecord_marshal hvalid (hchange.seen_norm hseverity) hmarshal
    rw [hnorm] at hiff
    constructor
    · rintro ⟨r', hr'⟩
      exact hiff.mpr (decodeRecord_length hr')
    · exact fun h => ⟨_, h⟩
  have hfits : Fits (applied r (signalInputKey signal) signal) ↔
      decodeRecord document = .ok (applied r (signalInputKey signal) signal) := by
    rw [fits_iff hmarshal, ← decodeRecord_marshal hvalid (hchange.seen_norm hseverity)
      hmarshal, hnorm]
  rw [remembered_of_active hnone' hhealthy, readable_withIncident hloads hread, hreadback, hfits]
  refine and_congr_right fun hdecode => ?_
  have hactive : r.phase ≠ .terminal := by
    simp only [matchesActiveRecord, Bool.and_eq_true, decide_eq_true_eq] at hmatch
    exact hmatch.1.1.1
  have hended := applied_ended_iff hhealthy hloads.matches hactive (signalInputKey signal)
  have hmatches : matchesActiveRecord (applied r (signalInputKey signal) signal) _ = true ↔ _ :=
    matches_applied_iff hloads hmatch (signalInputKey signal)
  by_cases hcloses : Closes r
  · -- the incident drops out, the scan goes on to the next one
    have hmatch' : matchesActiveRecord (applied r (signalInputKey signal) signal)
        signal.observation = false := by
      rw [Bool.eq_false_iff]
      exact fun h => hmatches.mp h (hended.mpr hcloses)
    rw [activeRecords_ended hloads hdecode hmatch']
    simp only [hcloses, true_imp_iff]
  · -- it is still the latest, and its inputs end with this one
    have hmatch' := hmatches.mpr fun h => hcloses (hended.mp h)
    rw [activeRecords_still hloads hmatch hdecode hmatch', latestOf_map]
    · simp only [hcloses, false_imp_iff, iff_true]
      refine ⟨(key, applied r (signalInputKey signal) signal), ?_, ?_⟩
      · change latestOf (activeRecords s signal.observation) = _ at hlatest
        rw [hlatest, Option.map_some, if_pos rfl]
      · exact List.mem_of_getLast? hchange.getLast
    · intro x hx
      split
      case isTrue heq =>
        obtain ⟨hloads', -⟩ := mem_activeRecords.mp hx
        rw [heq] at hloads'
        rw [hloads'.unique hloads]
        exact hkept.openedAt
      case isFalse => rfl

end Applied

theorem incidentID_ok {newID : Except Error Bytes} {id : Bytes} (h : incidentID newID = .ok id) :
    newID = .ok id := by
  cases newID with
  | error e => cases h
  | ok x =>
    change (if blank x then Except.error errInvalidOptions else .ok x) = .ok id at h
    split at h
    · cases h
    · exact h

/-- A signal that was applied is recognised when it is delivered again at once, without any
change, exactly if it was repeatable. -/
theorem replay_duplicate_iff {call : Call} {s : Store} {result : Result}
    (h : (ingest call s).1 = .ok result)
    (happlied : result.ignored = false ∧ result.duplicate = false) :
    (∀ newID, ∃ again, ingest { call with newID := newID, fault := none } (ingest call s).2 =
      (.ok again, (ingest call s).2) ∧ again.duplicate = true) ↔
      Repeatable call.correlator call.newID call.signal.withDefaults s := by
  obtain ⟨s', hs'⟩ : ∃ s', (ingest call s).2 = s' := ⟨_, rfl⟩
  rw [hs']
  obtain ⟨filled, hsignal, -, hcommit⟩ := ingest_ok.mp (Prod.ext h hs')
  obtain ⟨rfl, hseverity, -⟩ := validateSignal_ok hsignal
  have hagain (newID : Except Error Bytes) :
      (∃ again, ingest { call with newID := newID, fault := none } s' = (.ok again, s') ∧
        again.duplicate = true) ↔
      Remembered call.correlator call.signal.withDefaults s' := by
    rw [← @duplicate_iff_remembered call.correlator newID]
    simp only [ingest_ok, hsignal, Except.ok.injEq, exists_eq_left', true_and]
  simp only [hagain, forall_const]
  unfold Repeatable
  cases ingested_of_ok hcommit with
  | ignored => cases happlied.1
  | duplicate => cases happlied.2
  | applied hroute hnew hput =>
    obtain ⟨hvalid, -, document, hmarshal, rfl⟩ := putRecord_ok.mp hput
    cases hroute with
    | window hloads =>
      rw [remembered_of_written (.applied (.window hloads) hnew) hseverity hvalid hmarshal]
      obtain ⟨old, hold, hr⟩ := hloads
      rw [hold]
      simp only [hr, Except.ok.injEq, forall_eq']
    | active hnone hhealthy hfound =>
      rw [remembered_of_active_written hnone hhealthy hfound hnew hseverity hvalid hmarshal, hnone]
      have hlatest : latestOf (activeRecords s call.signal.withDefaults.observation) = _ :=
        (findActiveRecord_ok.mp hfound).2.2
      simp only [hhealthy, if_true]
      constructor
      · intro hrepeat key r hr
        cases hlatest.symm.trans hr
        exact hrepeat
      · exact fun hrepeat => hrepeat _ _ hlatest
  | opened hnone hunhealthy hid hput =>
    obtain ⟨hvalid, -, document, hmarshal, rfl⟩ := putRecord_ok.mp hput
    rw [remembered_of_written (.opened _ hnone) hseverity hvalid hmarshal, hnone]
    simp only [hunhealthy, if_false, incidentID_ok hid, Except.ok.injEq, forall_eq']

theorem fits_of_all {r : PersistedIncident}
    (h : (PersistedIncident.codec.marshal r).all (fun d => d.length ≤ maxRecordBytes) = true) :
    Fits r := by
  intro document hmarshal
  rw [hmarshal] at h
  exact of_decide_eq_true h

def openingCall : Call := sampleCall (lit "o-1") .unhealthy 63900000000000000000

def openedStore : Store := (ingest openingCall Store.empty).2

theorem sample_replay_duplicate : ∃ again,
    ingest openingCall openedStore = (.ok again, openedStore) ∧
    again.duplicate = true := by
  have hopened : (ingest openingCall Store.empty).1.toOption.map
    (fun r => (r.ignored, r.duplicate)) =
      some (false, false) := by decide +kernel
  cases hresult : (ingest openingCall Store.empty).1 with
  | error e =>
    rw [hresult] at hopened
    cases hopened
  | ok result =>
    rw [hresult] at hopened
    have happlied := Prod.mk.inj (Option.some.inj hopened)
    refine (replay_duplicate_iff hresult happlied).mpr ?_ openingCall.newID
    intro id hid
    cases hid
    exact fits_of_all (by decide +kernel)

def closingCall : Call := sampleCall (lit "o-2") .healthy 63900000600000000000

/-- A healthy signal closes the incident of an earlier window; delivered again it is ignored. -/
theorem closing_signal_forgotten :
    (ingest closingCall openedStore).1.toOption.map (fun r => (r.phase, r.ignored, r.duplicate)) =
      some (.terminal, false, false) ∧
    (ingest closingCall (ingest closingCall openedStore).2).1.toOption =
      some { ignored := true } := by
  decide +kernel

end PulseAgent.Correlator
