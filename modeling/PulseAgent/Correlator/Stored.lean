import PulseAgent.Contract.Checks
import PulseAgent.Contract.Clean
import PulseAgent.Correlator.Incident

/-!
# What an `Ingest` transaction does

A record that was read is clean; only one that is opened can change on its way through JSON.
-/

namespace PulseAgent.Correlator

open Go Go.Json Contract

section Records

variable {r : PersistedIncident} {document : Bytes}

theorem validateRecord_ok : validateRecord r = .ok () ↔
    r.schemaVersion = schemaVersionV1 ∧ r.phase.valid = true ∧
      0 < (elems r.seenInputs).length ∧ (elems r.seenInputs).length ≤ maxSeenInputs ∧
      r.incident.validate.isOk = true ∧ r.incident.dedupeKey ≠ [] ∧
      phaseMatchesIncident r.phase r.incident = true ∧
      validInputs (elems r.seenInputs) = true := by
  unfold validateRecord
  split
  case isTrue h =>
    simp only [Bool.and_eq_true, decide_eq_true_eq] at h
    simp [h]
  case isFalse h =>
    simp only [Bool.and_eq_true, decide_eq_true_eq] at h
    simp only [reduceCtorEq, false_iff]
    tauto

theorem decodeRecord_ok : decodeRecord document = .ok r ↔
    decode PersistedIncident.codec ⟨maxRecordBytes, schemaVersionV1, validateRecord⟩ document =
      .ok r := by
  unfold decodeRecord
  cases decode PersistedIncident.codec
    ⟨maxRecordBytes, schemaVersionV1, validateRecord⟩ document with
  | error e => simp
  | ok x => simp

theorem cleans_persistedIncident : PersistedIncident.codec.Cleans := by
  have hphase : Phase.codec.Cleans := Codec.cleans_named Phase.text_ofText
  refine Codec.cleans_struct ?_
  simp only [PersistedIncident.fields, List.forall_mem_cons, List.not_mem_nil, false_imp_iff,
    implies_true, and_true]
  exact ⟨.of Codec.cleans_string (fun _ _ => rfl) fun _ => rfl,
    .of hphase (fun _ _ => rfl) fun _ => rfl, .of cleans_incident (fun _ _ => rfl) fun _ => rfl,
    .of (Codec.cleans_slice Codec.cleans_string rfl) (fun _ _ => rfl) fun _ => rfl⟩

theorem decodeRecord_spec (h : decodeRecord document = .ok r) :
    validateRecord r = .ok () ∧ PersistedIncident.codec.norm r = r := by
  obtain ⟨hcontent, hvalid, -⟩ := content_of_decode (decodeRecord_ok.mp h)
  exact ⟨hvalid, norm_of_content cleans_persistedIncident rfl hcontent⟩

theorem Phase.norm_of_valid {phase : Phase} (h : phase.valid = true) :
    Phase.codec.norm phase = phase := by
  cases phase with
  | other => cases h
  | _ => rfl

theorem phaseMatchesIncident_congr {i j : Incident} (h : i.state = j.state) (phase : Phase) :
    phaseMatchesIncident phase i = phaseMatchesIncident phase j := by
  cases phase <;> simp only [phaseMatchesIncident, h]

theorem validateRecord_norm (h : validateRecord r = .ok ())
    (hseen : (PersistedIncident.codec.norm r).seenInputs = r.seenInputs) :
    validateRecord (PersistedIncident.codec.norm r) = .ok () := by
  obtain ⟨hversion, hphase, hpos, hle, hincident, hkey, hmatch, hinputs⟩ := validateRecord_ok.mp h
  have hincident := isOk_iff.mp hincident
  have hstate := IncidentState.norm_of_valid (Incident.validate_ok.mp hincident).2.2.2.1.1
  have hphaseNorm : (PersistedIncident.codec.norm r).phase = r.phase := Phase.norm_of_valid hphase
  refine validateRecord_ok.mpr ⟨?_, ?_, ?_, ?_, ?_, ?_, ?_, ?_⟩
  · change Utf8.toValidUTF8 r.schemaVersion = _
    rw [hversion]
    rfl
  · rw [hphaseNorm]
    exact hphase
  · rw [hseen]
    exact hpos
  · rw [hseen]
    exact hle
  · exact isOk_iff.mpr (Incident.validate_norm hincident)
  · exact fun hnil => hkey ((Utf8.toValidUTF8_eq_nil_iff _).mp hnil)
  · rw [hphaseNorm]
    exact (phaseMatchesIncident_congr hstate r.phase).trans hmatch
  · rw [hseen]
    exact hinputs

theorem decodeRecord_length (h : decodeRecord document = .ok r) :
    document.length ≤ maxRecordBytes := by
  have hlimit : (document.length : Int) ≤ (maxRecordBytes : Nat) :=
    (content_of_decode (decodeRecord_ok.mp h)).2.2
  exact_mod_cast hlimit

theorem decodeRecord_marshal (h : validateRecord r = .ok ())
    (hseen : (PersistedIncident.codec.norm r).seenInputs = r.seenInputs)
    (hmarshal : PersistedIncident.codec.marshal r = some document) :
    decodeRecord document = .ok (PersistedIncident.codec.norm r) ↔
      document.length ≤ maxRecordBytes := by
  constructor
  · exact decodeRecord_length
  · intro hsize
    rw [decodeRecord_ok]
    have hdecode := decode_marshal PersistedIncident.document
      ⟨maxRecordBytes, schemaVersionV1, validateRecord⟩ hmarshal (by decide)
      (Int.ofNat_le.mpr hsize) (by
        change Utf8.toValidUTF8 r.schemaVersion = _
        rw [(validateRecord_ok.mp h).1]
        rfl)
    refine hdecode.trans ?_
    change (validateRecord (PersistedIncident.codec.norm r)).map _ = _
    rw [validateRecord_norm h hseen]
    rfl

end Records

/-! ## Texts of a record -/

theorem clean_inputs {seen : Option (List Bytes)} (h : (Codec.slice .string).norm seen = seen) :
    ∀ input ∈ elems seen, Utf8.toValidUTF8 input = input := by
  cases seen with
  | none => simp [elems]
  | some inputs =>
    have hmap : inputs.map Utf8.toValidUTF8 = inputs := Option.some.inj h
    intro input hinput
    exact List.map_inj_left.mp (hmap.trans (List.map_id inputs).symm) input hinput

theorem norm_inputs {inputs : List Bytes} (h : ∀ input ∈ inputs, Utf8.toValidUTF8 input = input) :
    (Codec.slice .string).norm (some inputs) = some inputs :=
  congrArg some ((List.map_inj_left.mpr h).trans (List.map_id inputs))

theorem clean_signalInputKey (signal : Signal) :
    Utf8.toValidUTF8 (signalInputKey signal) = signalInputKey signal :=
  Utf8.toValidUTF8_of_valid
    (Utf8.validString_append (by decide +kernel) (Hex.validString_encode _))

theorem mem_appendBounded {inputs : List Bytes} {input x : Bytes}
    (h : x ∈ appendBounded inputs input) : x ∈ inputs ∨ x = input := by
  rcases List.mem_append.mp (List.mem_of_mem_drop h) with h | h
  · exact .inl h
  · exact .inr (List.mem_singleton.mp h)

theorem getLast_appendBounded (inputs : List Bytes) (input : Bytes) :
    (appendBounded inputs input).getLast? = some input := by
  unfold appendBounded
  rw [List.getLast?_drop, if_neg, List.getLast?_concat]
  simp only [List.length_append, List.length_singleton]
  have : 0 < maxSeenInputs := by decide
  omega

def Severity.named (severity : Severity) : Prop :=
  severity = .info ∨ severity = .warning ∨ severity = .critical

theorem validateSignal_ok {signal filled : Signal} (h : validateSignal signal = .ok filled) :
    filled = signal.withDefaults ∧ Severity.named filled.severity ∧
      validObservation signal.observation = true := by
  unfold validateSignal at h
  dsimp only at h
  split at h
  case isTrue hchecks =>
    cases h
    simp only [Bool.and_eq_true, Bool.or_eq_true, decide_eq_true_eq] at hchecks
    obtain ⟨⟨⟨⟨⟨hobservation, -⟩, -⟩, -⟩, -⟩, hseverity⟩ := hchecks
    exact ⟨rfl, or_assoc.mp hseverity, hobservation⟩
  case isFalse => cases h

section Norm

variable {r : PersistedIncident} {signal : Signal}

theorem norm_raised (hr : PersistedIncident.codec.norm r = r) (h : Severity.named signal.severity) :
    PersistedIncident.codec.norm (raised r signal.severity) = raised r signal.severity := by
  have hseverity : Severity.codec.norm signal.severity = signal.severity := by
    rcases h with h | h | h <;> rw [h] <;> rfl
  unfold raised
  split
  case isTrue =>
    change { PersistedIncident.codec.norm r with
      incident := { (PersistedIncident.codec.norm r).incident with
        severity := Severity.codec.norm signal.severity } } = _
    rw [hr, hseverity]
  case isFalse => exact hr

theorem norm_moved (hr : PersistedIncident.codec.norm r = r) {phase : Phase} {state : IncidentState}
    (hphase : phase.valid = true) (hstate : state.valid = true) (terminalAt : Time) :
    PersistedIncident.codec.norm (r.moved phase state terminalAt) =
      r.moved phase state terminalAt := by
  change (PersistedIncident.codec.norm r).moved (Phase.codec.norm phase)
    (IncidentState.codec.norm state) terminalAt = _
  rw [hr, Phase.norm_of_valid hphase, IncidentState.norm_of_valid hstate]

theorem norm_advance (hr : PersistedIncident.codec.norm r = r)
    (h : Severity.named signal.severity) :
    PersistedIncident.codec.norm (advance r signal) = advance r signal := by
  have hraised := norm_raised hr h
  unfold advance advanceUnhealthy advanceHealthy
  split
  case isTrue => exact hr
  case isFalse =>
    split
    case isTrue =>
      split
      · exact norm_moved hraised rfl rfl _
      · exact norm_moved hraised rfl rfl _
      · exact hraised
    case isFalse =>
      split
      · exact norm_moved hraised rfl rfl _
      · exact norm_moved hraised rfl rfl _
      · split
        · exact norm_moved hraised rfl rfl _
        · exact norm_moved hraised rfl rfl _
      · exact hraised

theorem norm_applied (hr : PersistedIncident.codec.norm r = r)
    (h : Severity.named signal.severity) :
    PersistedIncident.codec.norm (applied r (signalInputKey signal) signal) =
      applied r (signalInputKey signal) signal := by
  refine norm_advance ?_ h
  have hseen : (Codec.slice .string).norm r.seenInputs = r.seenInputs :=
    congrArg PersistedIncident.seenInputs hr
  have hinputs : (Codec.slice .string).norm
      (some (appendBounded (elems r.seenInputs) (signalInputKey signal))) = _ :=
    norm_inputs fun input hinput => by
      rcases mem_appendBounded hinput with hold | rfl
      · exact clean_inputs hseen input hold
      · exact clean_signalInputKey signal
  change { PersistedIncident.codec.norm r with
    seenInputs := (Codec.slice .string).norm
      (some (appendBounded (elems r.seenInputs) (signalInputKey signal))) } = _
  rw [hr, hinputs]

end Norm

/-! ## Reading and writing the bucket -/

def Loads (s : Store) (key : Bytes) (r : PersistedIncident) : Prop :=
  ∃ document, (s .incidents)[key]? = some document ∧ decodeRecord document = .ok r

theorem Loads.unique {s : Store} {key : Bytes} {r r' : PersistedIncident} (h : Loads s key r)
    (h' : Loads s key r') : r = r' := by
  obtain ⟨document, hdocument, hr⟩ := h
  obtain ⟨document', hdocument', hr'⟩ := h'
  cases hdocument.symm.trans hdocument'
  exact Except.ok.inj (hr.symm.trans hr')

def withIncident (s : Store) (key document : Bytes) : Store :=
  Function.update s .incidents ((s .incidents).insert key document)

theorem withIncident_get (s : Store) (key document k : Bytes) :
    (withIncident s key document .incidents)[k]? =
      if k = key then some document else (s .incidents)[k]? := by
  unfold withIncident
  rw [Function.update_self, Std.ExtTreeMap.getElem?_insert]
  by_cases h : k = key
  · rw [if_pos h, h, if_pos Std.ReflCmp.compare_self]
  · rw [if_neg h, if_neg]
    intro heq
    exact h (Std.LawfulEqCmp.eq_of_compare heq).symm

theorem putRecord_ok {key : Bytes} {r : PersistedIncident} {s s' : Store} {u : Unit} :
    putRecord key r s = .ok (u, s') ↔ validateRecord r = .ok () ∧ key ≠ [] ∧
      ∃ document, PersistedIncident.codec.marshal r = some document ∧
        s' = withIncident s key document := by
  unfold putRecord
  simp only [Tx.bind_liftExcept_ok, Tx.put_ok, encode_ok, ne_eq, reduceCtorEq, not_false_eq_true,
    true_and]
  constructor
  · rintro ⟨_, hvalid, document, hmarshal, hkey, rfl⟩
    exact ⟨hvalid, hkey, document, hmarshal, rfl⟩
  · rintro ⟨hvalid, hkey, document, hmarshal, rfl⟩
    exact ⟨(), hvalid, document, hmarshal, hkey, rfl⟩

/-! ## The scan for the latest active incident -/

section Scan

variable {o : HealthObservation}

def activeRecord (o : HealthObservation) (entry : Bytes × Bytes) :
    Option (Bytes × PersistedIncident) :=
  match decodeRecord entry.2 with
  | .ok record => if matchesActiveRecord record o then some (entry.1, record) else none
  | .error _ => none

/-- The one opened later; of two opened at the same time the first. -/
def laterOf (latest : Option (Bytes × PersistedIncident)) (found : Bytes × PersistedIncident) :
    Option (Bytes × PersistedIncident) :=
  match latest with
  | none => some found
  | some l => if l.2.incident.openedAt < found.2.incident.openedAt then some found else some l

def latestOf (found : List (Bytes × PersistedIncident)) : Option (Bytes × PersistedIncident) :=
  found.foldl laterOf none

def Readable (entries : List (Bytes × Bytes)) : Prop :=
  ∀ entry ∈ entries, ∃ r, decodeRecord entry.2 = .ok r

theorem scanActive_eq (latest : Option (Bytes × PersistedIncident)) (entry : Bytes × Bytes)
    {r : PersistedIncident} (h : decodeRecord entry.2 = .ok r) :
    scanActive o latest entry.1 entry.2 =
      .ok ((activeRecord o entry).toList.foldl laterOf latest) := by
  unfold scanActive activeRecord
  rw [h]
  dsimp only
  by_cases hmatch : matchesActiveRecord r o = true
  · rw [hmatch]
    cases latest with
    | none => rfl
    | some l =>
      simp only [Bool.not_true, Bool.false_eq_true, if_false, if_true, Option.toList_some,
        List.foldl_cons, List.foldl_nil, laterOf]
      split <;> rfl
  · simp [hmatch]

theorem foldlM_scanActive {entries : List (Bytes × Bytes)}
    {latest found : Option (Bytes × PersistedIncident)} :
    entries.foldlM (fun latest entry => scanActive o latest entry.1 entry.2) latest = .ok found ↔
      Readable entries ∧ (entries.filterMap (activeRecord o)).foldl laterOf latest = found := by
  induction entries generalizing latest with
  | nil => simp [Readable, pure, Except.pure]
  | cons entry entries ih =>
    rw [List.foldlM_cons, except_bind_ok]
    cases hdecode : decodeRecord entry.2 with
    | error e =>
      have hstep : scanActive o latest entry.1 entry.2 = .error e := by simp [scanActive, hdecode]
      have hunread : ¬Readable (entry :: entries) := by
        intro hread
        obtain ⟨r, hr⟩ := hread entry List.mem_cons_self
        rw [hdecode] at hr
        cases hr
      simp [hstep, hunread]
    | ok r =>
      have hread : Readable (entry :: entries) ↔ Readable entries := by simp [Readable, hdecode]
      have hlist : (entry :: entries).filterMap (activeRecord o) =
          (activeRecord o entry).toList ++ entries.filterMap (activeRecord o) := by
        rw [List.filterMap_cons]
        cases activeRecord o entry <;> rfl
      rw [hread, hlist, List.foldl_append]
      simp only [scanActive_eq latest entry hdecode, Except.ok.injEq, exists_eq_left', ih]

theorem findActiveRecord_ok {found : Option (Bytes × PersistedIncident)} {s s' : Store} :
    findActiveRecord o s = .ok (found, s') ↔ s' = s ∧ Readable (s .incidents).toList ∧
      latestOf ((s .incidents).toList.filterMap (activeRecord o)) = found := by
  rw [findActiveRecord, Tx.forEach_ok, foldlM_scanActive, and_comm]
  rfl

theorem laterOf_mem {latest : Option (Bytes × PersistedIncident)}
    {found l : Bytes × PersistedIncident} (h : laterOf latest found = some l) :
    latest = some l ∨ l = found := by
  unfold laterOf at h
  split at h
  case h_1 => exact .inr (Option.some.inj h).symm
  case h_2 =>
    split at h
    · exact .inr (Option.some.inj h).symm
    · exact .inl h

theorem latestOf_mem {found : List (Bytes × PersistedIncident)} {l : Bytes × PersistedIncident}
    (h : latestOf found = some l) : l ∈ found := by
  have hfold : ∀ (found : List (Bytes × PersistedIncident)) latest,
      found.foldl laterOf latest = some l → latest = some l ∨ l ∈ found := by
    intro found
    induction found with
    | nil => exact fun latest h => .inl h
    | cons x found ih =>
      intro latest h
      rcases ih _ h with hstep | hmem
      · rcases laterOf_mem hstep with hlatest | rfl
        · exact .inl hlatest
        · exact .inr List.mem_cons_self
      · exact .inr (List.mem_cons_of_mem x hmem)
  rcases hfold found none h with hnone | hmem
  · cases hnone
  · exact hmem

theorem mem_activeRecords {s : Store} {key : Bytes} {r : PersistedIncident} :
    (key, r) ∈ (s .incidents).toList.filterMap (activeRecord o) ↔
      Loads s key r ∧ matchesActiveRecord r o = true := by
  simp only [List.mem_filterMap, Prod.exists, Std.ExtTreeMap.mem_toList_iff_getElem?_eq_some,
    activeRecord, Loads]
  constructor
  · rintro ⟨k, document, hdocument, h⟩
    split at h
    case h_1 record hdecode =>
      split at h
      case isTrue hmatch =>
        cases h
        exact ⟨⟨document, hdocument, hdecode⟩, hmatch⟩
      case isFalse => cases h
    case h_2 => cases h
  · rintro ⟨⟨document, hdocument, hdecode⟩, hmatch⟩
    refine ⟨key, document, hdocument, ?_⟩
    simp only [hdecode, hmatch, if_true]

end Scan

/-! ## Outcomes -/

/-- The record a signal goes to, and its key. -/
inductive Routed (c : Correlator) (o : HealthObservation) (s : Store) :
    Bytes → PersistedIncident → Prop
  | window {r : PersistedIncident} (h : Loads s (c.dedupeKey o) r) : Routed c o s (c.dedupeKey o) r
  | active {key : Bytes} {r : PersistedIncident} (hnone : (s .incidents)[c.dedupeKey o]? = none)
      (hhealthy : o.normalizedState = .healthy)
      (hfound : findActiveRecord o s = .ok (some (key, r), s)) : Routed c o s key r

inductive Ingested (c : Correlator) (newID : Except Error Bytes) (signal : Signal) (s : Store) :
    Result → Store → Prop
  | ignored (hnone : (s .incidents)[c.dedupeKey signal.observation]? = none)
      (hhealthy : signal.observation.normalizedState = .healthy)
      (hfound : findActiveRecord signal.observation s = .ok (none, s)) :
      Ingested c newID signal s { ignored := true } s
  | duplicate {key : Bytes} {r : PersistedIncident} (hroute : Routed c signal.observation s key r)
      (hseen : signalInputKey signal ∈ elems r.seenInputs) :
      Ingested c newID signal s (r.result true) s
  | applied {key : Bytes} {r : PersistedIncident} {s' : Store}
      (hroute : Routed c signal.observation s key r)
      (hnew : signalInputKey signal ∉ elems r.seenInputs)
      (hput : putRecord key (applied r (signalInputKey signal) signal) s = .ok ((), s')) :
      Ingested c newID signal s ((applied r (signalInputKey signal) signal).result false) s'
  | opened {id : Bytes} {s' : Store}
      (hnone : (s .incidents)[c.dedupeKey signal.observation]? = none)
      (hunhealthy : signal.observation.normalizedState ≠ .healthy) (hid : incidentID newID = .ok id)
      (hput : putRecord (c.dedupeKey signal.observation)
        (newCandidate signal (c.dedupeKey signal.observation) (signalInputKey signal) id) s =
          .ok ((), s')) :
      Ingested c newID signal s ((newCandidate signal (c.dedupeKey signal.observation)
        (signalInputKey signal) id).result false) s'

section Outcomes

variable {c : Correlator} {newID : Except Error Bytes} {signal : Signal} {s s' : Store}
  {result : Result}

theorem dedupeKey_ne_nil (o : HealthObservation) : c.dedupeKey o ≠ [] := by
  have hslash : lit "/" ≠ [] := by decide
  unfold dedupeKey
  simp [hslash]

theorem updateRecord_ok {key inputKey : Bytes} {r : PersistedIncident} :
    updateRecord key r inputKey signal s = .ok (result, s') ↔
      (inputKey ∈ elems r.seenInputs ∧ result = r.result true ∧ s' = s) ∨
      (inputKey ∉ elems r.seenInputs ∧ putRecord key (applied r inputKey signal) s = .ok ((), s') ∧
        result = (applied r inputKey signal).result false) := by
  unfold updateRecord
  by_cases hseen : inputKey ∈ elems r.seenInputs
  · simp [hseen, Tx.pure_apply, eq_comm]
  · simp only [List.contains_iff_mem, hseen, if_false, Tx.bind_ok, Tx.pure_apply, false_and,
      not_false_eq_true, true_and, false_or]
    constructor
    · rintro ⟨_, t, hput, h⟩
      cases h
      exact ⟨hput, rfl⟩
    · rintro ⟨hput, rfl⟩
      exact ⟨(), s', hput, rfl⟩

theorem ingested_of_update {key : Bytes} {r : PersistedIncident}
    (hroute : Routed c signal.observation s key r)
    (h : updateRecord key r (signalInputKey signal) signal s = .ok (result, s')) :
    Ingested c newID signal s result s' := by
  rcases updateRecord_ok.mp h with ⟨hseen, rfl, rfl⟩ | ⟨hnew, hput, rfl⟩
  · exact .duplicate hroute hseen
  · exact .applied hroute hnew hput

theorem ingested_of_ok (h : ingestTx c newID signal s = .ok (result, s')) :
    Ingested c newID signal s result s' := by
  unfold ingestTx at h
  obtain ⟨-, h⟩ := Tx.bind_get_ok.mp h
  cases hdocument : (s .incidents)[c.dedupeKey signal.observation]? with
  | some document =>
    rw [hdocument] at h
    obtain ⟨r, hr, h⟩ := Tx.bind_liftExcept_ok.mp h
    exact ingested_of_update (.window ⟨document, hdocument, hr⟩) h
  | none =>
    rw [hdocument] at h
    dsimp only at h
    split at h
    case isTrue hhealthy =>
      obtain ⟨found, t, hfound, h⟩ := Tx.bind_ok.mp h
      obtain rfl := (findActiveRecord_ok.mp hfound).1
      cases found with
      | none =>
        cases h
        exact .ignored hdocument hhealthy hfound
      | some entry => exact ingested_of_update (.active hdocument hhealthy hfound) h
    case isFalse hunhealthy =>
      obtain ⟨id, hid, h⟩ := Tx.bind_liftExcept_ok.mp h
      obtain ⟨_, t, hput, h⟩ := Tx.bind_ok.mp h
      cases h
      exact .opened hdocument hunhealthy hid hput

theorem ingestTx_of_routed {key : Bytes} {r : PersistedIncident}
    (h : Routed c signal.observation s key r) :
    ingestTx c newID signal s = updateRecord key r (signalInputKey signal) signal s := by
  have hget : ∀ {f : Option Bytes → Tx Result},
      (Tx.get .incidents (c.dedupeKey signal.observation) >>= f) s =
        f (s .incidents)[c.dedupeKey signal.observation]? s := fun {f} =>
    Tx.bind_of_ok (Tx.get_ok.mpr ⟨dedupeKey_ne_nil _, rfl, rfl⟩)
  unfold ingestTx
  rw [hget]
  cases h with
  | window h =>
    obtain ⟨document, hdocument, hr⟩ := h
    rw [hdocument]
    exact Tx.bind_of_ok (Tx.liftExcept_ok.mpr ⟨hr, rfl⟩)
  | active hnone hhealthy hfound =>
    rw [hnone]
    dsimp only
    rw [if_pos hhealthy]
    exact Tx.bind_of_ok hfound

theorem Routed.loads {o : HealthObservation} {key : Bytes} {r : PersistedIncident}
    (h : Routed c o s key r) : Loads s key r := by
  cases h with
  | window h => exact h
  | active hnone hhealthy hfound =>
    exact (mem_activeRecords.mp (latestOf_mem (findActiveRecord_ok.mp hfound).2.2)).1

/-- A record to write: one that was read with the signal applied to it, or a new one under a free
key. -/
inductive Change (c : Correlator) (signal : Signal) (s : Store) : Bytes → PersistedIncident → Prop
  | applied {key : Bytes} {r : PersistedIncident} (hroute : Routed c signal.observation s key r)
      (hnew : signalInputKey signal ∉ elems r.seenInputs) :
      Change c signal s key (applied r (signalInputKey signal) signal)
  | opened (id : Bytes) (hnone : (s .incidents)[c.dedupeKey signal.observation]? = none) :
      Change c signal s (c.dedupeKey signal.observation)
        (newCandidate signal (c.dedupeKey signal.observation) (signalInputKey signal) id)

theorem ingest_ok {call : Call} : ingest call s = (.ok result, s') ↔
    ∃ signal, validateSignal call.signal = .ok signal ∧ call.fault = none ∧
      ingestTx call.correlator call.newID signal s = .ok (result, s') := by
  unfold ingest
  cases validateSignal call.signal with
  | error e => simp
  | ok signal =>
    cases call.fault with
    | some e => simp
    | none =>
      cases hcommit : ingestTx call.correlator call.newID signal s with
      | error e => simp [hcommit]
      | ok r => simp [hcommit, Prod.ext_iff]

theorem ingest_cases (call : Call) (s : Store) : (ingest call s).2 = s ∨
    ∃ key r document, Change call.correlator call.signal.withDefaults s key r ∧
      Severity.named call.signal.withDefaults.severity ∧ validateRecord r = .ok () ∧
      PersistedIncident.codec.marshal r = some document ∧
      (ingest call s).2 = withIncident s key document := by
  unfold ingest
  split
  case h_1 => exact .inl rfl
  case h_2 signal hsignal =>
    obtain ⟨rfl, hseverity, -⟩ := validateSignal_ok hsignal
    split
    case h_1 result s' hfault hcommit =>
      cases ingested_of_ok hcommit with
      | ignored => exact .inl rfl
      | duplicate => exact .inl rfl
      | applied hroute hnew hput =>
        obtain ⟨hvalid, -, document, hmarshal, rfl⟩ := putRecord_ok.mp hput
        exact .inr ⟨_, _, document, .applied hroute hnew, hseverity, hvalid, hmarshal, rfl⟩
      | opened hnone hunhealthy hid hput =>
        obtain ⟨hvalid, -, document, hmarshal, rfl⟩ := putRecord_ok.mp hput
        exact .inr ⟨_, _, document, .opened _ hnone, hseverity, hvalid, hmarshal, rfl⟩
    case h_2 => exact .inl rfl
    case h_3 => exact .inl rfl

theorem Change.seen_norm {key : Bytes} {r : PersistedIncident} (h : Change c signal s key r)
    (hseverity : Severity.named signal.severity) :
    (PersistedIncident.codec.norm r).seenInputs = r.seenInputs := by
  cases h with
  | applied hroute hnew =>
    obtain ⟨document, -, hr⟩ := hroute.loads
    exact congrArg PersistedIncident.seenInputs (norm_applied (decodeRecord_spec hr).2 hseverity)
  | opened id hnone =>
    refine norm_inputs fun input hinput => ?_
    rw [List.mem_singleton.mp hinput]
    exact clean_signalInputKey signal

end Outcomes

end PulseAgent.Correlator
