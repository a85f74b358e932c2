import PulseAgent.Audit.Chain

/-!
# Appending to the audit chain

Whether the reader still accepts the bucket after an append depends on one rule the writer does not
check: event identifiers must not repeat.
-/

namespace PulseAgent.Audit

open Go Go.Json Contract

def auditDocument : Document AuditEvent where
  codec := AuditEvent.codec
  version := AuditEvent.schemaVersion
  header := header_of_members (by decide +kernel)

/-! ## The stored document -/

theorem validAuditField_spec {value : Bytes} (h : validAuditField value = true) :
    value ≠ [] ∧ value.length ≤ 128 ∧ Utf8.validString value = true := by
  simp only [validAuditField, Bool.and_eq_true, decide_eq_true_eq, Bool.not_eq_true'] at h
  exact ⟨h.1.1.1, h.1.1.2, Redaction.validString_of_not_containsSensitive h.1.2⟩

theorem validateEventFields_ok {event : AuditEvent} {u : Unit} :
    validateEventFields event = .ok u ↔ event.schemaVersion = schemaVersionV1 ∧
      event.occurredAt.isZero = false ∧ ∀ value ∈ auditFields event,
        validAuditField value = true := by
  unfold validateEventFields
  split
  case isTrue h => simpa [List.all_eq_true] using h
  case isFalse h => simpa [List.all_eq_true] using h

theorem validDigest_encode {s : Bytes} (h : s.length = 32) : validDigest (Hex.encode s) = true := by
  simp [validDigest, Hex.encode_length, h, Hex.decodable_encode]

theorem validString_of_validDigest {value : Bytes} (h : validDigest value = true) :
    value.length = 64 ∧ Utf8.validString value = true := by
  simp only [validDigest, Bool.and_eq_true, decide_eq_true_eq, Hex.decodable, List.all_eq_true] at h
  refine ⟨h.1, Utf8.validString_ascii fun b hb => ?_⟩
  have hdigit := h.2.2 b hb
  simp only [Hex.isDigit, Bool.or_eq_true, Bool.and_eq_true, decide_eq_true_eq] at hdigit
  rcases hdigit with (hd | hd) | hd
  · exact UInt8.lt_of_le_of_lt hd.2 (by decide)
  · exact UInt8.lt_of_le_of_lt hd.2 (by decide)
  · exact UInt8.lt_of_le_of_lt hd.2 (by decide)

/-- An event that the chain may hold: valid fields and digests. -/
def Storable (event : AuditEvent) : Prop :=
  validateEventFields event = .ok () ∧ validDigest event.digest = true ∧
    (event.previousDigest = [] ∨ validDigest event.previousDigest = true)

theorem Storable.norm_eq {event : AuditEvent} (h : Storable event) :
    AuditEvent.codec.norm event = event := by
  obtain ⟨hfields, hdigest, hprevious⟩ := h
  obtain ⟨hversion, -, hvalid⟩ := validateEventFields_ok.mp hfields
  have hfield : ∀ value ∈ auditFields event, Utf8.toValidUTF8 value = value := fun value hv =>
    Utf8.toValidUTF8_of_valid (validAuditField_spec (hvalid value hv)).2.2
  have hprev : Utf8.toValidUTF8 event.previousDigest = event.previousDigest := by
    rcases hprevious with h | h
    · rw [h]
      rfl
    · exact Utf8.toValidUTF8_of_valid (validString_of_validDigest h).2
  have hver : Utf8.toValidUTF8 event.schemaVersion = event.schemaVersion := by
    rw [hversion]
    decide +kernel
  change AuditEvent.mk (Utf8.toValidUTF8 event.schemaVersion) (Utf8.toValidUTF8 event.eventID)
    (Utf8.toValidUTF8 event.aggregateType) (Utf8.toValidUTF8 event.aggregateID)
    (Utf8.toValidUTF8 event.actorIdentity) (Utf8.toValidUTF8 event.action)
    (Utf8.toValidUTF8 event.result) (Utf8.toValidUTF8 event.reasonCode) event.occurredAt
    (Utf8.toValidUTF8 event.previousDigest) (Utf8.toValidUTF8 event.digest) = event
  rw [hver, hprev, Utf8.toValidUTF8_of_valid (validString_of_validDigest hdigest).2,
    hfield event.eventID (by simp [auditFields]),
      hfield event.aggregateType (by simp [auditFields]),
    hfield event.aggregateID (by simp [auditFields]),
      hfield event.actorIdentity (by simp [auditFields]),
    hfield event.action (by simp [auditFields]), hfield event.result (by simp [auditFields]),
    hfield event.reasonCode (by simp [auditFields])]

theorem Storable.document_length_le {event : AuditEvent} {document : Bytes} (h : Storable event)
    (hdoc : AuditEvent.codec.marshal event = some document) :
      document.length ≤ maxDocumentBytes := by
  obtain ⟨hfields, hdigest, hprevious⟩ := h
  obtain ⟨hversion, -, hvalid⟩ := validateEventFields_ok.mp hfields
  have hlen : ∀ value ∈ auditFields event, value.length ≤ 128 := fun value hv =>
    (validAuditField_spec (hvalid value hv)).2.1
  simp only [auditFields, List.forall_mem_cons] at hlen
  obtain ⟨h1, h2, h3, h4, h5, h6, h7, -⟩ := hlen
  have hver : event.schemaVersion.length ≤ 128 := by
    rw [hversion]
    decide
  have hprev : event.previousDigest.length ≤ 128 := by
    rcases hprevious with hempty | hdigest'
    · simp [hempty]
    · have := (validString_of_validDigest hdigest').1
      omega
  have hdig : event.digest.length ≤ 128 := by
    have := (validString_of_validDigest hdigest).1
    omega
  obtain ⟨v, hv, rfl⟩ := Option.map_eq_some_iff.mp hdoc
  obtain ⟨ms, hms, rfl⟩ := Option.map_eq_some_iff.mp hv
  have hsmall : ∀ f ∈ AuditEvent.fields, f.Small 800 event := by
    simp only [AuditEvent.fields, List.forall_mem_cons, List.not_mem_nil, false_imp_iff,
      implies_true, and_true]
    exact ⟨Member.small_string hver (by decide +kernel), Member.small_string h1 (by decide +kernel),
      Member.small_string h2 (by decide +kernel), Member.small_string h3 (by decide +kernel),
      Member.small_string h4 (by decide +kernel), Member.small_string h5 (by decide +kernel),
      Member.small_string h6 (by decide +kernel), Member.small_string h7 (by decide +kernel),
      Member.small_time (by decide +kernel),
      Member.small_omitEmpty (Member.small_string hprev (by decide +kernel)),
      Member.small_string hdig (by decide +kernel)⟩
  refine le_trans (Member.render_length_le hms hsmall) ?_
  decide

theorem Storable.decodeEvent_marshal {event : AuditEvent} {document : Bytes} (h : Storable event)
    (hdigest : canonicalDigest event = .ok event.digest)
    (hdoc : AuditEvent.codec.marshal event = some document) : decodeEvent document = .ok event := by
  have hversion := (validateEventFields_ok.mp h.1).1
  have hvalidate : validateStoredEvent event = .ok () := by
    obtain ⟨hfields, hd, hprevious⟩ := h
    simp [validateStoredEvent, hfields, hd, hprevious, bind, Except.bind]
  have hlimit : (⟨0, schemaVersionV1, validateStoredEvent⟩ : DecodeOptions AuditEvent).limit =
      maxDocumentBytes := rfl
  have hdecode := decode_marshal auditDocument ⟨0, schemaVersionV1, validateStoredEvent⟩ hdoc
    ⟨by rw [hlimit]; omega, by decide⟩
    (by rw [hlimit]; exact_mod_cast h.document_length_le hdoc)
    (by
      change Utf8.toValidUTF8 event.schemaVersion = schemaVersionV1
      rw [hversion]
      decide +kernel)
  rw [show auditDocument.codec.norm event = event from h.norm_eq] at hdecode
  simp only [hvalidate, Except.map] at hdecode
  unfold decodeEvent
  rw [show decode AuditEvent.codec _ document = _ from hdecode]
  simp only [hdigest, if_true]

/-! ## Appending -/

theorem applyChange_run {state : ChainState} {change : Mutation} {s s' : Store} {u : Unit}
    (h : applyChange state (some change) s = .ok (u, s')) : change.run s = .ok ((), s') := by
  obtain ⟨_, s1, hrun, hrest⟩ := Tx.bind_ok.mp h
  obtain ⟨after, s2, hread, hreq⟩ := Tx.bind_ok.mp hrest
  obtain ⟨-, rfl⟩ := Tx.require_ok.mp hreq
  obtain ⟨_, _, rfl, _⟩ := readChain_ok.mp hread
  exact Tx.context_ok.mp hrun

theorem applyChange_ok {state : ChainState} {change : Option Mutation} {s s' : Store} {u : Unit}
    (h : applyChange state change s = .ok (u, s')) :
    s' = s ∨ AuditKept s s' ∧ readChain s' = .ok (state, s') := by
  cases change with
  | none =>
    cases h
    exact .inl rfl
  | some change =>
    obtain ⟨_, s1, hrun, hrest⟩ := Tx.bind_ok.mp h
    obtain ⟨after, s2, hread, hreq⟩ := Tx.bind_ok.mp hrest
    obtain ⟨rfl, rfl⟩ := Tx.require_ok.mp hreq
    obtain ⟨_, _, rfl, _⟩ := readChain_ok.mp hread
    exact .inr ⟨change.auditKept_run (Tx.context_ok.mp hrun), hread⟩

theorem append_ok {event appended : AuditEvent} {change : Option Mutation} {s s' : Store}
    (h : append event change s = .ok (appended, s')) :
    ∃ state s1 document, readChain s = .ok (state, s) ∧ validateEventFields event = .ok () ∧
      applyChange state change s = .ok ((), s1) ∧ state.nextIndex ≠ maxUint64 ∧
      canonicalDigest { event with previousDigest := state.previousDigest } = .ok appended.digest ∧
      appended = { event with previousDigest := state.previousDigest, digest := appended.digest } ∧
      AuditEvent.codec.marshal appended = some document ∧
      s' = Function.update s1 .audit ((s1 .audit).insert (eventKey state.nextIndex) document) := by
  unfold append at h
  obtain ⟨state, s0, hread, h1⟩ := Tx.bind_ok.mp h
  obtain ⟨_, _, rfl, _⟩ := readChain_ok.mp hread
  obtain ⟨_, h2⟩ := Tx.bind_require_ok.mp h1
  obtain ⟨_, hfields, h3⟩ := Tx.bind_liftExcept_ok.mp h2
  obtain ⟨_, s1, hchange, h4⟩ := Tx.bind_ok.mp h3
  obtain ⟨hmax, h5⟩ := Tx.bind_require_ok.mp h4
  obtain ⟨digest, hdigest, h6⟩ := Tx.bind_liftExcept_ok.mp h5
  obtain ⟨document, hdoc, h7⟩ := Tx.bind_liftExcept_ok.mp h6
  obtain ⟨_, s2, hstore, hpure⟩ := Tx.bind_ok.mp h7
  obtain ⟨_, _, rfl⟩ := Tx.appendAudit_ok.mp (Tx.context_ok.mp hstore)
  cases hpure
  exact ⟨state, s1, document, hread, hfields, hchange, hmax, hdigest, rfl, encode_ok.mp hdoc, rfl⟩

theorem append_change {event appended : AuditEvent} {change : Option Mutation} {s s' : Store}
    (h : append event change s = .ok (appended, s')) :
    ∃ s1, (∀ bucket, bucket ≠ .audit → s' bucket = s1 bucket) ∧
      match change with
      | none => s1 = s
      | some change => change.run s = .ok ((), s1) := by
  obtain ⟨state, s1, document, -, -, hchange, -, -, -, -, rfl⟩ := append_ok h
  refine ⟨s1, fun bucket hbucket => Function.update_of_ne hbucket _ _, ?_⟩
  cases change with
  | none =>
    cases hchange
    rfl
  | some change => exact applyChange_run hchange

/-- Two valid buckets of the same length, one of which keeps the other's records, are equal. -/
theorem Chain.bucket_eq {s s' : Store} {events events' : List AuditEvent} (h : Chain s events)
    (h' : Chain s' events') (hlength : events'.length = events.length) (hkept : AuditKept s s') :
    s' .audit = s .audit := by
  have hkeys : (s' .audit).toList.map Prod.fst = (s .audit).toList.map Prod.fst := by
    rw [h.1.keys, h'.1.keys, hlength]
  have hmem : ∀ (t : Store) (k v : Bytes), (t .audit)[k]? = some v →
    k ∈ (t .audit).toList.map Prod.fst :=
    fun t k v hv => List.mem_map_of_mem (f := Prod.fst)
      (Std.ExtTreeMap.mem_toList_iff_getElem?_eq_some.mpr hv)
  refine Std.ExtTreeMap.ext_getElem? fun k => ?_
  cases hv : (s .audit)[k]? with
  | some v => exact hkept k v hv
  | none =>
    cases hv' : (s' .audit)[k]? with
    | none => rfl
    | some v =>
      have hk := hmem s' k v hv'
      rw [hkeys] at hk
      obtain ⟨⟨k', w⟩, hentry, rfl⟩ := List.mem_map.mp hk
      rw [Std.ExtTreeMap.mem_toList_iff_getElem?_eq_some.mp hentry] at hv
      cases hv

theorem Chain.toList_insert {s : Store} {events : List AuditEvent} (h : Chain s events)
    (document : Bytes) : ((s .audit).insert (eventKey events.length) document).toList =
      (s .audit).toList ++ [(eventKey events.length, document)] := by
  refine TreeMap.toList_insert_last fun entry hentry => ?_
  have hkey : entry.1 ∈ (s .audit).toList.map Prod.fst := List.mem_map_of_mem hentry
  rw [h.1.keys] at hkey
  obtain ⟨i, hi, hkey⟩ := List.mem_map.mp hkey
  have hlt : i < events.length := by
    have := (List.mem_range'_1.mp hi).2
    omega
  have hmax := h.1.length_le (by decide)
  rw [← hkey]
  refine TreeMap.compare_pad hlt ?_
  have : maxUint64 < 10 ^ 20 := by decide
  omega

theorem canonicalBytes_ok {event : AuditEvent} {canonical : Bytes} :
    canonicalBytes event = .ok canonical ↔ validateEventFields event = .ok () ∧
      (event.previousDigest = [] ∨ validDigest event.previousDigest = true) ∧
      CanonicalEvent.codec.marshal (canonicalEvent event) = some canonical := by
  unfold canonicalBytes
  rw [except_bind_ok]
  constructor
  · rintro ⟨_, hfields, h⟩
    split at h
    case isTrue hprevious => exact ⟨hfields, hprevious, encode_ok.mp h⟩
    case isFalse => cases h
  · rintro ⟨hfields, hprevious, hmarshal⟩
    refine ⟨(), hfields, ?_⟩
    rw [if_pos hprevious]
    exact encode_ok.mpr hmarshal

theorem canonicalDigest_eq {event : AuditEvent} {digest : Bytes} :
    canonicalDigest event = .ok digest ↔
      ∃ canonical, canonicalBytes event = .ok canonical ∧
        digest = Hex.encode (Sha256.sum256 canonical) := by
  unfold canonicalDigest
  cases canonicalBytes event with
  | error e => simp [Except.map]
  | ok canonical => simp [Except.map, eq_comm]

theorem decodeEvent_ok {document : Bytes} {event : AuditEvent}
    (h : decodeEvent document = .ok event) :
    canonicalDigest event = .ok event.digest := by
  unfold decodeEvent at h
  split at h
  case h_1 => cases h
  case h_2 decoded hdecode =>
    split at h
    case h_1 => cases h
    case h_2 expected hexpected =>
      split at h
      case isTrue heq =>
        cases h
        rw [heq]
        exact hexpected
      case isFalse => cases h

theorem eventKey_injective {i j : Nat} (hi : i < 10 ^ 20) (hj : j < 10 ^ 20)
    (h : eventKey i = eventKey j) : i = j := by
  have hvalue := congrArg Decimal.value h
  rwa [eventKey, eventKey, Decimal.value_pad_of_lt hi, Decimal.value_pad_of_lt hj] at hvalue

theorem canonicalDigest_ok {event : AuditEvent} {digest : Bytes}
    (h : canonicalDigest event = .ok digest) : validDigest digest = true ∧
      (event.previousDigest = [] ∨ validDigest event.previousDigest = true) := by
  unfold canonicalDigest canonicalBytes at h
  cases hfields : validateEventFields event with
  | error e => simp [hfields, bind, Except.bind, Except.map] at h
  | ok u =>
    simp only [hfields, bind, Except.bind] at h
    split at h
    case isTrue hprev =>
      cases hdoc : encode CanonicalEvent.codec "" (canonicalEvent event) with
      | error e => simp [hdoc, Except.map] at h
      | ok document =>
        simp only [hdoc, Except.map, Except.ok.injEq] at h
        subst h
        exact ⟨validDigest_encode (Sha256.sum256_length document), hprev⟩
    case isFalse => simp [Except.map] at h

theorem append_records {event appended : AuditEvent} {change : Option Mutation} {s s' : Store}
    {events : List AuditEvent} (hchain : Chain s events)
    (h : append event change s = .ok (appended, s')) :
    ∃ document, (s' .audit).toList = (s .audit).toList ++ [(eventKey events.length, document)] ∧
      Records 0 [] (s' .audit).toList (events ++ [appended]) ∧
      appended.eventID = event.eventID ∧ decodeEvent document = .ok appended ∧
      appended.previousDigest = lastDigest [] events := by
  obtain ⟨state, s1, document, hread, hfields, hchange, hmax, hdigest, happended, hdoc, rfl⟩ :=
    append_ok h
  obtain ⟨events', hchain', -, rfl⟩ := readChain_ok.mp hread
  obtain rfl : events' = events := hchain'.log_eq.symm.trans hchain.log_eq
  have hbucket : s1 .audit = s .audit := by
    rcases applyChange_ok hchange with rfl | ⟨hkept, hread1⟩
    · rfl
    · obtain ⟨events1, hchain1, -, hstate⟩ := readChain_ok.mp hread1
      exact hchain.bucket_eq hchain1 (congrArg ChainState.nextIndex hstate).symm hkept
  have hid : appended.eventID = event.eventID := by rw [happended]
  have hprevious : appended.previousDigest = lastDigest [] events' := by rw [happended]
  obtain ⟨hvalid, hprev⟩ := canonicalDigest_ok hdigest
  have hstorable : Storable appended := by
    rw [happended]
    exact ⟨hfields, hvalid, hprev⟩
  have hcanonical : canonicalDigest appended = .ok appended.digest := by
    rw [← hdigest, happended]
    rfl
  have hdecode := hstorable.decodeEvent_marshal hcanonical hdoc
  have hlist := hchain.toList_insert document
  rw [Function.update_self, hbucket]
  refine ⟨document, hlist, ?_, hid, hdecode, hprevious⟩
  rw [hlist]
  refine (Records.snoc _ _ hchain.1).mp ⟨?_, hdecode, hprevious, ?_, trivial⟩
  · rw [Nat.zero_add]
  · rw [Nat.zero_add]
    exact hmax

theorem writes_auditEvent {event : AuditEvent} {text : Bytes}
    (h : event.occurredAt.format = some text) : AuditEvent.codec.Writes event := by
  refine Codec.writes_struct ?_
  simp only [AuditEvent.fields, List.forall_mem_cons, List.not_mem_nil, false_imp_iff,
    implies_true, and_true]
  refine ⟨?_, ?_, ?_, ?_, ?_, ?_, ?_, ?_, Member.writes_of (Codec.writes_time h),
    Member.writes_omitEmpty ⟨_, rfl⟩, ?_⟩
  all_goals exact Member.writes_of ⟨_, rfl⟩

theorem Records.lastDigest_valid : ∀ {i : Nat} {prev : Bytes} {entries : List (Bytes × Bytes)}
    {events : List AuditEvent}, Records i prev entries events →
    prev = [] ∨ validDigest prev = true →
    lastDigest prev events = [] ∨ validDigest (lastDigest prev events) = true
  | _, _, [], [], _, hprev => hprev
  | _, _, (_, _) :: _, _ :: _, h, _ =>
    h.2.2.2.2.lastDigest_valid (.inr (canonicalDigest_ok (decodeEvent_ok h.2.1)).1)

theorem Chain.next_absent {s : Store} {events : List AuditEvent} (h : Chain s events) :
    (s .audit)[eventKey events.length]? = none := by
  cases hv : (s .audit)[eventKey events.length]? with
  | none => rfl
  | some v =>
    have hkey := List.mem_map_of_mem (f := Prod.fst)
      (Std.ExtTreeMap.mem_toList_iff_getElem?_eq_some.mpr hv)
    rw [h.1.keys] at hkey
    obtain ⟨i, hi, heq⟩ := List.mem_map.mp hkey
    have hi' := List.mem_range'_1.mp hi
    have hbound := lt_of_le_of_lt (by simpa using h.1.length_le (by decide))
      (by decide : maxUint64 < 10 ^ 20)
    have := eventKey_injective (by omega) hbound heq
    omega

theorem append_of_chain {s s1 : Store} {events : List AuditEvent} {event : AuditEvent}
    {change : Option Mutation} {text : Bytes} (hchain : Chain s events)
    (hfields : validateEventFields event = .ok ())
    (hnew : event.previousDigest = [] ∧ event.digest = [])
    (hchange : applyChange ⟨events.length, lastDigest [] events⟩ change s = .ok ((), s1))
    (hcapacity : events.length ≠ maxUint64) (htime : event.occurredAt.format = some text) :
    ∃ appended document, append event change s = .ok (appended,
      Function.update s1 .audit ((s1 .audit).insert (eventKey events.length) document)) := by
  have hbucket : s1 .audit = s .audit := by
    rcases applyChange_ok hchange with rfl | ⟨hkept, hread⟩
    · rfl
    · obtain ⟨events1, hchain1, -, hstate⟩ := readChain_ok.mp hread
      exact hchain.bucket_eq hchain1 (congrArg ChainState.nextIndex hstate).symm hkept
  have hcanonical : ∃ digest, canonicalDigest
      { event with previousDigest := lastDigest [] events } = .ok digest := by
    refine ⟨_, canonicalDigest_eq.mpr ⟨_, canonicalBytes_ok.mpr ⟨hfields, ?_, rfl⟩, rfl⟩⟩
    exact hchain.1.lastDigest_valid (.inl rfl)
  obtain ⟨digest, hdigest⟩ := hcanonical
  obtain ⟨document, hmarshal⟩ := Codec.marshal_of_writes (@writes_auditEvent { event with
    previousDigest := lastDigest [] events, digest := digest } _ htime)
  refine ⟨{ event with previousDigest := lastDigest [] events, digest := digest }, document, ?_⟩
  unfold append
  rw [Tx.bind_of_ok (readChain_ok.mpr ⟨events, hchain, rfl, rfl⟩)]
  refine Tx.bind_require_ok.mpr ⟨hnew, Tx.bind_liftExcept_ok.mpr ⟨(), hfields, ?_⟩⟩
  rw [Tx.bind_of_ok hchange]
  refine Tx.bind_require_ok.mpr ⟨hcapacity, Tx.bind_liftExcept_ok.mpr ⟨digest, hdigest, ?_⟩⟩
  refine Tx.bind_liftExcept_ok.mpr ⟨document, encode_ok.mpr hmarshal, ?_⟩
  refine Tx.bind_of_ok (a := ()) (Tx.context_ok.mpr (Tx.appendAudit_ok.mpr ⟨?_, ?_, rfl⟩))
  · exact List.ne_nil_of_length_pos (by simp [eventKey])
  · rw [hbucket]
    exact hchain.next_absent

/-- A repeated event identifier stops the reader at the last record. -/
theorem readChain_of_repeated {s s' : Store} {events : List AuditEvent} {appended : AuditEvent}
    {document : Bytes} (hchain : Chain s events)
    (hlist : (s' .audit).toList = (s .audit).toList ++ [(eventKey events.length, document)])
    (hdecode : decodeEvent document = .ok appended)
    (hprevious : appended.previousDigest = lastDigest [] events)
    (hmem : appended.eventID ∈ events.map AuditEvent.eventID) :
    readChain s' = .error errChainInvalid := by
  have hscan := (foldlM_scanEvent (s .audit).toList {} _).mpr
    ⟨events, hchain.1, hchain.2, by simp, rfl⟩
  have hlast : scanEvent ⟨⟨0 + events.length, lastDigest [] events⟩,
      (events.map AuditEvent.eventID).reverse ++ []⟩ (eventKey events.length) document =
      .error errChainInvalid := by
    have hseen : appended.eventID ∈ (events.map AuditEvent.eventID).reverse ++ [] := by
      simpa using hmem
    simp only [scanEvent, Nat.zero_add, ne_eq, not_true_eq_false, if_false, hdecode,
      hprevious, hseen,
      if_true]
  have hfold : Tx.forEach .audit {} scanEvent s' = .error errChainInvalid := by
    unfold Tx.forEach
    rw [hlist, List.foldlM_append, hscan]
    simp only [bind, Except.bind, List.foldlM_cons, hlast, Except.map]
  have hother : errChainInvalid.is errChainCapacity = false := by decide
  simp only [readChain, hfold, hother, Bool.false_eq_true, if_false]

/-- An accepted append keeps the chain valid exactly when its event identifier is new. If it is
not, no later append is accepted. -/
theorem append_preserves_chain_iff {event appended : AuditEvent} {change : Option Mutation}
    {s s' : Store} (hvalid : validateChain s = .ok ((), s))
    (happend : append event change s = .ok (appended, s')) :
    (validateChain s' = .ok ((), s') ∧ log s' = log s ++ [appended] ↔
      event.eventID ∉ (log s).map AuditEvent.eventID) ∧
    (event.eventID ∈ (log s).map AuditEvent.eventID →
      ∀ later change', append later change' s' = .error errChainInvalid) := by
  obtain ⟨events, hchain, -⟩ := validateChain_ok.mp hvalid
  obtain ⟨document, hlist, hrecords, hid, hdecode, hprevious⟩ := append_records hchain happend
  rw [hchain.log_eq, ← hid]
  have hlog : log s' = events ++ [appended] := hrecords.filterMap
  refine ⟨⟨?_, ?_⟩, ?_⟩
  · rintro ⟨hvalid', -⟩ hmem
    obtain ⟨events', hchain', -⟩ := validateChain_ok.mp hvalid'
    rw [← hchain'.log_eq, hlog] at hchain'
    have hnodup := hchain'.2
    rw [List.map_append, List.nodup_append] at hnodup
    exact hnodup.2.2 _ hmem _ (by simp) rfl
  · intro hfresh
    refine ⟨validateChain_ok.mpr ⟨events ++ [appended], ⟨hrecords, ?_⟩, rfl⟩, hlog⟩
    rw [List.map_append, List.nodup_append]
    refine ⟨hchain.2, by simp, ?_⟩
    rintro a ha b hb rfl
    simp only [List.map_cons, List.map_nil, List.mem_singleton] at hb
    exact hfresh (hb ▸ ha)
  · intro hmem later change'
    exact Tx.bind_of_error (readChain_of_repeated hchain hlist hdecode hprevious hmem)

def smallEvent (eventID : Bytes) : AuditEvent where
  schemaVersion := schemaVersionV1
  eventID := eventID
  aggregateType := lit "t"
  aggregateID := lit "a"
  actorIdentity := lit "u"
  action := lit "x"
  result := lit "r"
  reasonCode := lit "c"
  occurredAt := 1000000000

theorem chain_empty : Chain Store.empty [] := ⟨trivial, List.nodup_nil⟩

theorem validAuditField_small : ∀ value ∈ [lit "e", lit "f", lit "t", lit "a", lit "u", lit "x",
    lit "r", lit "c"], validAuditField value = true := by decide +kernel

theorem append_smallEvent {s : Store} {events : List AuditEvent} {eventID : Bytes}
    (h : Chain s events) (hlength : events.length < 2) (hid : eventID ∈ [lit "e", lit "f"]) :
    ∃ event s', append (smallEvent eventID) none s = .ok (event, s') ∧ event.eventID = eventID ∧
      canonicalDigest { smallEvent eventID with previousDigest := lastDigest [] events } =
        .ok event.digest ∧
      (eventID ∉ events.map AuditEvent.eventID → Chain s' (events ++ [event])) := by
  obtain ⟨he, hf, hother⟩ := List.forall_mem_cons.mp validAuditField_small |>.imp_right
    List.forall_mem_cons.mp
  have hvalid : validAuditField eventID = true := by
    rcases List.mem_pair.mp hid with rfl | rfl
    · exact he
    · exact hf
  have hfields : validateEventFields (smallEvent eventID) = .ok () :=
    validateEventFields_ok.mpr ⟨rfl, rfl, List.forall_mem_cons.mpr ⟨hvalid, hother⟩⟩
  have hcapacity : events.length ≠ maxUint64 := by
    unfold maxUint64
    omega
  have htime : Time.format 1000000000 = some (lit "0001-01-01T00:00:01Z") := by decide +kernel
  have hchange : applyChange ⟨events.length, lastDigest [] events⟩ none s = .ok ((), s) := rfl
  obtain ⟨event, document, happend⟩ :=
    append_of_chain h hfields ⟨rfl, rfl⟩ hchange hcapacity htime
  obtain ⟨_, -, hrecords, heq, -⟩ := append_records h happend
  obtain ⟨state, _, _, hread, -, -, -, hdigest, -⟩ := append_ok happend
  obtain ⟨events', hchain', -, rfl⟩ := readChain_ok.mp hread
  obtain rfl : events' = events := hchain'.log_eq.symm.trans h.log_eq
  refine ⟨event, _, happend, heq, hdigest, fun hfresh => ⟨hrecords, ?_⟩⟩
  rw [List.map_append, List.nodup_append]
  refine ⟨h.2, List.nodup_singleton _, ?_⟩
  rintro a ha b hb rfl
  rw [List.map_singleton, List.mem_singleton, heq] at hb
  obtain rfl : a = eventID := hb
  exact hfresh ha

theorem append_repeated_event_breaks_chain :
    ∃ first second s1 s2, append (smallEvent (lit "e")) none Store.empty = .ok (first, s1) ∧
      validateChain s1 = .ok ((), s1) ∧ append (smallEvent (lit "e")) none s1 = .ok (second, s2) ∧
      validateChain s2 = .error errChainInvalid ∧
      ∀ later change, append later change s2 = .error errChainInvalid := by
  obtain ⟨first, s1, h1, hid1, -, hchain1⟩ := append_smallEvent chain_empty Nat.two_pos (.head _)
  have hchain1 : Chain s1 [first] := hchain1 (by simp)
  obtain ⟨second, s2, h2, hid2, -⟩ := append_smallEvent hchain1 Nat.one_lt_two (.head _)
  obtain ⟨_, hlist, -, -, hdecode, hprevious⟩ := append_records hchain1 h2
  have hread : readChain s2 = .error errChainInvalid :=
    readChain_of_repeated hchain1 hlist hdecode hprevious (by simp [hid1, hid2])
  exact ⟨first, second, s1, s2, h1, validateChain_ok.mpr ⟨_, hchain1, rfl⟩, h2,
    Tx.bind_of_error hread, fun _ _ => Tx.bind_of_error hread⟩

theorem append_preserves_chain_iff_second :
    ∃ first second s1 s2, append (smallEvent (lit "e")) none Store.empty = .ok (first, s1) ∧
      append (smallEvent (lit "f")) none s1 = .ok (second, s2) ∧
      validateChain s2 = .ok ((), s2) ∧ log s2 = [first, second] := by
  obtain ⟨first, s1, h1, hid1, -, hchain1⟩ := append_smallEvent chain_empty Nat.two_pos (.head _)
  have hchain1 : Chain s1 [first] := hchain1 (by simp)
  obtain ⟨second, s2, h2, -⟩ := append_smallEvent hchain1 Nat.one_lt_two (.tail _ (.head _))
  have hiff := (append_preserves_chain_iff (validateChain_ok.mpr ⟨_, hchain1, rfl⟩) h2).1
  rw [hchain1.log_eq, List.map_singleton, hid1, List.mem_singleton] at hiff
  exact ⟨first, second, s1, s2, h1, h2, hiff.mpr (by decide)⟩

end PulseAgent.Audit
