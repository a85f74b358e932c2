import PulseAgent.Audit.Append
import PulseAgent.Linked

/-!
# What a valid chain commits to

The last digest determines the log. Nothing marks the end: without its last record a valid chain is
still valid.
-/

namespace PulseAgent.Audit

open Go Go.Json Contract

/-! ## The digest of one event -/

theorem norm_canonicalEvent {event : AuditEvent} (hfields : validateEventFields event = .ok ())
    (hprevious : event.previousDigest = [] ∨ validDigest event.previousDigest = true) :
    CanonicalEvent.codec.norm (canonicalEvent event) = canonicalEvent event := by
  obtain ⟨hversion, -, hvalid⟩ := validateEventFields_ok.mp hfields
  have hfield : ∀ value ∈ auditFields event, Utf8.toValidUTF8 value = value := fun value hv =>
    Utf8.toValidUTF8_of_valid (validAuditField_spec (hvalid value hv)).2.2
  simp only [auditFields, List.forall_mem_cons] at hfield
  obtain ⟨hid, htype, haggregate, hactor, haction, hresult, hreason, -⟩ := hfield
  have hprev : Utf8.toValidUTF8 event.previousDigest = event.previousDigest := by
    rcases hprevious with h | h
    · rw [h]
      rfl
    · exact Utf8.toValidUTF8_of_valid (validString_of_validDigest h).2
  have hver : Utf8.toValidUTF8 event.schemaVersion = event.schemaVersion := by
    rw [hversion]
    decide +kernel
  have htime := Utf8.toValidUTF8_of_valid (Time.validString_rfc3339Nano event.occurredAt)
  change CanonicalEvent.mk (Utf8.toValidUTF8 event.schemaVersion) (Utf8.toValidUTF8 event.eventID)
    (Utf8.toValidUTF8 event.aggregateType) (Utf8.toValidUTF8 event.aggregateID)
    (Utf8.toValidUTF8 event.actorIdentity) (Utf8.toValidUTF8 event.action)
    (Utf8.toValidUTF8 event.result) (Utf8.toValidUTF8 event.reasonCode)
    (Utf8.toValidUTF8 event.occurredAt.rfc3339Nano) (Utf8.toValidUTF8 event.previousDigest) = _
  rw [hver, hprev, htime, hid, htype, haggregate, hactor, haction, hresult, hreason]
  rfl

/-- The canonical bytes determine every field but the digest itself. -/
theorem canonicalBytes_injective {a b : AuditEvent} {canonical : Bytes}
    (ha : canonicalBytes a = .ok canonical) (hb : canonicalBytes b = .ok canonical) :
    { a with digest := b.digest } = b := by
  obtain ⟨hfields, hprevious, hmarshal⟩ := canonicalBytes_ok.mp ha
  obtain ⟨hfields', hprevious', hmarshal'⟩ := canonicalBytes_ok.mp hb
  have hcontent := (content_marshal hmarshal).symm.trans (content_marshal hmarshal')
  rw [norm_canonicalEvent hfields hprevious, norm_canonicalEvent hfields' hprevious'] at hcontent
  have h := Option.some.inj hcontent
  simp only [canonicalEvent, CanonicalEvent.mk.injEq] at h
  obtain ⟨hversion, hid, htype, haggregate, hactor, haction, hresult, hreason, htime, hprev⟩ := h
  have htime := Time.rfc3339Nano_injective htime
  cases a
  cases b
  simp_all

/-! ## The head of the chain -/

theorem Records.chained : ∀ {i : Nat} {prev : Bytes} {entries : List (Bytes × Bytes)}
    {events : List AuditEvent}, Records i prev entries events →
    Linked.Chained AuditEvent.digest AuditEvent.previousDigest prev events
  | _, _, [], [], _ => trivial
  | _, _, (_, _) :: _, _ :: _, h => ⟨h.2.2.1, h.2.2.2.2.chained⟩

theorem Records.digests : ∀ {i : Nat} {prev : Bytes} {entries : List (Bytes × Bytes)}
    {events : List AuditEvent}, Records i prev entries events →
    ∀ event ∈ events, canonicalDigest event = .ok event.digest
  | _, _, [], [], _ => by simp
  | _, _, (_, _) :: _, _ :: _, h =>
    List.forall_mem_cons.mpr ⟨decodeEvent_ok h.2.1, h.2.2.2.2.digests⟩

def appended (eventID : Bytes) (s : Store) : Store :=
  (Store.update (append (smallEvent eventID) none) s).2

theorem exists_chain_of_two : ∃ e f,
    Chain (appended (lit "f") (appended (lit "e") Store.empty)) [e, f] := by
  obtain ⟨e, s, he, hid, -, hone⟩ := append_smallEvent chain_empty Nat.two_pos (.head _)
  have hone : Chain s [e] := hone (by simp)
  obtain ⟨f, t, hf, -, -, htwo⟩ := append_smallEvent hone Nat.one_lt_two (.tail _ (.head _))
  have hs : appended (lit "e") Store.empty = s := congrArg Prod.snd (Store.update_of_ok he)
  have ht : appended (lit "f") s = t := congrArg Prod.snd (Store.update_of_ok hf)
  rw [hs, ht]
  refine ⟨e, f, htwo ?_⟩
  rw [List.map_singleton, hid, List.mem_singleton]
  decide

/-- No two events of the two logs have different canonical bytes with the same SHA-256 sum. -/
def CollisionFree (s t : Store) : Prop :=
  ∀ a ∈ log s, ∀ b ∈ log t, ∀ x y, canonicalBytes a = .ok x → canonicalBytes b = .ok y →
    Sha256.sum256 x = Sha256.sum256 y → x = y

theorem CollisionFree.of_digests {s t : Store} {events events' : List AuditEvent}
    (hs : Chain s events)
    (ht : Chain t events') (h : ∀ a ∈ log s, ∀ b ∈ log t, a.digest = b.digest →
      (canonicalBytes a).toOption = (canonicalBytes b).toOption) : CollisionFree s t := by
  intro a ha b hb x y hx hy hsum
  have hbytes := h a ha b hb
  rw [hs.log_eq] at ha
  rw [ht.log_eq] at hb
  obtain ⟨x', hx', ha'⟩ := canonicalDigest_eq.mp (hs.1.digests a ha)
  obtain ⟨y', hy', hb'⟩ := canonicalDigest_eq.mp (ht.1.digests b hb)
  rw [ha', hb', Except.ok.inj (hx'.symm.trans hx), Except.ok.inj (hy'.symm.trans hy), hsum, hx,
    hy] at hbytes
  exact Option.some.inj (hbytes rfl)

/-- Two valid chains whose last events have the same digest, or which are both empty, hold the
same events. -/
theorem head_commits_to_log {s t : Store} (hs : validateChain s = .ok ((), s))
    (ht : validateChain t = .ok ((), t)) (hfree : CollisionFree s t)
    (hhead : (log s).getLast?.map AuditEvent.digest = (log t).getLast?.map AuditEvent.digest) :
    log s = log t := by
  obtain ⟨events, hchain, -⟩ := validateChain_ok.mp hs
  obtain ⟨events', hchain', -⟩ := validateChain_ok.mp ht
  unfold CollisionFree at hfree
  rw [hchain.log_eq] at hfree hhead ⊢
  rw [hchain'.log_eq] at hfree hhead ⊢
  have hlast : ∀ l : List AuditEvent,
      Linked.head AuditEvent.digest [] l = (l.getLast?.map AuditEvent.digest).getD [] := by
    intro l
    induction l using List.reverseRecOn with
    | nil => rfl
    | append_singleton l e _ => simp [Linked.head_concat]
  have hroot : ∀ {l : List AuditEvent}, (∀ e ∈ l, canonicalDigest e = .ok e.digest) →
      ∀ e ∈ l, e.digest ≠ [] := by
    intro l hl e he hnil
    have hvalid := (canonicalDigest_ok (hl e he)).1
    rw [hnil] at hvalid
    cases hvalid
  refine Linked.eq_of_head_eq hchain.1.chained hchain'.1.chained (hroot hchain.1.digests)
    (hroot hchain'.1.digests) ?_ ?_
  · intro a ha b hb hdigest
    obtain ⟨x, hx, hax⟩ := canonicalDigest_eq.mp (hchain.1.digests a ha)
    obtain ⟨y, hy, hby⟩ := canonicalDigest_eq.mp (hchain'.1.digests b hb)
    have hsum := Hex.encode_injective (hax.symm.trans (hdigest.trans hby))
    obtain rfl := hfree a ha b hb x y hx hy hsum
    have h := canonicalBytes_injective hx hy
    rwa [← hdigest] at h
  · rw [hlast, hlast, hhead]

/-- The digest of `smallEvent (lit "e")` at the start of a chain. -/
def firstDigest : Bytes := lit "91df9ba70639238cf2049a521405154dca3f58b6c2a20fef668ce95724d58d70"

theorem head_commits_to_log_two : ∃ s t : Store, (log s).length = 2 ∧
    t = Function.update s .runbooks {(lit "k", lit "v")} ∧ log s = log t := by
  obtain ⟨e, s, -, hid, he, hone⟩ := append_smallEvent chain_empty Nat.two_pos (.head _)
  have hone : Chain s [e] := hone (by simp)
  obtain ⟨f, t, -, -, hf, htwo⟩ := append_smallEvent hone Nat.one_lt_two (.tail _ (.head _))
  have hs : Chain t [e, f] := htwo (by rw [List.map_singleton, hid, List.mem_singleton]; decide)
  have ht : Chain (Function.update t .runbooks {(lit "k", lit "v")}) [e, f] := by
    unfold Chain
    rw [Function.update_of_ne (by decide)]
    exact hs
  have hdigests : ([e, f].map AuditEvent.digest).Nodup := by
    have hfirst : canonicalDigest (smallEvent (lit "e")) = .ok firstDigest := by decide +kernel
    have hsecond : canonicalDigest { smallEvent (lit "f") with previousDigest := firstDigest } ≠
        .ok firstDigest := by decide +kernel
    have hdigest := Except.ok.inj (hfirst.symm.trans he)
    rw [hdigest] at hsecond
    refine List.nodup_cons.mpr ⟨fun hmem => hsecond ?_, List.nodup_singleton _⟩
    exact hf.trans (congrArg Except.ok (List.mem_singleton.mp hmem).symm)
  refine ⟨t, _, by rw [hs.log_eq]; rfl, rfl, head_commits_to_log (validateChain_ok.mpr ⟨_, hs, rfl⟩)
    (validateChain_ok.mpr ⟨_, ht, rfl⟩) (.of_digests hs ht ?_) (by rw [hs.log_eq, ht.log_eq])⟩
  intro a ha b hb hdigest
  rw [hs.log_eq] at ha
  rw [ht.log_eq] at hb
  rw [List.inj_on_of_nodup_map hdigests ha hb hdigest]

/-! ## A missing record -/

/-- The store without the record at one position, removed past the store's own interface. -/
def deleteRecord (s : Store) (index : Nat) : Store :=
  Function.update s .audit ((s .audit).erase (eventKey index))

theorem Records.length_eq : ∀ {i : Nat} {prev : Bytes} {entries : List (Bytes × Bytes)}
    {events : List AuditEvent}, Records i prev entries events → entries.length = events.length
  | _, _, [], [], _ => rfl
  | _, _, (_, _) :: _, _ :: _, h => congrArg Nat.succ h.2.2.2.2.length_eq

theorem Records.dropLast {i : Nat} {prev : Bytes} {entries : List (Bytes × Bytes)}
    {events : List AuditEvent} (h : Records i prev entries events) :
    Records i prev entries.dropLast events.dropLast := by
  induction events generalizing i prev entries with
  | nil =>
    cases entries with
    | nil => trivial
    | cons entry entries => cases h
  | cons event events ih =>
    cases entries with
    | nil => cases h
    | cons entry entries =>
      obtain ⟨hkey, hdecode, hprevious, hmax, hrest⟩ := h
      have hlength := hrest.length_eq
      cases events with
      | nil =>
        rw [List.length_eq_zero_iff.mp hlength]
        trivial
      | cons event' events =>
        cases entries with
        | nil => cases hlength
        | cons entry' entries => exact ⟨hkey, hdecode, hprevious, hmax, ih hrest⟩

section Deletion

variable {s : Store} {events : List AuditEvent}

/-- A key that is left over although its predecessors are fewer breaks the positions. -/
theorem not_chain_of_gap {t : Store} (h : Chain s events) {index : Nat}
    (hindex : index + 1 < events.length)
    (ht : (t .audit).toList = (s .audit).toList.filter fun entry => entry.1 ≠ eventKey index) :
    ¬∃ events', Chain t events' := by
  rintro ⟨events', hchain'⟩
  have hbound : events.length < 10 ^ 20 :=
    lt_of_le_of_lt (by simpa using h.1.length_le (by decide)) (by decide : maxUint64 < 10 ^ 20)
  have hkeys := h.1.keys
  have hkeys' := hchain'.1.keys
  have hkey : ∀ i < events.length, eventKey i ∈ (s .audit).toList.map Prod.fst := by
    intro i hi
    rw [hkeys]
    exact List.mem_map_of_mem (List.mem_range'_1.mpr (by omega))
  have hfewer : events'.length < events.length := by
    rw [← hchain'.1.length_eq, ← h.1.length_eq, ht]
    obtain ⟨entry, hmem, hentry⟩ := List.mem_map.mp (hkey index (by omega))
    exact List.length_filter_lt_length_iff_exists.mpr ⟨entry, hmem, by simp [hentry]⟩
  -- the last record is still there, beyond the last position the chain could have
  have hlast : eventKey (events.length - 1) ∈ (t .audit).toList.map Prod.fst := by
    obtain ⟨entry, hmem, hentry⟩ := List.mem_map.mp (hkey (events.length - 1) (by omega))
    rw [ht]
    refine List.mem_map.mpr ⟨entry, List.mem_filter.mpr ⟨hmem, ?_⟩, hentry⟩
    refine decide_eq_true fun heq => ?_
    have := eventKey_injective (by omega) (by omega) (hentry.symm.trans heq)
    omega
  rw [hkeys'] at hlast
  obtain ⟨i, hi, heq⟩ := List.mem_map.mp hlast
  have hi' := List.mem_range'_1.mp hi
  have := eventKey_injective (by omega) (by omega) heq
  omega

theorem chain_without_last {t : Store} (h : Chain s events) (hne : events ≠ [])
    (ht : (t .audit).toList =
      (s .audit).toList.filter fun entry => entry.1 ≠ eventKey (events.length - 1)) :
    Chain t events.dropLast := by
  have hpos : 0 < events.length := List.length_pos_iff.mpr hne
  have hbound : events.length < 10 ^ 20 :=
    lt_of_le_of_lt (by simpa using h.1.length_le (by decide)) (by decide : maxUint64 < 10 ^ 20)
  have hentries : (s .audit).toList ≠ [] := by
    intro hnil
    have hlength := h.1.length_eq
    rw [hnil, List.length_nil] at hlength
    omega
  have hsplit := List.dropLast_append_getLast hentries
  have hkeys := h.1.keys
  have hfilter : ((s .audit).toList.filter fun entry => entry.1 ≠ eventKey (events.length - 1)) =
      (s .audit).toList.dropLast := by
    have hrange : List.range' 0 events.length =
        List.range' 0 (events.length - 1) ++ [events.length - 1] := by
      have hconcat := @List.range'_concat 1 0 (events.length - 1)
      rw [Nat.sub_add_cancel hpos] at hconcat
      simpa using hconcat
    rw [hrange, List.map_append, ← hsplit, List.map_append] at hkeys
    obtain ⟨hinit, hlast⟩ := List.append_inj' hkeys (by simp)
    have hlastKey := List.cons.inj hlast
    nth_rewrite 1 [← hsplit]
    rw [List.filter_append, List.filter_eq_self.mpr, List.filter_eq_nil_iff.mpr, List.append_nil]
    · intro entry hentry
      rw [List.mem_singleton.mp hentry]
      simpa using hlastKey.1
    · intro entry hentry
      have hmem := List.mem_map_of_mem (f := Prod.fst) hentry
      rw [hinit] at hmem
      obtain ⟨i, hi, hkey⟩ := List.mem_map.mp hmem
      have hi' := List.mem_range'_1.mp hi
      refine decide_eq_true fun heq => ?_
      have := eventKey_injective (by omega) (by omega) (hkey.trans heq)
      omega
  refine ⟨?_, ?_⟩
  · rw [ht, hfilter]
    exact h.1.dropLast
  · rw [List.map_dropLast]
    exact h.2.sublist (List.dropLast_sublist _)

theorem toList_deleteRecord (s : Store) (index : Nat) : (deleteRecord s index .audit).toList =
    (s .audit).toList.filter fun entry => entry.1 ≠ eventKey index := by
  unfold deleteRecord
  rw [Function.update_self]
  exact TreeMap.toList_erase _

/-- A deleted record is detected exactly when it was not the last one. -/
theorem deletion_detected_iff (hvalid : validateChain s = .ok ((), s)) {index : Nat}
    (hindex : index < (log s).length) :
    (validateChain (deleteRecord s index)).isOk = false ↔ index + 1 < (log s).length := by
  obtain ⟨events, hchain, -⟩ := validateChain_ok.mp hvalid
  rw [hchain.log_eq] at hindex ⊢
  have htoList := toList_deleteRecord s index
  constructor
  · intro hfails
    by_contra hlast
    have heq : index = events.length - 1 := by omega
    rw [heq] at htoList hfails
    have hrest := chain_without_last hchain (List.ne_nil_of_length_pos (by omega)) htoList
    rw [(validateChain_ok (u := ())).mpr ⟨_, hrest, rfl⟩] at hfails
    cases hfails
  · intro hgap
    have hnone := not_chain_of_gap hchain hgap htoList
    cases hresult : validateChain (deleteRecord s index) with
    | error e => rfl
    | ok r =>
      obtain ⟨events', hchain', -⟩ := validateChain_ok.mp hresult
      exact absurd ⟨events', hchain'⟩ hnone

end Deletion

theorem deletion_detected_first :
    (validateChain (deleteRecord (appended (lit "f") (appended (lit "e") Store.empty)) 0)).isOk =
      false := by
  obtain ⟨e, f, hchain⟩ := exists_chain_of_two
  refine (deletion_detected_iff (validateChain_ok.mpr ⟨_, hchain, rfl⟩) ?_).mpr ?_
  · rw [hchain.log_eq]
    exact Nat.two_pos
  · rw [hchain.log_eq]
    exact Nat.one_lt_two

theorem deletion_of_last_undetected :
    (validateChain (appended (lit "f") (appended (lit "e") Store.empty))).isOk = true ∧
      (log (appended (lit "f") (appended (lit "e") Store.empty))).length = 2 ∧
      (validateChain (deleteRecord (appended (lit "f") (appended (lit "e") Store.empty)) 1)).isOk =
        true := by
  obtain ⟨e, f, hchain⟩ := exists_chain_of_two
  have hrest := chain_without_last hchain (by simp) (toList_deleteRecord _ 1)
  rw [(validateChain_ok (u := ())).mpr ⟨_, hchain, rfl⟩, hchain.log_eq,
    (validateChain_ok (u := ())).mpr ⟨_, hrest, rfl⟩]
  exact ⟨rfl, rfl, rfl⟩

end PulseAgent.Audit
