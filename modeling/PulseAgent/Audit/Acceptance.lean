import PulseAgent.Audit.Append

/-!
# When an append is accepted

On a valid chain an append fails for three reasons only: a field of the event, a time that has no
text, and a full key space.
-/

namespace PulseAgent.Audit

open Go Go.Json Contract

theorem format_of_marshal {event : AuditEvent} {document : Bytes}
    (h : AuditEvent.codec.marshal event = some document) :
    ∃ text, event.occurredAt.format = some text := by
  obtain ⟨v, hv, -⟩ := Option.map_eq_some_iff.mp h
  obtain ⟨ms, hms, -⟩ := Option.map_eq_some_iff.mp hv
  have hfield : Member.of (lit "occurred_at") .time AuditEvent.occurredAt
      (fun x s => { s with occurredAt := x }) ∈ AuditEvent.fields := by simp [AuditEvent.fields]
  obtain ⟨text, htext⟩ := Member.marshal_member hms AuditEvent.occurredAt hfield
  obtain ⟨w, hw, -⟩ := Option.map_eq_some_iff.mp htext
  obtain ⟨written, hwritten, -⟩ := Option.map_eq_some_iff.mp hw
  exact ⟨written, hwritten⟩

/-- The change of an append does nothing, or it runs through and leaves the audit records alone. -/
def Changes (change : Option Mutation) (s s1 : Store) : Prop :=
  (change = none ∧ s1 = s) ∨
    ∃ program, change = some program ∧ program.run s = .ok ((), s1) ∧ s1 .audit = s .audit

section

variable {event appended : AuditEvent} {events : List AuditEvent} {change : Option Mutation}
  {s s1 s' : Store}

theorem Chain.of_audit (h : Chain s events) (haudit : s1 .audit = s .audit) : Chain s1 events := by
  rw [Chain, haudit]
  exact h

theorem Changes.applyChange (h : Changes change s s1) (hchain : Chain s events) :
    Audit.applyChange ⟨events.length, lastDigest [] events⟩ change s = .ok ((), s1) := by
  rcases h with ⟨rfl, rfl⟩ | ⟨program, rfl, hrun, haudit⟩
  · rfl
  · refine Tx.bind_ok.mpr ⟨(), s1, Tx.context_ok.mpr hrun, Tx.bind_ok.mpr ⟨_, s1,
      readChain_ok.mpr ⟨events, hchain.of_audit haudit, rfl, rfl⟩, Tx.require_ok.mpr ⟨rfl, rfl⟩⟩⟩

theorem append_accepted_iff (hchain : Chain s events)
    (hnew : event.previousDigest = [] ∧ event.digest = []) (hchange : Changes change s s1) :
    (∃ appended s', append event change s = .ok (appended, s')) ↔
      validateEventFields event = .ok () ∧ (∃ text, event.occurredAt.format = some text) ∧
        events.length ≠ maxUint64 := by
  constructor
  · rintro ⟨appended, s', happend⟩
    obtain ⟨state, _, document, hread, hfields, -, hmax, -, heq, hdocument, -⟩ := append_ok happend
    obtain ⟨events', hchain', -, rfl⟩ := readChain_ok.mp hread
    obtain rfl : events' = events := hchain'.log_eq.symm.trans hchain.log_eq
    obtain ⟨text, htext⟩ := format_of_marshal hdocument
    rw [heq] at htext
    exact ⟨hfields, ⟨text, htext⟩, hmax⟩
  · rintro ⟨hfields, ⟨text, htext⟩, hmax⟩
    obtain ⟨appended, document, happend⟩ :=
      append_of_chain hchain hfields hnew (hchange.applyChange hchain) hmax htext
    exact ⟨appended, _, happend⟩

theorem append_recorded (hchain : Chain s events) (hchange : Changes change s s1)
    (hfresh : event.eventID ∉ events.map AuditEvent.eventID)
    (h : append event change s = .ok (appended, s')) :
    Chain s' (events ++ [appended]) ∧ (∀ bucket, bucket ≠ .audit → s' bucket = s1 bucket) ∧
      ∃ previousDigest digest, appended =
        { event with previousDigest := previousDigest, digest := digest } := by
  obtain ⟨_, -, hrecords, hid, -⟩ := append_records hchain h
  obtain ⟨state, s2, document, hread, -, happly, -, -, heq, -, rfl⟩ := append_ok h
  obtain ⟨events', hchain', -, rfl⟩ := readChain_ok.mp hread
  obtain rfl : events' = events := hchain'.log_eq.symm.trans hchain.log_eq
  cases (hchange.applyChange hchain).symm.trans happly
  refine ⟨⟨hrecords, ?_⟩, fun bucket hbucket => Function.update_of_ne hbucket _ _, _, _, heq⟩
  rw [List.map_append, List.map_singleton, List.nodup_append]
  refine ⟨hchain.2, List.nodup_singleton _, ?_⟩
  rintro id hmem _ hlast rfl
  rw [List.mem_singleton, hid] at hlast
  exact hfresh (hlast ▸ hmem)

end

end PulseAgent.Audit
