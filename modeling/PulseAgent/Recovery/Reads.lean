import PulseAgent.Recovery.Legible

/-!
# What submissions leave readable

One record that does not read back stops every scan of the journal.
-/

namespace PulseAgent.Recovery

open Go Go.Json Contract Concurrent

/-! ## Scans -/

theorem storedRecords_pairwise (s : Store) :
    (storedRecords s).Pairwise fun a b => a.key ≠ b.key := by
  refine List.Pairwise.filterMap _ ?_ Std.ExtTreeMap.distinct_keys_toList
  intro entry entry' hne a ha b hb hkey
  have hkeys : ∀ {entry : Bytes × Bytes} {stored}, storedRecord entry = some stored →
      stored.key = entry.1 := by
    intro entry stored h
    unfold storedRecord at h
    split at h
    case isTrue =>
      obtain ⟨r, -, rfl⟩ := Option.map_eq_some_iff.mp h
      rfl
    case isFalse => cases h
  rw [hkeys ha, hkeys hb] at hkey
  exact hne (by rw [hkey]; exact Std.ReflCmp.compare_self)

theorem exists_toList_eq {α : Type} {l : List α}
    (h : l.Pairwise fun _ _ => False) : ∃ found : Option α, l = found.toList := by
  match l with
  | [] => exact ⟨none, rfl⟩
  | [a] => exact ⟨some a, rfl⟩
  | a :: b :: l => exact absurd (List.mem_cons_self) (List.rel_of_pairwise_cons h)

/-- No scan of the journal fails in a run whose text is valid, whose records leave room for
their later phases and whose command IDs are distinct. -/
theorem scans_of_run {s : Store} {actions : List (Action system)} (hempty : s .commandJournal = ∅)
    (htext : ValidText s actions)
    (hfits : ∀ c request, Call.submit c request ∈ spawned actions → request.fits)
    (hdistinct : DistinctIDs s actions) :
    (∃ records, reconcilableRecords (run s actions).state = .ok (records, (run s actions).state)) ∧
      ∀ commandID, ∃ found, findRecordByCommandID commandID (run s actions).state =
        .ok (found, (run s actions).state) := by
  have hreadable := (legible_of_run (legible_empty hempty) htext hfits).readable
  refine ⟨⟨_, reconcilableRecords_ok.mpr ⟨rfl, hreadable, rfl⟩⟩, fun commandID => ?_⟩
  obtain ⟨found, hfound⟩ := exists_toList_eq (l := (storedRecords (run s actions).state).filter
      fun stored => stored.record.command.commandID = commandID) (by
    refine List.pairwise_filter.mpr ((storedRecords_pairwise _).imp_of_mem ?_)
    intro a b ha hb hne haid hbid
    obtain ⟨hakey, haloads⟩ := mem_storedRecords.mp ha
    obtain ⟨hbkey, hbloads⟩ := mem_storedRecords.mp hb
    refine hne (key_of_commandID hempty htext.ids hdistinct hakey hbkey haloads.recordAt_eq
      hbloads.recordAt_eq ?_)
    rw [of_decide_eq_true haid, of_decide_eq_true hbid])
  exact ⟨found, findRecordByCommandID_ok.mpr ⟨rfl, hreadable, hfound⟩⟩

/-! ## Records of requests -/

def encodedLength (record : JournalRecord) : Nat :=
  ((JournalRecord.codec.marshal record).getD []).length

theorem loadRecord_of_persisted {request : Request} {commandID : Bytes} {now : Time}
    {decision : Policy.Decision} {record : JournalRecord} {s s' : Store}
    (hprepared : Coordinator.prepareRecord request commandID now = .ok (decision, some record))
    (hpersisted : persistPending record s = .ok ((record, false), s')) :
    loadRecord (recordKey record.command) s' = .ok (some record, s') ↔
      Utf8.validString commandID = true ∧ request.validText ∧
        encodedLength record ≤ maxJournalDocumentBytes := by
  obtain ⟨h, -⟩ | ⟨-, -, habsent, document, hwritten, rfl⟩ := persistPending_ok hpersisted
  · cases h
  · have hlength : encodedLength record = document.length := by
      rw [encodedLength, hwritten.marshal, Option.getD_some]
    have hindex := indexKey_ne_recordKey record.command.idempotencyKey record.command
    rw [loadRecord_ok, hwritten.loads_iff, norm_pendingRecord_iff hprepared hwritten.valid, hlength]
    · simp [recordKey_ne_nil, and_assoc]
    · rw [Function.update_self, Std.ExtTreeMap.getElem?_insert, Std.ExtTreeMap.getElem?_insert_self]
      simp [hindex]

/-- A pending record that a submission persisted reads back exactly if the text of its request
and its command ID are valid UTF-8 and its document is within the limit. Where every submission
of a run meets this with room for the later phases and under a command ID of its own, no scan of
the journal fails. -/
theorem journal_reads_back_iff (request : Request) (commandID : Bytes) (now : Time)
    (decision : Policy.Decision) {record : JournalRecord} {s s' : Store}
    (hprepared : Coordinator.prepareRecord request commandID now = .ok (decision, some record))
    (hpersisted : persistPending record s = .ok ((record, false), s')) :
    (loadRecord (recordKey record.command) s' = .ok (some record, s') ↔
      Utf8.validString commandID = true ∧ request.validText ∧
        encodedLength record ≤ maxJournalDocumentBytes) ∧
    ∀ (s : Store) (actions : List (Action system)), s .commandJournal = ∅ → ValidText s actions →
      (∀ c request, Call.submit c request ∈ spawned actions → request.fits) →
      DistinctIDs s actions →
      (∃ records, reconcilableRecords (run s actions).state =
        .ok (records, (run s actions).state)) ∧
      ∀ commandID, ∃ found, findRecordByCommandID commandID (run s actions).state =
        .ok (found, (run s actions).state) :=
  ⟨loadRecord_of_persisted hprepared hpersisted,
    fun _ _ hempty htext hfits hdistinct => scans_of_run hempty htext hfits hdistinct⟩

/-! ## A request with one invalid byte -/

theorem sample_submission_reads_back :
    loadRecord (recordKey (sampleRecord (lit "n") (lit "c")).command)
        (sampleStore (sampleRecord (lit "n") (lit "c"))) =
      .ok (some (sampleRecord (lit "n") (lit "c")),
        sampleStore (sampleRecord (lit "n") (lit "c"))) :=
  (journal_reads_back_iff (sampleRequest (lit "n") (lit "c") (lit "k")) (lit "i") 1
    ⟨.allow, .allowed⟩ (by decide +kernel)
    (persistPending_sample (by decide +kernel) (by decide +kernel))).1.mpr
    ⟨by decide +kernel, ⟨by decide +kernel, by decide +kernel⟩, by decide +kernel⟩

/-- An incident ID of one invalid byte is accepted and persisted. Its record is then found under
a key that is not its own, and every scan of the journal fails. -/
theorem submission_corrupts_journal :
    validateRequest (sampleRequest [0xff] (lit "c") (lit "k")) = .ok () ∧
      validToken (lit "i") maxCommandIDLength = true ∧
      Coordinator.prepareRecord (sampleRequest [0xff] (lit "c") (lit "k")) (lit "i") 1 =
        .ok (⟨.allow, .allowed⟩, some (sampleRecord [0xff] (lit "c"))) ∧
      persistPending (sampleRecord [0xff] (lit "c")) Store.empty =
        .ok ((sampleRecord [0xff] (lit "c"), false), sampleStore (sampleRecord [0xff] (lit "c"))) ∧
      loadRecord (recordKey (sampleRecord [0xff] (lit "c")).command)
        (sampleStore (sampleRecord [0xff] (lit "c"))) = .error errCorruptJournal ∧
      findRecordByCommandID (lit "i") (sampleStore (sampleRecord [0xff] (lit "c"))) =
        .error errCorruptJournal ∧
      reconcilableRecords (sampleStore (sampleRecord [0xff] (lit "c"))) =
        .error errCorruptJournal := by
  refine ⟨by decide +kernel, by decide +kernel, by decide +kernel,
    persistPending_sample (by decide +kernel) (by decide +kernel), ?_, ?_, ?_⟩
  · exact eq_error_of_errorOf (by decide +kernel)
  · exact eq_error_of_errorOf (by decide +kernel)
  · exact eq_error_of_errorOf (by decide +kernel)

end PulseAgent.Recovery
