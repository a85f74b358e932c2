import PulseAgent.Recovery.Effect

/-!
# Scans over the journal

A scan succeeds exactly when every record of the bucket can be read.
-/

namespace PulseAgent.Recovery

open Go Contract

def storedRecord (entry : Bytes × Bytes) : Option StoredRecord :=
  if isRecordKey entry.1 then (checkedRecord entry.1 entry.2).toOption.map (⟨entry.1, ·⟩) else none

def Readable (entries : List (Bytes × Bytes)) : Prop :=
  ∀ entry ∈ entries, isRecordKey entry.1 = true → ∃ r, checkedRecord entry.1 entry.2 = .ok r

def storedRecords (s : Store) : List StoredRecord :=
  (s .commandJournal).toList.filterMap storedRecord

theorem readable_cons {entry : Bytes × Bytes} {entries : List (Bytes × Bytes)} :
    Readable (entry :: entries) ↔
      (isRecordKey entry.1 = true → ∃ r, checkedRecord entry.1 entry.2 = .ok r) ∧
        Readable entries := by
  simp [Readable]

theorem mem_storedRecords {s : Store} {stored : StoredRecord} :
    stored ∈ storedRecords s ↔ isRecordKey stored.key = true ∧
      Loads s stored.key stored.record := by
  simp only [storedRecords, List.mem_filterMap, Prod.exists,
    Std.ExtTreeMap.mem_toList_iff_getElem?_eq_some,
    storedRecord, Loads]
  constructor
  · rintro ⟨key, document, hdocument, h⟩
    split at h
    case isTrue hkey =>
      cases hchecked : checkedRecord key document with
      | error e =>
        rw [hchecked] at h
        cases h
      | ok r =>
        rw [hchecked] at h
        cases h
        exact ⟨hkey, document, hdocument, hchecked⟩
    case isFalse => cases h
  · rintro ⟨hkey, document, hdocument, hchecked⟩
    refine ⟨stored.key, document, hdocument, ?_⟩
    rw [if_pos hkey, hchecked]
    rfl

theorem foldlM_scanCommandID {commandID : Bytes} {entries : List (Bytes × Bytes)}
    {acc found : Option StoredRecord} :
    entries.foldlM (fun acc entry => scanCommandID commandID acc entry.1 entry.2) acc = .ok found ↔
      Readable entries ∧ acc.toList ++ (entries.filterMap storedRecord).filter
        (fun stored => stored.record.command.commandID = commandID) = found.toList := by
  induction entries generalizing acc with
  | nil => cases acc <;> cases found <;> simp [Readable, pure, Except.pure]
  | cons entry entries ih =>
    rw [List.foldlM_cons, except_bind_ok, readable_cons]
    by_cases hkey : isRecordKey entry.1 = true
    · cases hchecked : checkedRecord entry.1 entry.2 with
      | error e =>
        have hstep : scanCommandID commandID acc entry.1 entry.2 = .error e := by
          simp [scanCommandID, hkey, hchecked]
        simp [hstep, hkey]
      | ok r =>
        have hstored : storedRecord entry = some ⟨entry.1, r⟩ := by
          simp [storedRecord, hkey, hchecked, Except.toOption]
        by_cases hid : r.command.commandID = commandID
        · cases acc with
          | some st =>
            have hstep : scanCommandID commandID (some st) entry.1 entry.2 =
                .error errCorruptJournal := by simp [scanCommandID, hkey, hchecked, hid]
            -- a second match would make the list longer than an option allows
            have hlen : ∀ rest, st :: ⟨entry.1, r⟩ :: rest ≠ found.toList := by
              intro rest h
              cases found <;> cases h
            simp [hstep, hid, hstored, hlen]
          | none =>
            have hstep : scanCommandID commandID none entry.1 entry.2 =
              .ok (some ⟨entry.1, r⟩) := by
              simp [scanCommandID, hkey, hchecked, hid]
            simp [hstep, hid, hstored, ih]
        · have hstep : scanCommandID commandID acc entry.1 entry.2 = .ok acc := by
            simp [scanCommandID, hkey, hchecked, hid]
          simp [hstep, hid, hstored, ih]
    · have hstep : scanCommandID commandID acc entry.1 entry.2 = .ok acc := by
        simp [scanCommandID, hkey]
      simp [hstep, hkey, storedRecord, ih]

theorem foldlM_scanReconcilable {entries : List (Bytes × Bytes)} {acc records : List StoredRecord} :
    entries.foldlM (fun acc entry => scanReconcilable acc entry.1 entry.2) acc = .ok records ↔
      Readable entries ∧ acc ++ (entries.filterMap storedRecord).filter
        (fun stored => isReconcilablePhase stored.record.phase) = records := by
  induction entries generalizing acc with
  | nil => simp [Readable, pure, Except.pure]
  | cons entry entries ih =>
    rw [List.foldlM_cons, except_bind_ok, readable_cons]
    by_cases hkey : isRecordKey entry.1 = true
    · cases hchecked : checkedRecord entry.1 entry.2 with
      | error e =>
        have hstep : scanReconcilable acc entry.1 entry.2 = .error e := by
          simp [scanReconcilable, hkey, hchecked]
        simp [hstep, hkey]
      | ok r =>
        have hstored : storedRecord entry = some ⟨entry.1, r⟩ := by
          simp [storedRecord, hkey, hchecked, Except.toOption]
        by_cases hphase : isReconcilablePhase r.phase = true
        · have hstep : scanReconcilable acc entry.1 entry.2 = .ok (acc ++ [⟨entry.1, r⟩]) := by
            simp [scanReconcilable, hkey, hchecked, hphase]
          simp [hstep, hphase, hstored, ih]
        · have hstep : scanReconcilable acc entry.1 entry.2 = .ok acc := by
            simp [scanReconcilable, hkey, hchecked, hphase]
          simp [hstep, hphase, hstored, ih]
    · have hstep : scanReconcilable acc entry.1 entry.2 = .ok acc := by
        simp [scanReconcilable, hkey]
      simp [hstep, hkey, storedRecord, ih]

section

variable {s s' : Store}

theorem findRecordByCommandID_ok {commandID : Bytes} {found : Option StoredRecord} :
    findRecordByCommandID commandID s = .ok (found, s') ↔ s' = s ∧
      Readable (s .commandJournal).toList ∧
      (storedRecords s).filter (fun stored => stored.record.command.commandID = commandID) =
        found.toList := by
  rw [findRecordByCommandID, Tx.forEach_ok, foldlM_scanCommandID, and_comm]
  rfl

theorem loads_of_found {commandID : Bytes} {stored : StoredRecord}
    (h : findRecordByCommandID commandID s = .ok (some stored, s')) :
    s' = s ∧ isRecordKey stored.key = true ∧ Loads s stored.key stored.record ∧
      stored.record.command.commandID = commandID := by
  obtain ⟨rfl, -, hfilter⟩ := findRecordByCommandID_ok.mp h
  have hmem : stored ∈ (storedRecords s').filter
      (fun stored => stored.record.command.commandID = commandID) := by
    rw [hfilter]
    simp
  obtain ⟨hstored, hid⟩ := List.mem_filter.mp hmem
  obtain ⟨hkey, hloads⟩ := mem_storedRecords.mp hstored
  exact ⟨rfl, hkey, hloads, by simpa using hid⟩

theorem reconcilableRecords_ok {records : List StoredRecord} :
    reconcilableRecords s = .ok (records, s') ↔ s' = s ∧ Readable (s .commandJournal).toList ∧
      (storedRecords s).filter (fun stored => isReconcilablePhase stored.record.phase) =
        records := by
  rw [reconcilableRecords, Tx.forEach_ok, foldlM_scanReconcilable, and_comm]
  rfl

end

end PulseAgent.Recovery
