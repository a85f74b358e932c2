import PulseAgent.Recovery.Effect

/-!
# Journal records as they read back

In a journal that holds only what `putRecord` wrote, each committed transaction keeps or advances
the records a reader sees.
-/

namespace PulseAgent.Recovery

open Go Go.Json Contract

/-! ## Cleaned records -/

section Norm

variable {r r' : JournalRecord}

theorem idem_snapshot : Docker.Snapshot.codec.Idem := fun s =>
  congrArg (Docker.Snapshot.mk · s.running s.healthy) (Codec.idem_string s.targetID)

theorem idem_reconciliation : Reconciliation.codec.Idem := fun r =>
  congrArg (Reconciliation.mk r.observedAt r.verified) (idem_snapshot r.snapshot)

theorem idem_phase : JournalPhase.codec.Idem := Codec.idem_named JournalPhase.text_ofText

theorem idem_record : JournalRecord.codec.Idem := by
  intro r
  change JournalRecord.mk _ _ _ _ _ _ = JournalRecord.mk _ _ _ _ _ _
  congr 1
  · exact Codec.idem_string _
  · exact idem_recoveryCommand _
  · exact idem_serviceTarget _
  · exact idem_typedAction _
  · exact idem_phase _
  · change Option.map _ (Option.map _ r.reconciliation) = Option.map _ r.reconciliation
    rw [Option.map_map]
    congr 1
    funext x
    exact idem_reconciliation x

theorem norm_moved (r : JournalRecord) (state : RecoveryCommandState) (phase : JournalPhase) :
    JournalRecord.codec.norm (r.moved state phase) =
      (JournalRecord.codec.norm r).moved (RecoveryCommandState.codec.norm state)
        (JournalPhase.codec.norm phase) := rfl

theorem norm_decided (r : JournalRecord) (approvalID : Bytes) :
    JournalRecord.codec.norm (r.decided approvalID) =
      (JournalRecord.codec.norm r).decided (Utf8.toValidUTF8 approvalID) := rfl

theorem norm_held (r : JournalRecord) (x : Reconciliation) :
    JournalRecord.codec.norm { r with phase := .verifyAndNotify, reconciliation := some x } =
      { JournalRecord.codec.norm r with
        phase := .verifyAndNotify, reconciliation := some (Reconciliation.codec.norm x) } := rfl

theorem Advance.norm {ids : Bytes → Prop} (hr : JournalRecord.codec.norm r = r)
    (h : Advance ids r r') :
    Advance (fun id => ∃ x, ids x ∧ Utf8.toValidUTF8 x = id) r (JournalRecord.codec.norm r') := by
  cases h with
  | denied h => rw [norm_moved, hr]; exact .denied h
  | expired h => rw [norm_moved, hr]; exact .expired h
  | approved h => rw [norm_moved, hr]; exact .approved h
  | started hphase hstate => rw [norm_moved, hr]; exact .started hphase hstate
  | stabilizing hphase hstate => rw [norm_moved, hr]; exact .stabilizing hphase hstate
  | broken hphase hstate => rw [norm_moved, hr]; exact .broken hphase hstate
  | finished next hnext hphase hstate =>
    rw [norm_moved, hr]
    rcases hnext with rfl | rfl
    · exact .finished .succeeded (.inl rfl) hphase hstate
    · exact .finished .failed (.inr rfl) hphase hstate
  | settled hphase => rw [hr]; exact .settled hphase
  | held x hphase => rw [norm_held, hr]; exact .held _ hphase
  | granted approvalID hid hphase hstate happroval =>
    rw [norm_decided, hr]
    exact .granted _ ⟨approvalID, hid, rfl⟩ hphase hstate happroval
  | refused approvalID hid hphase hstate happroval =>
    rw [norm_moved, norm_decided, hr]
    exact .refused _ ⟨approvalID, hid, rfl⟩ hphase hstate happroval

theorem validateRecord_ok : validateRecord r = .ok () ↔
    r.schemaVersion = schemaVersionV1 ∧ validCommand r.command = true ∧
      validTarget r.target r.command.targetID = true ∧
      validAction r.action r.target.selector = true ∧
      validRecordPhase r.phase r.command.state = true ∧ validReconciliation r = true := by
  unfold validateRecord
  split
  case isTrue h =>
    simp only [Bool.and_eq_true, decide_eq_true_eq] at h
    simp [h]
  case isFalse h =>
    simp only [Bool.and_eq_true, decide_eq_true_eq] at h
    simp only [reduceCtorEq, false_iff]
    tauto

theorem norm_of_validRecordPhase {phase : JournalPhase} {state : RecoveryCommandState}
    (h : validRecordPhase phase state = true) :
    JournalPhase.codec.norm phase = phase ∧ RecoveryCommandState.codec.norm state = state := by
  cases phase with
  | other => cases h
  | completed =>
    simp only [validRecordPhase, Bool.or_eq_true, decide_eq_true_eq] at h
    rcases h with ((rfl | rfl) | rfl) | rfl <;> exact ⟨rfl, rfl⟩
  | verifyAndNotify =>
    simp only [validRecordPhase, Bool.or_eq_true, decide_eq_true_eq] at h
    rcases h with (rfl | rfl) | rfl <;> exact ⟨rfl, rfl⟩
  | _ =>
    simp only [validRecordPhase, decide_eq_true_eq] at h
    subst h
    exact ⟨rfl, rfl⟩

theorem validReconciliation_norm (hphase : JournalPhase.codec.norm r.phase = r.phase)
    (h : validReconciliation r = true) :
      validReconciliation (JournalRecord.codec.norm r) = true := by
  obtain ⟨version, command, target, action, phase, reconciliation⟩ := r
  have hp : (JournalRecord.codec.norm ⟨version, command, target, action, phase,
    reconciliation⟩).phase = phase := hphase
  have hx : (JournalRecord.codec.norm ⟨version, command, target, action, phase,
    reconciliation⟩).reconciliation = reconciliation.map Reconciliation.codec.norm := rfl
  unfold validReconciliation at h ⊢
  rw [hp, hx]
  cases reconciliation with
  | none => cases phase <;> simp_all
  | some x =>
    cases phase with
    | verifyAndNotify =>
      simp only [Bool.and_eq_true, Bool.or_eq_true, Bool.not_eq_true', decide_eq_true_eq,
        Option.map_some] at h ⊢
      obtain ⟨⟨hzero, htarget⟩, hsnapshot⟩ := h
      refine ⟨⟨hzero, htarget.imp id fun h => ?_⟩, hsnapshot.imp id fun h => ?_⟩
      · exact congrArg Utf8.toValidUTF8 h
      · exact congrArg Docker.Snapshot.codec.norm h
    | _ => simp_all

end Norm

/-! ## Journals that hold only written records -/

def Clean (s : Store) : Prop :=
  ∀ key document, isRecordKey key = true → (s .commandJournal)[key]? = some document →
    ∃ r, Written key r document

theorem clean_empty {s : Store} (h : s .commandJournal = ∅) : Clean s := by
  intro key document _ hdocument
  rw [h] at hdocument
  cases hdocument

/-- The reader's view of one record: it is clean, and phase, state and reconciliation agree. -/
structure Sound (r : JournalRecord) : Prop where
  norm_eq : JournalRecord.codec.norm r = r
  phase : validRecordPhase r.phase r.command.state = true
  reconciliation : validReconciliation r = true

theorem Written.sound {key document : Bytes} {r : JournalRecord} (h : Written key r document) :
    Sound (JournalRecord.codec.norm r) := by
  obtain ⟨-, -, -, -, hphase, hreconciliation⟩ := validateRecord_ok.mp h.valid
  obtain ⟨hp, hs⟩ := norm_of_validRecordPhase hphase
  refine ⟨idem_record r, ?_, validReconciliation_norm hp hreconciliation⟩
  change validRecordPhase (JournalPhase.codec.norm r.phase)
    (RecoveryCommandState.codec.norm r.command.state) = true
  rw [hp, hs, hphase]

section Clean

variable {intake : Intake} {s s' : Store} {key : Bytes} {r : JournalRecord}

theorem recordAt_of_written {document : Bytes} (h : (s .commandJournal)[key]? = some document)
    (hwritten : Written key r document) : recordAt s key = some (JournalRecord.codec.norm r) := by
  rw [recordAt, h, Option.bind_some, hwritten.content_eq]

theorem Clean.sound (h : Clean s) (hkey : isRecordKey key = true) (hr : recordAt s key = some r) :
    Sound r := by
  obtain ⟨document, hdocument, hcontent⟩ := Option.bind_eq_some_iff.mp hr
  obtain ⟨r0, hwritten⟩ := h key document hkey hdocument
  rw [hwritten.content_eq] at hcontent
  exact Option.some.inj hcontent ▸ hwritten.sound

theorem Clean.readable (h : Clean s) (hkey : isRecordKey key = true) {document : Bytes}
    (hdocument : (s .commandJournal)[key]? = some document) : (recordAt s key).isSome = true := by
  obtain ⟨r, hwritten⟩ := h key document hkey hdocument
  rw [recordAt_of_written hdocument hwritten]
  rfl

theorem Clean.effect (h : Clean s) (heffect : JournalEffect intake s s') : Clean s' := by
  intro key document hkey hdocument
  cases heffect key hkey with
  | same heq => exact h key document hkey (heq ▸ hdocument)
  | created r document' _ hwritten heq =>
    obtain rfl := Option.some.inj (heq.symm.trans hdocument)
    exact ⟨r, hwritten⟩
  | advanced _ new document' _ _ hwritten heq =>
    obtain rfl := Option.some.inj (heq.symm.trans hdocument)
    exact ⟨new, hwritten⟩

/-- A committed transaction keeps each record or advances it. -/
theorem Clean.advance (h : Clean s) (heffect : JournalEffect intake s s')
    (hkey : isRecordKey key = true)
    (hr : recordAt s key = some r) :
    ∃ r', recordAt s' key = some r' ∧ (r' = r ∨
      Advance (fun id => ∃ x, intake.approval x ∧ Utf8.toValidUTF8 x = id) r r') := by
  cases heffect key hkey with
  | same heq => exact ⟨r, by rw [recordAt, heq, ← recordAt, hr], .inl rfl⟩
  | created _ _ habsent =>
    rw [recordAt, habsent] at hr
    cases hr
  | advanced old new document hloads hadvance hwritten heq =>
    obtain rfl := Option.some.inj (hr.symm.trans hloads.recordAt_eq)
    exact ⟨_, recordAt_of_written heq hwritten, .inr (hadvance.norm (h.sound hkey hr).norm_eq)⟩

end Clean

/-- In any journal, clean or not, no record falls back in rank. -/
theorem JournalEffect.rank_le {intake : Intake} {s s' : Store} {key : Bytes} {r : JournalRecord}
    (heffect : JournalEffect intake s s') (hkey : isRecordKey key = true)
    (hr : recordAt s key = some r) :
    ∃ r', recordAt s' key = some r' ∧ r.phase.rank ≤ r'.phase.rank := by
  cases heffect key hkey with
  | same heq => exact ⟨r, by rw [recordAt, heq, ← recordAt, hr], le_refl _⟩
  | created _ _ habsent =>
    rw [recordAt, habsent] at hr
    cases hr
  | advanced old new document hloads hadvance hwritten heq =>
    obtain rfl := Option.some.inj (hr.symm.trans hloads.recordAt_eq)
    refine ⟨_, recordAt_of_written heq hwritten, ?_⟩
    have hphase := (validateRecord_ok.mp hwritten.valid).2.2.2.2.1
    change r.phase.rank ≤ (JournalPhase.codec.norm new.phase).rank
    rw [(norm_of_validRecordPhase hphase).1]
    exact hadvance.rank_le

end PulseAgent.Recovery
