import PulseAgent.Recovery.Journal

/-!
# The lifecycle of a journal record

`Advance` is the life of a recovery command as a transition relation on records, apart from
transactions, keys and JSON.
-/

namespace PulseAgent.Recovery

open Go Go.Json Contract

def JournalRecord.moved (r : JournalRecord) (state : RecoveryCommandState) (phase : JournalPhase) :
    JournalRecord :=
  { r with command := { r.command with state := state }, phase := phase }

def JournalRecord.decided (r : JournalRecord) (approvalID : Bytes) : JournalRecord :=
  { r with command := { r.command with approvalID := approvalID } }

/-- One change of a record; a decision gives it one of the approval IDs `ids`. -/
inductive Advance (ids : Bytes → Prop) (r : JournalRecord) : JournalRecord → Prop where
  | denied (h : undecided r = true) : Advance ids r (r.moved .denied .completed)
  | expired (h : undecided r = true) : Advance ids r (r.moved .expired .completed)
  | approved (h : undecided r = true) : Advance ids r (r.moved .approved .approved)
  | started (hphase : r.phase = .approved) (hstate : r.command.state = .approved) :
      Advance ids r (r.moved .executing .executing)
  | stabilizing (hphase : r.phase = .executing) (hstate : r.command.state = .executing) :
      Advance ids r (r.moved .stabilizing .stabilizing)
  | broken (hphase : r.phase = .executing) (hstate : r.command.state = .executing) :
      Advance ids r (r.moved .failed .completed)
  | finished (next : RecoveryCommandState) (hnext : next = .succeeded ∨ next = .failed)
      (hphase : r.phase = .stabilizing) (hstate : r.command.state = .stabilizing) :
      Advance ids r (r.moved next .completed)
  | settled (hphase : r.phase = .completed) : Advance ids r r
  | held (reconciliation : Reconciliation) (hphase : isReconcilablePhase r.phase = true) :
      Advance ids r { r with phase := .verifyAndNotify, reconciliation := some reconciliation }
  | granted (approvalID : Bytes) (hid : ids approvalID) (hphase : r.phase = .awaitingApproval)
      (hstate : r.command.state = .pending) (happroval : r.command.approvalID = []) :
      Advance ids r (r.decided approvalID)
  | refused (approvalID : Bytes) (hid : ids approvalID) (hphase : r.phase = .awaitingApproval)
      (hstate : r.command.state = .pending) (happroval : r.command.approvalID = []) :
      Advance ids r ((r.decided approvalID).moved .denied .completed)

namespace Advance

variable {ids : Bytes → Prop} {r r' : JournalRecord}

theorem undecided_iff : undecided r = true ↔
    (r.phase = .pending ∨ r.phase = .awaitingApproval) ∧ r.command.state = .pending := by
  simp [undecided]

theorem kept (h : Advance ids r r') : r'.schemaVersion = r.schemaVersion ∧ r'.target = r.target ∧
    r'.action = r.action ∧ r'.command =
      { r.command with state := r'.command.state, approvalID := r'.command.approvalID } := by
  cases h <;> exact ⟨rfl, rfl, rfl, rfl⟩

theorem state (h : Advance ids r r') : r'.command.state = r.command.state ∨
    r.command.state.canTransitionTo r'.command.state = true := by
  cases h with
  | denied h => exact .inr (by rw [(undecided_iff.mp h).2]; rfl)
  | expired h => exact .inr (by rw [(undecided_iff.mp h).2]; rfl)
  | approved h => exact .inr (by rw [(undecided_iff.mp h).2]; rfl)
  | started _ hstate => exact .inr (by rw [hstate]; rfl)
  | stabilizing _ hstate => exact .inr (by rw [hstate]; rfl)
  | broken _ hstate => exact .inr (by rw [hstate]; rfl)
  | finished next hnext _ hstate =>
    rcases hnext with rfl | rfl
    · exact .inr (by rw [hstate]; rfl)
    · exact .inr (by rw [hstate]; rfl)
  | settled => exact .inl rfl
  | held => exact .inl rfl
  | granted => exact .inl rfl
  | refused _ _ _ hstate => exact .inr (by rw [hstate]; rfl)

theorem approvalID (h : Advance ids r r') :
    r'.command.approvalID = r.command.approvalID ∨
      r.command.approvalID = [] ∧ ids r'.command.approvalID := by
  cases h with
  | granted _ hid _ _ happroval => exact .inr ⟨happroval, hid⟩
  | refused _ hid _ _ happroval => exact .inr ⟨happroval, hid⟩
  | _ => exact .inl rfl

def final (phase : JournalPhase) : Prop := phase = .completed ∨ phase = .verifyAndNotify

theorem eq_of_final (h : Advance ids r r') (hfinal : final r.phase) : r' = r := by
  have hne : ∀ {phase}, r.phase = phase → phase ≠ .completed →
    phase ≠ .verifyAndNotify → r' = r := by
    intro phase hphase hcompleted hverify
    rw [final, hphase] at hfinal
    exact absurd hfinal (not_or.mpr ⟨hcompleted, hverify⟩)
  have hundecided : undecided r = true → r' = r := by
    intro h
    rcases (undecided_iff.mp h).1 with hp | hp
    · exact hne hp (by decide) (by decide)
    · exact hne hp (by decide) (by decide)
  cases h with
  | denied h => exact hundecided h
  | expired h => exact hundecided h
  | approved h => exact hundecided h
  | started hphase => exact hne hphase (by decide) (by decide)
  | stabilizing hphase => exact hne hphase (by decide) (by decide)
  | broken hphase => exact hne hphase (by decide) (by decide)
  | finished _ _ hphase => exact hne hphase (by decide) (by decide)
  | settled => rfl
  | held _ hphase =>
    simp only [isReconcilablePhase, Bool.or_eq_true, decide_eq_true_eq] at hphase
    rcases hphase with (hp | hp) | hp
    · exact hne hp (by decide) (by decide)
    · exact hne hp (by decide) (by decide)
    · exact hne hp (by decide) (by decide)
  | granted _ _ hphase => exact hne hphase (by decide) (by decide)
  | refused _ _ hphase => exact hne hphase (by decide) (by decide)

end Advance

/-- What any number of advances keep of a record. -/
structure Descends (r r' : JournalRecord) : Prop where
  target : r'.target = r.target
  action : r'.action = r.action
  command : r'.command =
    { r.command with state := r'.command.state, approvalID := r'.command.approvalID }
  approvalID : r'.command.approvalID = r.command.approvalID ∨ r.command.approvalID = []
  eq_of_final : Advance.final r.phase → r' = r

theorem Descends.refl (r : JournalRecord) : Descends r r :=
  ⟨rfl, rfl, rfl, .inl rfl, fun _ => rfl⟩

theorem Descends.trans {a b c : JournalRecord} (h : Descends a b) (h' : Descends b c) :
    Descends a c where
  target := h'.target.trans h.target
  action := h'.action.trans h.action
  command := by rw [h'.command, h.command]
  approvalID := by
    rcases h.approvalID with heq | hempty
    · rw [← heq]
      exact h'.approvalID
    · exact .inr hempty
  eq_of_final hfinal := by
    obtain rfl := h.eq_of_final hfinal
    exact h'.eq_of_final hfinal

theorem Advance.descends {ids : Bytes → Prop} {r r' : JournalRecord} (h : Advance ids r r') :
    Descends r r' where
  target := h.kept.2.1
  action := h.kept.2.2.1
  command := h.kept.2.2.2
  approvalID := h.approvalID.imp_right And.left
  eq_of_final := h.eq_of_final

/-- How far a record has come; execution starts from rank one and leaves it for good. -/
def JournalPhase.rank : JournalPhase → Nat
  | .pending | .awaitingApproval | .other .. => 0
  | .approved => 1
  | .executing => 2
  | .stabilizing => 3
  | .completed | .verifyAndNotify => 4

theorem JournalPhase.rank_le (phase : JournalPhase) : phase.rank ≤ 4 := by
  cases phase <;> simp [JournalPhase.rank]

theorem Advance.rank_le {ids : Bytes → Prop} {r r' : JournalRecord} (h : Advance ids r r') :
    r.phase.rank ≤ r'.phase.rank := by
  cases h with
  | denied => exact JournalPhase.rank_le _
  | expired => exact JournalPhase.rank_le _
  | approved h =>
    rcases (undecided_iff.mp h).1 with hp | hp
    · rw [hp]
      exact Nat.zero_le 1
    · rw [hp]
      exact Nat.zero_le 1
  | started hphase =>
    rw [hphase]
    exact Nat.le_succ 1
  | stabilizing hphase =>
    rw [hphase]
    exact Nat.le_succ 2
  | broken => exact JournalPhase.rank_le _
  | finished => exact JournalPhase.rank_le _
  | settled => exact le_refl _
  | held => exact JournalPhase.rank_le _
  | granted => exact le_refl _
  | refused => exact JournalPhase.rank_le _

end PulseAgent.Recovery
