import PulseAgent.Audit.Append
import PulseAgent.Go.Ascii

/-!
# Audited registrations

The registries write one audit event for every registration, accepted or rejected, in its own
transaction.
-/

namespace PulseAgent.Audit

open Go Contract

variable {α : Type}

/-- What the environment answers during one registration; `fault` is a commit that fails. -/
structure Answers where
  newID : Except Error Bytes
  now : Time
  fault : Option Error := none

namespace Answers

/-- `Store.Update`, with a commit that may fail. -/
def commit (answers : Answers) (fn : Tx α) (s : Store) : Except Error α × Store :=
  match fn s with
  | .error e => (.error e, s)
  | .ok (a, s') =>
    match answers.fault with
    | none => (.ok a, s')
    | some e => (.error e, s)

theorem commit_ok {answers : Answers} {fn : Tx α} {s s' : Store} {a : α} :
    answers.commit fn s = (.ok a, s') ↔ answers.fault = none ∧ fn s = .ok (a, s') := by
  unfold commit
  cases fn s with
  | error e => simp
  | ok p => cases answers.fault <;> simp [Prod.ext_iff]

theorem commit_error {answers : Answers} {fn : Tx α} {s s' : Store} {e : Error}
    (h : answers.commit fn s = (.error e, s')) : s' = s := by
  unfold commit at h
  split at h
  case h_1 =>
    cases h
    rfl
  case h_2 =>
    split at h
    case h_1 => cases h
    case h_2 =>
      cases h
      rfl

theorem commit_of_failed {answers : Answers} {fn : Tx α} {s : Store}
    (h : ¬∃ a s', fn s = .ok (a, s')) : ∃ e, answers.commit fn s = (.error e, s) := by
  unfold commit
  cases hrun : fn s with
  | error e => exact ⟨e, rfl⟩
  | ok p => exact absurd ⟨p.1, p.2, hrun⟩ h

/-- The event of a registration, once it has an ID and a time; `invalid` refuses a zero clock. -/
def appendAudit (answers : Answers) (invalid : Error) (event : Bytes → Time → AuditEvent)
    (change : Option Mutation) : Tx Unit := do
  let id ← Tx.liftExcept answers.newID
  Tx.require (answers.now.isZero = false) invalid
  let _ ← append (event id answers.now) change

theorem appendAudit_ok {answers : Answers} {invalid : Error} {event : Bytes → Time → AuditEvent}
    {change : Option Mutation} {s s' : Store} {u : Unit} :
    answers.appendAudit invalid event change s = .ok (u, s') ↔
      ∃ id appended, answers.newID = .ok id ∧ answers.now.isZero = false ∧
        append (event id answers.now) change s = .ok (appended, s') := by
  unfold appendAudit
  rw [Tx.bind_liftExcept_ok]
  refine exists_congr fun id => ?_
  rw [Tx.bind_require_ok, Tx.bind_ok]
  constructor
  · rintro ⟨hid, hnow, appended, s1, happend, hpure⟩
    cases hpure
    exact ⟨appended, hid, hnow, happend⟩
  · rintro ⟨appended, hid, hnow, happend⟩
    exact ⟨hid, hnow, appended, s', happend, rfl⟩

end Answers
end PulseAgent.Audit
