import PulseAgent.Recovery.Coordinator
import PulseAgent.Recovery.Decision

/-!
# The audit of decisions

Every exit of a decision's transaction ends in one audit append.
-/

namespace PulseAgent.Recovery

open Go Go.Json Contract Concurrent

/-- The audit bucket has this event more, at its end. -/
def Appends (s s' : Store) (event : AuditEvent) : Prop :=
  ∃ key document, (s' .audit).toList = (s .audit).toList ++ [(key, document)] ∧
    Audit.decodeEvent document = .ok event

/-- A rejected attempt is all that is new. -/
def Rejects (s s' : Store) : Prop :=
  (∃ event, Appends s s' event ∧ event.result = approvalAuditRejected) ∧
    ∀ bucket, bucket ≠ .audit → s' bucket = s bucket

/-- Whether an error says that the command is unknown, decided already or expired. -/
def answered (e : Error) : Bool :=
  e.is errApprovalCommandNotFound || e.is errApprovalConflict || e.is errApprovalCommandExpired

theorem answered_wrap (before after : String) (e : Error) :
    answered (.wrap before e after) = answered e := by
  simp [answered, Error.is, errApprovalCommandNotFound, errApprovalConflict,
    errApprovalCommandExpired]

section Attempts

variable {inputs : AuditInputs} {request : ApprovalDecisionRequest} {s s' : Store}
  {approvalID : Bytes} {now : Time} {result : Except Error ApprovalDecisionResult}

theorem appendAudit_appends {outcome reason : Bytes} {mutation : Option Audit.Mutation} {u : Unit}
    (h : appendAudit inputs request outcome reason mutation s = .ok (u, s')) :
    ∃ event, Appends s s' event ∧ event.result = outcome := by
  obtain ⟨_, -, h⟩ := Tx.bind_liftExcept_ok.mp h
  obtain ⟨-, h⟩ := Tx.bind_require_ok.mp h
  obtain ⟨appended, s1, happend, h⟩ := Tx.bind_ok.mp h
  cases h
  obtain ⟨state, _, _, hread, -, -, -, -, happended, -⟩ := Audit.append_ok happend
  obtain ⟨events, hchain, -⟩ := Audit.readChain_ok.mp hread
  obtain ⟨document, hlist, -, -, hdecode, -⟩ := Audit.append_records hchain happend
  exact ⟨appended, ⟨_, document, hlist, hdecode⟩, by rw [happended]⟩

theorem appendAudit_rejects {reason : Bytes} {u : Unit}
    (h : appendAudit inputs request approvalAuditRejected reason none s = .ok (u, s')) :
    Rejects s s' := by
  obtain ⟨s1, hkept, rfl⟩ := appendAudit_change h
  exact ⟨appendAudit_appends h, hkept⟩

theorem decideApproval_attempt
    (h : decideApproval request approvalID now inputs s = .ok (result, s')) :
    ∃ outcome reason mutation, appendAudit inputs request outcome reason mutation s = .ok ((), s') ∧
      ∀ e, result = .error e → answered e = false →
        outcome = approvalAuditRejected ∧ mutation = none := by
  obtain ⟨exit, hexit, h⟩ := decideApproval_exit h
  cases hexit with
  | rejected reason e =>
    obtain ⟨_, _, haudit, h⟩ := Tx.bind_ok.mp h
    cases h
    exact ⟨_, reason, none, haudit, fun _ _ _ => ⟨rfl, rfl⟩⟩
  | expired stored expired =>
    obtain ⟨_, _, haudit, h⟩ := Tx.bind_ok.mp h
    cases h
    refine ⟨_, _, _, haudit, fun e he hanswered => ?_⟩
    cases he
    cases hanswered
  | accepted stored =>
    obtain ⟨-, h⟩ := Tx.bind_require_ok.mp h
    obtain ⟨updated, -, h⟩ := Tx.bind_liftExcept_ok.mp h
    obtain ⟨document, -, h⟩ := Tx.bind_liftExcept_ok.mp h
    obtain ⟨_, _, haudit, h⟩ := Tx.bind_ok.mp h
    cases h
    exact ⟨_, _, _, haudit, fun e he => by cases he⟩

end Attempts

/-! ## Transactions that fail -/

section Failures

variable {inputs : AuditInputs} {request : ApprovalDecisionRequest}

theorem encode_unanswered {α : Type} {c : Codec α} {context : String} {a : α} {e : Error}
    (h : encode c context a = .error e) : answered e = false := by
  unfold encode at h
  split at h
  case h_1 => cases h
  case h_2 =>
    cases h
    rw [answered_wrap]
    rfl

theorem scanEvent_unanswered {scan : Audit.Scan} {key document : Bytes} {e : Error}
    (h : Audit.scanEvent scan key document = .error e) : answered e = false := by
  have hdecode : ∀ e, Audit.decodeEvent document = .error e → e = Audit.errChainInvalid := by
    intro e h
    unfold Audit.decodeEvent at h
    split at h
    case h_1 => cases h; rfl
    case h_2 =>
      split at h
      case h_1 => cases h; rfl
      case h_2 =>
        split at h
        case isTrue => cases h
        case isFalse => cases h; rfl
  unfold Audit.scanEvent at h
  split at h
  case isTrue => cases h; rfl
  case isFalse =>
    split at h
    case h_1 e' hevent =>
      cases h
      rw [hdecode e hevent]
      rfl
    case h_2 =>
      split_ifs at h
      all_goals
        cases h
        rfl

theorem readChain_fails : Tx.Fails (answered · = false) Audit.readChain := by
  have hscan : Tx.Fails (answered · = false) (Tx.forEach .audit {} Audit.scanEvent) :=
    .forEach fun _ _ _ _ => scanEvent_unanswered
  intro s e h
  unfold Audit.readChain at h
  split at h
  case h_1 => cases h
  case h_2 e' heach =>
    split at h
    case isTrue =>
      cases h
      exact hscan s e heach
    case isFalse =>
      cases h
      rfl

theorem validateEventFields_unanswered {event : AuditEvent} {e : Error}
    (h : Audit.validateEventFields event = .error e) : answered e = false := by
  unfold Audit.validateEventFields at h
  split at h
  case isTrue => cases h
  case isFalse =>
    cases h
    rfl

theorem canonicalDigest_unanswered {event : AuditEvent} {e : Error}
    (h : Audit.canonicalDigest event = .error e) : answered e = false := by
  have hbytes : Audit.canonicalBytes event = .error e := by
    unfold Audit.canonicalDigest at h
    cases hcanonical : Audit.canonicalBytes event with
    | error e' =>
      rw [hcanonical] at h
      exact h
    | ok canonical =>
      rw [hcanonical] at h
      cases h
  unfold Audit.canonicalBytes at hbytes
  cases hfields : Audit.validateEventFields event with
  | error e' =>
    rw [hfields] at hbytes
    cases hbytes
    exact validateEventFields_unanswered hfields
  | ok u =>
    rw [hfields] at hbytes
    change (if _ then _ else _) = Except.error e at hbytes
    split at hbytes
    case isTrue => exact encode_unanswered hbytes
    case isFalse =>
      cases hbytes
      rfl

theorem append_fails (event : AuditEvent) {change : Option Audit.Mutation}
    (hchange : ∀ m, change = some m → Tx.Fails (answered · = false) m.run) :
    Tx.Fails (answered · = false) (Audit.append event change) := by
  have hwrap : ∀ text e, answered e = false → answered (.wrap text e "") = false := by
    intro text e he
    rw [answered_wrap, he]
  refine .bind readChain_fails fun state => .bind (.require rfl) fun _ => ?_
  refine .bind (.liftExcept fun _ => validateEventFields_unanswered) fun _ => ?_
  refine .bind ?_ fun _ => .bind (.require rfl) fun _ => ?_
  · cases change with
    | none => exact .pure _
    | some m =>
      exact .bind (.context (hchange m rfl) (hwrap _)) fun _ =>
        .bind readChain_fails fun _ => .require rfl
  · refine .bind (.liftExcept fun _ => canonicalDigest_unanswered) fun digest => ?_
    refine .bind (.liftExcept fun _ => encode_unanswered) fun document => ?_
    have hstore := Tx.Fails.appendAudit (P := (answered · = false)) rfl rfl
      (Audit.eventKey state.nextIndex) document
    exact .bind (.context hstore (hwrap _)) fun _ => .pure _

theorem appendAudit_fails {outcome reason : Bytes} {mutation : Option Audit.Mutation}
    (hmutation : ∀ m, mutation = some m → Tx.Fails (answered · = false) m.run) :
    Tx.Fails (answered · = false) (appendAudit inputs request outcome reason mutation) := by
  refine .bind (.liftExcept fun e h => ?_) fun eventID => .bind (.require rfl) fun _ =>
    .bind (append_fails _ hmutation) fun _ => .pure _
  unfold auditEventID at h
  split at h
  case h_1 =>
    split at h
    case isTrue => cases h
    case isFalse => cases h; rfl
  case h_2 => cases h; rfl

theorem putThen_fails {bucket : Bucket} {key value : Bytes} {next : TxProg Unit}
    (hnext : Tx.Fails (answered · = false) next.run) :
    Tx.Fails (answered · = false) (putThen bucket key value next).run := by
  intro s e h
  simp only [putThen, TxProg.run, TxProg.step] at h
  cases hput : Tx.put bucket key value s with
  | error e' =>
    rw [hput] at h
    cases h
    exact Tx.Fails.put (P := (answered · = false)) rfl rfl bucket key value s e hput
  | ok r =>
    rw [hput] at h
    exact hnext r.2 e h

theorem putRecordProg_fails (key : Bytes) (record : JournalRecord) :
    Tx.Fails (answered · = false) (putRecordProg key record).run := by
  unfold putRecordProg
  split
  case isTrue =>
    split
    case h_1 => exact putThen_fails (.pure ())
    case h_2 e hencode =>
      intro s e' h
      cases h
      exact encode_unanswered hencode
  case isFalse =>
    intro s e h
    cases h
    rfl

theorem transition_unanswered {record : JournalRecord} {next : RecoveryCommandState}
    {phase : JournalPhase} {e : Error} (h : transition record next phase = .error e) :
    answered e = false := by
  unfold transition RecoveryCommandState.validateTransition at h
  split at h
  case isTrue => cases h
  case isFalse =>
    cases h
    rfl

theorem findRecordByCommandID_fails (commandID : Bytes) :
    Tx.Fails (answered · = false) (findRecordByCommandID commandID) := by
  refine .forEach fun found key document e h => ?_
  have hchecked : ∀ e, checkedRecord key document = .error e → answered e = false := by
    intro e h
    unfold checkedRecord at h
    split at h
    case h_1 e' hdecode =>
      cases h
      unfold decodeRecord at hdecode
      split at hdecode
      case h_1 => cases hdecode
      case h_2 => cases hdecode; rfl
    case h_2 =>
      split at h
      case isTrue => cases h
      case isFalse => cases h; rfl
  unfold scanCommandID at h
  split at h
  case isTrue =>
    split at h
    case h_1 e' hrecord =>
      cases h
      exact hchecked e hrecord
    case h_2 =>
      split_ifs at h
      cases h
      rfl
  case isFalse => cases h

theorem rejectDecision_fails {reason : Bytes} {mutation : Option Audit.Mutation} {e : Error}
    (hmutation : ∀ m, mutation = some m → Tx.Fails (answered · = false) m.run) :
    Tx.Fails (answered · = false) (rejectDecision inputs request reason mutation e) :=
  .bind (appendAudit_fails hmutation) fun _ => .pure _

theorem decideApproval_fails (approvalID : Bytes) (now : Time) :
    Tx.Fails (answered · = false) (decideApproval request approvalID now inputs) := by
  have hnone : ∀ m, (none : Option Audit.Mutation) = some m →
      Tx.Fails (answered · = false) m.run := fun _ h => by cases h
  have hget : ∀ key, Tx.Fails (answered · = false) (Tx.get .approvals key) :=
    fun key => Tx.Fails.get (P := (answered · = false)) rfl .approvals key
  refine .bind (findRecordByCommandID_fails _) fun found => ?_
  cases found with
  | none => exact rejectDecision_fails hnone
  | some stored =>
    dsimp only
    split
    case isTrue => exact rejectDecision_fails hnone
    case isFalse =>
      split
      case isTrue =>
        refine .bind (.liftExcept fun e h => ?_) fun expired => rejectDecision_fails fun m hm => ?_
        · unfold transitionToExpired at h
          split at h
          case isTrue => exact transition_unanswered h
          case isFalse => cases h; rfl
        · cases hm
          exact putRecordProg_fails _ _
      case isFalse =>
        split
        case isTrue => exact rejectDecision_fails hnone
        case isFalse =>
          refine .bind (hget _) fun recorded => ?_
          cases recorded with
          | some _ => exact .throw rfl
          | none =>
            refine .bind (hget _) fun indexed => ?_
            cases indexed with
            | some _ => exact rejectDecision_fails hnone
            | none =>
              refine .bind (.require rfl) fun _ =>
                .bind (.liftExcept fun e h => ?_) fun record => ?_
              · split at h
                case isTrue =>
                  unfold transitionToDenied at h
                  split at h
                  case isTrue => exact transition_unanswered h
                  case isFalse => cases h; rfl
                case isFalse => cases h
              · refine .bind (.liftExcept fun _ => encode_unanswered) fun document =>
                  .bind (appendAudit_fails fun m hm => ?_) fun _ => .pure _
                cases hm
                exact putThen_fails (putThen_fails (putRecordProg_fails _ _))

end Failures

/-! ## Calls -/

/-- The call reports success or one of the answers. -/
def concluded : Except Error ApprovalDecisionResult → Bool
  | .ok _ => true
  | .error e => answered e

/-- What a call to `Decide` did, by what it returned. -/
structure Attempted (h : List (Occurrence interface))
    (result : Except Error ApprovalDecisionResult) :
    Prop where
  concluded : concluded result = true → ∃ c rest event, h = c :: rest ∧
    Appends c.before c.after event ∧ ∀ x ∈ rest, x.after = x.before
  failed : Recovery.concluded result = false → (∀ x ∈ h, x.after = x.before) ∨
    ∃ c rest, h = c :: rest ∧ Rejects c.before c.after ∧ ∀ x ∈ rest, x.after = x.before

theorem attempted_of_unchanged {h : List (Occurrence interface)} {e : Error}
    (hanswered : answered e = false) (hunchanged : ∀ x ∈ h, x.after = x.before) :
    Attempted h (.error e) where
  concluded htrue := by
    rw [concluded, hanswered] at htrue
    cases htrue
  failed _ := .inl hunchanged

/-- Store failures are none of the answers. -/
def UnansweredFaults (h : List (Occurrence interface)) : Prop :=
  ∀ c ∈ h, ∀ e, (c.answer : Environment).fault = some e → answered e = false

theorem run_unanswered {t : Transaction} {env : Environment} {s : Store} {e : Error}
    (hfault : ∀ e, env.fault = some e → answered e = false)
    (hwrap : ∀ e, t.wrap e = e)
    (hbody : Tx.Fails (answered · = false) (t.body env.audit))
    (h : (t.run env.fault env.audit s).1 = .error e) : answered e = false := by
  cases hf : env.fault with
  | some e' =>
    rw [hf] at h
    cases h
    rw [hwrap]
    exact hfault e' hf
  | none =>
    cases hbodyError : t.body env.audit s with
    | error e' =>
      simp only [Transaction.run, hf, hbodyError] at h
      cases h
      rw [hwrap]
      exact hbody s e' hbodyError
    | ok r =>
      simp only [Transaction.run, hf, hbodyError] at h
      cases h

theorem after_of_run_ok {t : Transaction} {env : Environment} {s : Store} {a : t.Out}
    (h : (t.run env.fault env.audit s).1 = .ok a) :
    t.body env.audit s = .ok (a, (Occurrence.mk (I := interface) (.tx t) env s).after) :=
  Transaction.run_ok h

theorem attempted_of_decide {request : ApprovalDecisionRequest} {approvalID : Bytes} {now : Time}
    {env : Environment} {s : Store} {rest : List (Occurrence interface)}
    {committed : Except Error (Except Error ApprovalDecisionResult)}
    (hcommitted : ((Transaction.decide request approvalID now).run env.fault env.audit s).1 =
      committed)
    (hfaults : UnansweredFaults (⟨.tx (.decide request approvalID now), env, s⟩ :: rest))
    (hrest : ∀ x ∈ rest, x.after = x.before) :
    Attempted (⟨.tx (.decide request approvalID now), env, s⟩ :: rest)
      (match committed with
      | .error e => .error e
      | .ok result => result) := by
  cases committed with
  | error e =>
    refine attempted_of_unchanged ?_ ?_
    · exact run_unanswered (t := .decide request approvalID now) (hfaults _ List.mem_cons_self)
        (fun _ => rfl) (decideApproval_fails approvalID now) hcommitted
    · intro x hx
      rcases List.mem_cons.mp hx with rfl | hx
      · exact Transaction.run_error hcommitted
      · exact hrest x hx
  | ok result =>
    obtain ⟨outcome, reason, mutation, haudit, hrejected⟩ :=
      decideApproval_attempt (after_of_run_ok hcommitted)
    refine ⟨fun _ => ?_, fun hfailed => ?_⟩
    · obtain ⟨event, happends, -⟩ := appendAudit_appends haudit
      exact ⟨_, rest, event, rfl, happends, hrest⟩
    · cases result with
      | ok answer => cases hfailed
      | error e =>
        obtain ⟨rfl, rfl⟩ := hrejected e rfl hfailed
        exact .inr ⟨_, rest, rfl, appendAudit_rejects haudit, hrest⟩

theorem sat_reading {h : List (Occurrence interface)} (hrest : ∀ x ∈ h, x.after = x.before) :
    approvalNow.Sat (fun _ _ => True) (fun h' reading => (∀ x ∈ h', x.after = x.before) ∧
      ∀ e, reading = .error e → answered e = false) h := by
  refine ⟨trivial, fun env s => ⟨List.forall_mem_cons.mpr ⟨rfl, hrest⟩, fun e he => ?_⟩⟩
  split at he
  case isTrue => cases he; rfl
  case isFalse => cases he

theorem sat_rejected (request : ApprovalDecisionRequest) (reason : Bytes) :
    (recordRejected request reason).Sat (fun _ _ => True)
      (fun h result => UnansweredFaults h →
        (∀ e, result = .error e → Attempted h (.error e)) ∧
        (∀ u, result = .ok u → Attempted h (.error errInvalidApprovalDecision))) [] := by
  refine .ite (fun _ =>
    ⟨trivial, fun env s hfaults => ⟨fun e herror => ?_, fun u hok => ?_⟩⟩) fun _ => ?_
  · refine attempted_of_unchanged ?_ ?_
    · exact run_unanswered (t := .recordRejected request reason) (hfaults _ List.mem_cons_self)
        (fun _ => rfl) (appendAudit_fails fun _ hm => by cases hm) herror
    · exact List.forall_mem_cons.mpr ⟨Transaction.run_error herror, by simp⟩
  · refine ⟨fun htrue => (by cases htrue), fun _ => .inr ⟨_, [], rfl, ?_, by simp⟩⟩
    exact appendAudit_rejects (after_of_run_ok hok)
  · intro _
    exact ⟨fun e he => (by cases he), fun u _ => attempted_of_unchanged rfl (by simp)⟩

/-- Every call to `Decide` audits as its result says, whatever runs beside it. -/
theorem sat_attempted (request : ApprovalDecisionRequest) :
    (decideCommand request).Sat (fun _ _ => True)
      (fun h result => UnansweredFaults h → Attempted h result) [] := by
  refine .ite (fun _ => ?_) fun _ => ?_
  · refine .bind (sat_reading (by simp)) ?_
    rintro h reading ⟨hrest, herror⟩
    cases reading with
    | error e => exact fun _ => attempted_of_unchanged (herror e rfl) hrest
    | ok now =>
      refine .call_bind trivial fun env s => ?_
      have hgenerated : ∀ x ∈ (⟨.newApprovalID, env, s⟩ :: h : List (Occurrence interface)),
          x.after = x.before := List.forall_mem_cons.mpr ⟨rfl, hrest⟩
      split
      case h_1 => exact fun _ => attempted_of_unchanged rfl hgenerated
      case h_2 approvalID _ =>
        refine .ite (fun _ => ?_) fun _ _ => attempted_of_unchanged rfl hgenerated
        refine .call_bind trivial fun env' s' => ?_
        split
        case h_1 e hcommitted =>
          exact fun hfaults => attempted_of_decide hcommitted hfaults hgenerated
        case h_2 result hcommitted =>
          exact fun hfaults => attempted_of_decide hcommitted hfaults hgenerated
  · refine .bind (sat_rejected request _) fun h result hresult => ?_
    cases result with
    | error e => exact fun hfaults => (hresult hfaults).1 e rfl
    | ok u => exact fun hfaults => (hresult hfaults).2 u rfl

end PulseAgent.Recovery
