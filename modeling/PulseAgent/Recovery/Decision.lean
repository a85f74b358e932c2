import PulseAgent.Recovery.Approval
import PulseAgent.Audit.Append

/-!
# What a decision commits

It rejected the request, expired the command, or recorded the grant or denial together with the
record that carries it.
-/

namespace PulseAgent.Recovery

open Go Go.Json Contract

section Decisions

variable {s s' : Store} {inputs : AuditInputs} {request : ApprovalDecisionRequest}

theorem putThen_run {bucket : Bucket} {key value : Bytes} {next : TxProg Unit} {u : Unit}
    (h : (putThen bucket key value next).run s = .ok (u, s')) :
    next.run (Function.update s bucket ((s bucket).insert key value)) = .ok (u, s') := by
  simp only [putThen, TxProg.run, TxProg.step] at h
  cases hput : Tx.put bucket key value s with
  | error e =>
    rw [hput] at h
    cases h
  | ok r =>
    obtain ⟨_, s1⟩ := r
    obtain ⟨-, -, rfl⟩ := Tx.put_ok.mp hput
    rw [hput] at h
    exact h

theorem putRecordProg_run {key : Bytes} {record : JournalRecord} {u : Unit}
    (h : (putRecordProg key record).run s = .ok (u, s')) :
    ∃ document, Written key record document ∧
      s' = Function.update s .commandJournal ((s .commandJournal).insert key document) := by
  unfold putRecordProg at h
  split at h
  case isTrue hvalid =>
    obtain ⟨_, hok⟩ := exists_of_isOk hvalid.2
    split at h
    case h_1 document hencode =>
      have h := putThen_run h
      cases h
      exact ⟨document, ⟨hvalid.1, hok, encode_ok.mp hencode⟩, rfl⟩
    case h_2 => cases h
  case isFalse => cases h

theorem appendAudit_change {result reason : Bytes} {mutation : Option Audit.Mutation} {u : Unit}
    (h : appendAudit inputs request result reason mutation s = .ok (u, s')) :
    ∃ s1, (∀ bucket, bucket ≠ .audit → s' bucket = s1 bucket) ∧
      match mutation with
      | none => s1 = s
      | some mutation => mutation.run s = .ok ((), s1) := by
  obtain ⟨_, -, h⟩ := Tx.bind_liftExcept_ok.mp h
  obtain ⟨-, h⟩ := Tx.bind_require_ok.mp h
  obtain ⟨_, s1, happend, h⟩ := Tx.bind_ok.mp h
  cases h
  exact Audit.append_change happend

def decidedRecord (record : JournalRecord) (approval : Approval) : JournalRecord :=
  if approval.decision = .denied then
    (record.decided approval.approvalID).moved .denied .completed
  else record.decided approval.approvalID

/-- What a committed decision did to journal and approvals, by its result. -/
inductive DecisionEffect (s s' : Store) (request : ApprovalDecisionRequest) (approvalID : Bytes)
    (now : Time) : Except Error ApprovalDecisionResult → Prop where
  | rejected (e : Error) (hjournal : s' .commandJournal = s .commandJournal)
      (happrovals : s' .approvals = s .approvals) :
      DecisionEffect s s' request approvalID now (.error e)
  | expired (stored : StoredRecord) (document : Bytes)
      (hloads : Loads s stored.key stored.record) (hundecided : undecided stored.record = true)
      (hwritten : Written stored.key (stored.record.moved .expired .completed) document)
      (hjournal : s' .commandJournal = (s .commandJournal).insert stored.key document)
      (happrovals : s' .approvals = s .approvals) :
      DecisionEffect s s' request approvalID now (.error errApprovalCommandExpired)
  | accepted (stored : StoredRecord) (approval : Approval) (document journalDocument : Bytes)
      (hfound : findRecordByCommandID request.commandID s = .ok (some stored, s))
      (hphase : stored.record.phase = .awaitingApproval)
      (hstate : stored.record.command.state = .pending)
      (hundecided : stored.record.command.approvalID = [])
      (happroval : approval = newApproval request stored.record approvalID now)
      (hvalid : validateApproval approval = .ok ())
      (hfresh : (s .approvals)[approvalRecordKey approvalID]? = none ∧
        (s .approvals)[approvalCommandKey request.commandID]? = none)
      (hmarshal : Approval.codec.marshal approval = some document)
      (hwritten : Written stored.key (decidedRecord stored.record approval) journalDocument)
      (hjournal : s' .commandJournal = (s .commandJournal).insert stored.key journalDocument)
      (happrovals : s' .approvals =
        ((s .approvals).insert (approvalRecordKey approvalID) document).insert
          (approvalCommandKey request.commandID) approvalID) :
      DecisionEffect s s' request approvalID now
        (.ok ⟨approval, (decidedRecord stored.record approval).command⟩)

variable {approvalID : Bytes} {now : Time} {result : Except Error ApprovalDecisionResult}

theorem rejectDecision_none {reason : Bytes} {e : Error}
    (h : rejectDecision inputs request reason none e s = .ok (result, s')) :
    DecisionEffect s s' request approvalID now result := by
  obtain ⟨_, s1, haudit, h⟩ := Tx.bind_ok.mp h
  cases h
  obtain ⟨s2, hkept, rfl⟩ := appendAudit_change haudit
  exact .rejected e (hkept _ (by decide)) (hkept _ (by decide))

theorem rejectDecision_expired {stored : StoredRecord} {expired : JournalRecord}
    (hloads : Loads s stored.key stored.record)
    (hexpired : transitionToExpired stored.record = .ok expired)
    (h : rejectDecision inputs request
      approvalAuditExpired (some (putRecordProg stored.key expired))
      errApprovalCommandExpired s = .ok (result, s')) :
    DecisionEffect s s' request approvalID now result := by
  obtain ⟨_, s1, haudit, h⟩ := Tx.bind_ok.mp h
  cases h
  obtain ⟨s2, hkept, hrun⟩ := appendAudit_change haudit
  obtain ⟨document, hwritten, rfl⟩ := putRecordProg_run hrun
  unfold transitionToExpired at hexpired
  split at hexpired
  case isTrue hundecided =>
    obtain ⟨rfl, -⟩ := transition_ok hexpired
    refine .expired stored document hloads hundecided hwritten ?_ ?_
    · rw [hkept _ (by decide), Function.update_self]
    · rw [hkept _ (by decide), Function.update_of_ne (by decide)]
  case isFalse => cases hexpired

theorem decidedRecord_of_ok {record updated : JournalRecord} {approval : Approval}
    (h : (if approval.decision = .denied then
      transitionToDenied (record.decided approval.approvalID)
      else .ok (record.decided approval.approvalID)) = .ok updated) :
    updated = decidedRecord record approval := by
  unfold decidedRecord
  split at h
  case isTrue hdenied =>
    rw [if_pos hdenied]
    unfold transitionToDenied at h
    split at h
    case isTrue => exact (transition_ok h).1
    case isFalse => cases h
  case isFalse hdenied =>
    rw [if_neg hdenied]
    exact (Except.ok.inj h).symm

theorem acceptDecision_ok {stored : StoredRecord}
    (hfound : findRecordByCommandID request.commandID s = .ok (some stored, s))
    (hphase : stored.record.phase = .awaitingApproval)
    (hstate : stored.record.command.state = .pending)
    (hundecided : stored.record.command.approvalID = [])
    (hfresh : (s .approvals)[approvalRecordKey approvalID]? = none ∧
      (s .approvals)[approvalCommandKey request.commandID]? = none)
    (h : acceptDecision inputs request stored (newApproval request stored.record approvalID now) s =
      .ok (result, s')) : DecisionEffect s s' request approvalID now result := by
  obtain ⟨hvalid, h⟩ := Tx.bind_require_ok.mp h
  obtain ⟨updated, hupdated, h⟩ := Tx.bind_liftExcept_ok.mp h
  obtain ⟨document, hencode, h⟩ := Tx.bind_liftExcept_ok.mp h
  obtain ⟨_, s1, haudit, h⟩ := Tx.bind_ok.mp h
  obtain ⟨_, hok⟩ := exists_of_isOk hvalid
  obtain rfl := decidedRecord_of_ok hupdated
  cases h
  obtain ⟨s2, hkept, hrun⟩ := appendAudit_change haudit
  obtain ⟨journalDocument, hwritten, rfl⟩ := putRecordProg_run (putThen_run (putThen_run hrun))
  have hcommand : (newApproval request stored.record approvalID now).commandID =
    request.commandID :=
    (loads_of_found hfound).2.2.2
  refine .accepted stored _ document journalDocument hfound hphase hstate hundecided rfl hok hfresh
    (encode_ok.mp hencode) hwritten ?_ ?_
  · rw [hkept _ (by decide)]
    simp [Function.update_of_ne]
  · rw [hkept _ (by decide), Function.update_of_ne (by decide), Function.update_self,
      Function.update_self, hcommand]
    rfl

/-- The exits of a decision's transaction that may commit. -/
inductive DecisionExit (s : Store) (inputs : AuditInputs) (request : ApprovalDecisionRequest)
    (approvalID : Bytes) (now : Time) : Tx (Except Error ApprovalDecisionResult) → Prop where
  | rejected (reason : Bytes) (e : Error) :
      DecisionExit s inputs request approvalID now (rejectDecision inputs request reason none e)
  | expired (stored : StoredRecord) (expired : JournalRecord)
      (hloads : Loads s stored.key stored.record)
      (hexpired : transitionToExpired stored.record = .ok expired) :
      DecisionExit s inputs request approvalID now (rejectDecision inputs request
        approvalAuditExpired (some (putRecordProg stored.key expired)) errApprovalCommandExpired)
  | accepted (stored : StoredRecord)
      (hfound : findRecordByCommandID request.commandID s = .ok (some stored, s))
      (hphase : stored.record.phase = .awaitingApproval)
      (hstate : stored.record.command.state = .pending)
      (hundecided : stored.record.command.approvalID = [])
      (hfresh : (s .approvals)[approvalRecordKey approvalID]? = none ∧
        (s .approvals)[approvalCommandKey request.commandID]? = none) :
      DecisionExit s inputs request approvalID now
        (acceptDecision inputs request stored (newApproval request stored.record approvalID now))

theorem decideApproval_exit
    (h : decideApproval request approvalID now inputs s = .ok (result, s')) :
    ∃ exit, DecisionExit s inputs request approvalID now exit ∧ exit s = .ok (result, s') := by
  unfold decideApproval at h
  obtain ⟨found, s1, hfound, hrest⟩ := Tx.bind_ok.mp h
  cases found with
  | none =>
    obtain ⟨rfl, -⟩ := findRecordByCommandID_ok.mp hfound
    exact ⟨_, .rejected _ _, hrest⟩
  | some stored =>
    obtain ⟨rfl, -, hloads, -⟩ := loads_of_found hfound
    dsimp only at hrest
    split at hrest
    case isTrue => exact ⟨_, .rejected _ _, hrest⟩
    case isFalse hwaiting =>
      simp only [ne_eq, Bool.or_eq_true, decide_eq_true_eq, not_or, not_not] at hwaiting
      split at hrest
      case isTrue =>
        obtain ⟨expired, hexpired, hrest⟩ := Tx.bind_liftExcept_ok.mp hrest
        exact ⟨_, .expired stored expired hloads hexpired, hrest⟩
      case isFalse =>
        split at hrest
        case isTrue => exact ⟨_, .rejected _ _, hrest⟩
        case isFalse =>
          obtain ⟨-, hrest⟩ := Tx.bind_get_ok.mp hrest
          cases hrecord : (s1 .approvals)[approvalRecordKey approvalID]? with
          | some _ =>
            rw [hrecord] at hrest
            cases hrest
          | none =>
            rw [hrecord] at hrest
            obtain ⟨-, hrest⟩ := Tx.bind_get_ok.mp hrest
            cases hindex : (s1 .approvals)[approvalCommandKey request.commandID]? with
            | some _ =>
              rw [hindex] at hrest
              exact ⟨_, .rejected _ _, hrest⟩
            | none =>
              rw [hindex] at hrest
              exact ⟨_, .accepted stored hfound hwaiting.1.1 hwaiting.1.2 hwaiting.2
                ⟨hrecord, hindex⟩, hrest⟩

/-- One decision rejects, expires the command, or records the grant or denial it asked for. -/
theorem decideApproval_ok (h : decideApproval request approvalID now inputs s = .ok (result, s')) :
    DecisionEffect s s' request approvalID now result := by
  obtain ⟨exit, hexit, h⟩ := decideApproval_exit h
  cases hexit with
  | rejected reason e => exact rejectDecision_none h
  | expired stored expired hloads hexpired => exact rejectDecision_expired hloads hexpired h
  | accepted stored hfound hphase hstate hundecided hfresh =>
    exact acceptDecision_ok hfound hphase hstate hundecided hfresh h

theorem advance_of_decided {record : JournalRecord} (approval : Approval)
    (hphase : record.phase = .awaitingApproval) (hstate : record.command.state = .pending)
    (happroval : record.command.approvalID = []) :
    Advance (· = approval.approvalID) record (decidedRecord record approval) := by
  unfold decidedRecord
  split
  case isTrue => exact .refused _ rfl hphase hstate happroval
  case isFalse => exact .granted _ rfl hphase hstate happroval

theorem DecisionEffect.journal (h : DecisionEffect s s' request approvalID now result) :
    JournalEffect ⟨fun _ => False, (· = approvalID)⟩ s s' := by
  cases h with
  | rejected e hjournal => exact .of_eq hjournal
  | expired stored document hloads hundecided hwritten hjournal =>
    exact .of_insert hloads (.expired hundecided) hwritten hjournal
  | accepted stored approval document journalDocument hfound hphase hstate hundecided
      happroval _ _ _
      hwritten hjournal =>
    have hid : approval.approvalID = approvalID := by rw [happroval]; rfl
    subst hid
    exact .of_insert (loads_of_found hfound).2.2.1
      (advance_of_decided approval hphase hstate hundecided) hwritten hjournal

/-! ## Stored decisions -/

/-- The approvals bucket holds this decision for the command, readable. -/
def StoredApproval (s : Store) (commandID : Bytes) (approval : Approval) : Prop :=
  ∃ approvalID document, (s .approvals)[approvalCommandKey commandID]? = some approvalID ∧
    (s .approvals)[approvalRecordKey approvalID]? = some document ∧
    checkedApproval commandID approvalID document = .ok approval

theorem loadApproval_ok {commandID : Bytes} {found : Option Approval}
    (h : loadApproval commandID s = .ok (found, s')) :
    s' = s ∧ ∀ approval, found = some approval → StoredApproval s commandID approval := by
  unfold loadApproval at h
  obtain ⟨-, h⟩ := Tx.bind_get_ok.mp h
  cases hindex : (s .approvals)[approvalCommandKey commandID]? with
  | none =>
    rw [hindex] at h
    cases h
    exact ⟨rfl, fun _ h => by cases h⟩
  | some approvalID =>
    rw [hindex] at h
    obtain ⟨-, h⟩ := Tx.bind_get_ok.mp h
    cases hrecord : (s .approvals)[approvalRecordKey approvalID]? with
    | none =>
      rw [hrecord] at h
      cases h
    | some document =>
      rw [hrecord] at h
      dsimp only at h
      cases hchecked : checkedApproval commandID approvalID document with
      | error e =>
        rw [hchecked] at h
        cases h
      | ok decoded =>
        rw [hchecked] at h
        cases h
        refine ⟨rfl, fun approval heq => ?_⟩
        cases heq
        exact ⟨approvalID, document, hindex, hrecord, hchecked⟩

def ApprovalsKept (s s' : Store) : Prop :=
  ∀ key value : Bytes, (s .approvals)[key]? = some value → (s' .approvals)[key]? = some value

theorem ApprovalsKept.of_eq (h : s' .approvals = s .approvals) : ApprovalsKept s s' := by
  intro key value hkey
  rw [h]
  exact hkey

theorem ApprovalsKept.refl (s : Store) : ApprovalsKept s s := .of_eq rfl

theorem ApprovalsKept.trans {a b c : Store} (h : ApprovalsKept a b) (h' : ApprovalsKept b c) :
    ApprovalsKept a c :=
  fun key value hkey => h' key value (h key value hkey)

theorem DecisionEffect.approvals (h : DecisionEffect s s' request approvalID now result) :
    ApprovalsKept s s' := by
  cases h with
  | rejected e _ happrovals => exact .of_eq happrovals
  | expired stored document _ _ _ _ happrovals => exact .of_eq happrovals
  | accepted stored approval document journalDocument _ _ _ _ _ _ hfresh _ _ _ happrovals =>
    intro key value hkey
    have hrecord : approvalRecordKey approvalID ≠ key := by
      intro heq
      rw [heq, hkey] at hfresh
      cases hfresh.1
    have hindex : approvalCommandKey request.commandID ≠ key := by
      intro heq
      rw [heq, hkey] at hfresh
      cases hfresh.2
    rw [happrovals, Std.ExtTreeMap.getElem?_insert, Std.ExtTreeMap.getElem?_insert,
      if_neg (by simpa using hindex), if_neg (by simpa using hrecord)]
    exact hkey

end Decisions

/-! ## Buckets a decision leaves alone -/

theorem decideApproval_keeps {inputs : AuditInputs} {request : ApprovalDecisionRequest}
    {approvalID : Bytes} {now : Time} {bucket : Bucket}
    (hbucket : bucket ∉ [Bucket.commandJournal, .approvals, .audit]) :
    Tx.Keeps bucket (decideApproval request approvalID now inputs) := by
  simp only [List.mem_cons, List.not_mem_nil, or_false, not_or] at hbucket
  obtain ⟨hjournal, happrovals, haudit⟩ := hbucket
  intro s result s' h
  obtain ⟨exit, hexit, h⟩ := decideApproval_exit h
  cases hexit with
  | rejected reason e =>
    obtain ⟨_, _, h, hpure⟩ := Tx.bind_ok.mp h
    cases hpure
    obtain ⟨_, hkept, rfl⟩ := appendAudit_change h
    exact hkept _ haudit
  | expired stored expired =>
    obtain ⟨_, _, h, hpure⟩ := Tx.bind_ok.mp h
    cases hpure
    obtain ⟨_, hkept, hrun⟩ := appendAudit_change h
    obtain ⟨document, -, rfl⟩ := putRecordProg_run hrun
    rw [hkept _ haudit, Function.update_of_ne hjournal]
  | accepted stored =>
    obtain ⟨-, h⟩ := Tx.bind_require_ok.mp h
    obtain ⟨_, -, h⟩ := Tx.bind_liftExcept_ok.mp h
    obtain ⟨_, -, h⟩ := Tx.bind_liftExcept_ok.mp h
    obtain ⟨_, _, h, hpure⟩ := Tx.bind_ok.mp h
    cases hpure
    obtain ⟨_, hkept, hrun⟩ := appendAudit_change h
    obtain ⟨document, -, rfl⟩ := putRecordProg_run (putThen_run (putThen_run hrun))
    rw [hkept _ haudit, Function.update_of_ne hjournal, Function.update_of_ne happrovals,
      Function.update_of_ne happrovals]

end PulseAgent.Recovery
