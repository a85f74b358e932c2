import PulseAgent.Policy.Specification
import PulseAgent.Recovery.Attempts
import PulseAgent.Recovery.Legible

/-!
# Approvals, their index and the journal

Each decision writes an approval, an index entry for its command and the command's record in one
transaction. `Agreed` says that the three name each other.
-/

namespace PulseAgent.Recovery

open Go Go.Json Contract Concurrent

def approvalAt (s : Store) (approvalID : Bytes) : Option Approval :=
  (s .approvals)[approvalRecordKey approvalID]?.bind (content Approval.codec)

/-- The approval has been given to the record of its command, and a denial has ended it. -/
structure Carries (s : Store) (commandID approvalID : Bytes) (approval : Approval)
    (r : JournalRecord) : Prop where
  stored : approvalAt s approvalID = some approval
  names : approval.commandID = commandID ∧ approval.approvalID = approvalID ∧ approvalID ≠ []
  record : r.command.commandID = commandID ∧ r.command.approvalID = approvalID
  decision : approval.decision = .granted ∨
    approval.decision = .denied ∧ r.phase = .completed ∧ r.command.state = .denied

structure Agreed (s : Store) : Prop where
  indexed : ∀ commandID approvalID,
    (s .approvals)[approvalCommandKey commandID]? = some approvalID →
    ∃ approval key r, isRecordKey key = true ∧ recordAt s key = some r ∧
      Carries s commandID approvalID approval r
  documents : ∀ approvalID document,
    (s .approvals)[approvalRecordKey approvalID]? = some document →
    ∃ approval, content Approval.codec document = some approval ∧
      (s .approvals)[approvalCommandKey approval.commandID]? = some approvalID
  awaiting : ∀ key r, isRecordKey key = true → recordAt s key = some r →
    r.phase = .awaitingApproval → r.command.approvalID ≠ [] →
    ∃ approval, (s .approvals)[approvalCommandKey r.command.commandID]? =
      some r.command.approvalID ∧ approvalAt s r.command.approvalID = some approval ∧
      approval.decision = .granted

/-! ## Keys of the approvals bucket -/

theorem approvalRecordKey_inj {a b : Bytes}
    (h : approvalRecordKey a = approvalRecordKey b) : a = b :=
  List.append_cancel_left h

theorem approvalCommandKey_inj {a b : Bytes} (h : approvalCommandKey a = approvalCommandKey b) :
    a = b :=
  List.append_cancel_left h

theorem approvalRecordKey_ne_commandKey (a b : Bytes) :
    approvalRecordKey a ≠ approvalCommandKey b := by
  intro h
  have hhead := congrArg List.head? h
  cases hhead

theorem ApprovalsKept.approvalAt {s s' : Store} (h : ApprovalsKept s s') {approvalID : Bytes}
    {approval : Approval} (hstored : Recovery.approvalAt s approvalID = some approval) :
    Recovery.approvalAt s' approvalID = some approval := by
  obtain ⟨document, hdocument, hcontent⟩ := Option.bind_eq_some_iff.mp hstored
  rw [Recovery.approvalAt, h _ _ hdocument]
  exact hcontent

/-! ## Steps that decide nothing -/

theorem approvalID_of_awaiting {request : Request} {commandID : Bytes} {now : Time}
    {decision : Policy.Decision} {record : JournalRecord}
    (h : Coordinator.prepareRecord request commandID now = .ok (decision, some record))
    (hphase : record.phase = .awaitingApproval) : record.command.approvalID = [] := by
  have hdecision : decision =
      Policy.evaluate request.policySnapshot (policyInput request.policyInput commandID now) := by
    unfold Coordinator.prepareRecord at h
    dsimp only at h
    split at h
    case isTrue => cases h
    case isFalse =>
      split at h
      case h_1 => cases h
      case h_2 =>
        split at h
        case h_1 => cases h
        case h_2 =>
          cases h
          rfl
  obtain ⟨registered, action, -, rfl⟩ := prepareRecord_some h
  have hverdict : decision.verdict = .awaitApproval := by
    change (if decision.verdict = .awaitApproval then _ else _) = _ at hphase
    split at hphase
    case isTrue hverdict => exact hverdict
    case isFalse => cases hphase
  rw [hdecision] at hverdict
  have hnone : (policyInput request.policyInput commandID now).approval = none :=
    Policy.approval_of_awaitApproval hverdict
  change request.policyInput.approval = none at hnone
  simp only [Coordinator.pendingRecord, hnone]

/-- A step without a decision brings no approval into the journal, by new records or old ones. -/
structure Undecided (intake : Intake) : Prop where
  approval : ∀ id, ¬intake.approval id
  record : ∀ r, intake.record r → r.phase = .awaitingApproval → r.command.approvalID = []

theorem undecided_nothing : Undecided .nothing := ⟨fun _ h => h, fun _ h => by cases h⟩

section Effects

variable {intake : Intake} {s s' : Store}

theorem awaiting_of_effect (hclean : Clean s) (heffect : JournalEffect intake s s')
    (hundecided : Undecided intake) {key : Bytes} {r : JournalRecord}
    (hkey : isRecordKey key = true)
    (hr : recordAt s' key = some r) (hphase : r.phase = .awaitingApproval)
    (happroval : r.command.approvalID ≠ []) : recordAt s key = some r := by
  cases heffect key hkey with
  | same heq => rw [recordAt, ← heq, ← recordAt, hr]
  | created new document _ hwritten heq hnew =>
    obtain rfl := Option.some.inj ((recordAt_of_written heq hwritten).symm.trans hr)
    obtain ⟨hp, -⟩ := norm_of_validRecordPhase (validateRecord_ok.mp hwritten.valid).2.2.2.2.1
    have hempty := hundecided.record new hnew (hp.symm.trans hphase)
    exact absurd (congrArg Utf8.toValidUTF8 hempty) happroval
  | advanced old new document hloads hadvance hwritten heq =>
    obtain rfl := Option.some.inj ((recordAt_of_written heq hwritten).symm.trans hr)
    have hsound := (hclean.sound hkey hloads.recordAt_eq).norm_eq
    have hnorm := hadvance.norm hsound
    -- only a decision leaves a record waiting
    have hnone : ∀ id, ¬∃ x, intake.approval x ∧ Utf8.toValidUTF8 x = id :=
      fun _ h => hundecided.approval _ h.choose_spec.1
    generalize JournalRecord.codec.norm new = r at *
    cases hnorm with
    | settled hcompleted =>
      rw [hcompleted] at hphase
      cases hphase
    | granted approvalID hid => exact absurd hid (hnone approvalID)
    | refused approvalID hid => exact absurd hid (hnone approvalID)
    | _ => cases hphase

theorem Agreed.effect (h : Agreed s) (hclean : Clean s) (heffect : JournalEffect intake s s')
    (hundecided : Undecided intake) (happrovals : s' .approvals = s .approvals) : Agreed s' where
  indexed commandID approvalID hindex := by
    rw [happrovals] at hindex
    obtain ⟨approval, key, r, hkey, hr, hcarries⟩ := h.indexed commandID approvalID hindex
    obtain ⟨r', hr', heq | hadvance⟩ := hclean.advance heffect hkey hr
    · subst heq
      exact ⟨approval, key, r', hkey, hr', by rw [approvalAt, happrovals]; exact hcarries.stored,
        hcarries.names, hcarries.record, hcarries.decision⟩
    · refine ⟨approval, key, r', hkey, hr', by rw [approvalAt, happrovals]; exact hcarries.stored,
        hcarries.names, ⟨?_, ?_⟩, ?_⟩
      · rw [hadvance.kept.2.2.2]
        exact hcarries.record.1
      · rcases hadvance.approvalID with hkept | ⟨hempty, -⟩
        · rw [hkept, hcarries.record.2]
        · rw [hcarries.record.2] at hempty
          exact absurd hempty hcarries.names.2.2
      · rcases hcarries.decision with hgranted | ⟨hdenied, hphase, hstate⟩
        · exact .inl hgranted
        · obtain rfl := hadvance.eq_of_final (.inl hphase)
          exact .inr ⟨hdenied, hphase, hstate⟩
  documents approvalID document hdocument := by
    rw [happrovals] at hdocument ⊢
    exact h.documents approvalID document hdocument
  awaiting key r hkey hr hphase happroval := by
    rw [approvalAt, happrovals, ← approvalAt]
    exact h.awaiting key r hkey
      (awaiting_of_effect hclean heffect hundecided hkey hr hphase happroval) hphase happroval

end Effects

/-! ## Decisions -/

theorem validateApproval_ok {approval : Approval} (h : validateApproval approval = .ok ()) :
    approval.approvalID ≠ [] ∧ (approval.decision = .granted ∨ approval.decision = .denied) := by
  unfold validateApproval at h
  split at h
  case isTrue hvalid =>
    simp only [Bool.and_eq_true, Bool.or_eq_true, decide_eq_true_eq] at hvalid
    obtain ⟨⟨⟨⟨⟨⟨⟨⟨-, hid⟩, -⟩, hdecision⟩, -⟩, -⟩, -⟩, -⟩, -⟩ := hvalid
    simp only [validToken, Bool.and_eq_true, decide_eq_true_eq] at hid
    exact ⟨hid.1.1.1, hdecision⟩
  case isFalse => cases h

theorem norm_decidedRecord {record : JournalRecord} {approval : Approval}
    (hrecord : JournalRecord.codec.norm record = record)
    (hid : Utf8.toValidUTF8 approval.approvalID = approval.approvalID) :
    JournalRecord.codec.norm (decidedRecord record approval) = decidedRecord record approval := by
  unfold decidedRecord
  split
  case isTrue =>
    rw [norm_moved, norm_decided, hrecord, hid]
    rfl
  case isFalse => rw [norm_decided, hrecord, hid]

section Accepted

variable {s s' : Store} {request : ApprovalDecisionRequest} {approvalID : Bytes} {now : Time}
  {result : Except Error ApprovalDecisionResult}

/-- What an accepted decision leaves behind, as later readers find it. -/
structure Decided (s s' : Store) (commandID approvalID key : Bytes) (approval : Approval)
    (old new : JournalRecord) : Prop where
  kept : ApprovalsKept s s'
  index : ∀ c, (s' .approvals)[approvalCommandKey c]? =
    if c = commandID then some approvalID else (s .approvals)[approvalCommandKey c]?
  document : ∀ id, id ≠ approvalID →
    (s' .approvals)[approvalRecordKey id]? = (s .approvals)[approvalRecordKey id]?
  unindexed : (s .approvals)[approvalCommandKey commandID]? = none
  isKey : isRecordKey key = true
  loaded : recordAt s key = some old ∧ old.command.approvalID = []
  written : recordAt s' key = some new
  others : ∀ k, k ≠ key → recordAt s' k = recordAt s k
  carries : Carries s' commandID approvalID approval new

theorem decided_of_effect (hclean : Clean s) (hid : Utf8.validString approvalID = true)
    {answer : ApprovalDecisionResult}
    (h : DecisionEffect s s' request approvalID now (.ok answer)) :
    ∃ key approval old new, Decided s s' request.commandID approvalID key approval old new := by
  have hkept := h.approvals
  cases h with
  | accepted stored approval document journalDocument hfound hphase hstate hundecided happroval
      hvalid hfresh hmarshal hwritten hjournal happrovals =>
    obtain ⟨-, hkey, hloads, hcommand⟩ := loads_of_found hfound
    have hnorm := (hclean.sound hkey hloads.recordAt_eq).norm_eq
    have happrovalID : approval.approvalID = approvalID := by rw [happroval]; rfl
    obtain ⟨hne, hdecision⟩ := validateApproval_ok hvalid
    rw [happrovalID] at hne
    have hidNorm : Utf8.toValidUTF8 approvalID = approvalID := Utf8.toValidUTF8_of_valid hid
    have hcommandNorm : Utf8.toValidUTF8 request.commandID = request.commandID := by
      rw [← hcommand]
      exact congrArg (fun r => r.command.commandID) hnorm
    have hlookup : ∀ k : Bytes, (s' .approvals)[k]? =
        if approvalCommandKey request.commandID = k then some approvalID
        else if approvalRecordKey approvalID = k then some document else (s .approvals)[k]? := by
      intro k
      rw [happrovals, Std.ExtTreeMap.getElem?_insert, Std.ExtTreeMap.getElem?_insert]
      simp only [Std.LawfulEqCmp.compare_eq_iff_eq]
    have hnew : recordAt s' stored.key = some (decidedRecord stored.record approval) := by
      rw [← norm_decidedRecord hnorm (by rw [happrovalID, hidNorm])]
      exact recordAt_of_written (by rw [hjournal, Std.ExtTreeMap.getElem?_insert_self]) hwritten
    refine ⟨stored.key, Approval.codec.norm approval, stored.record, _, hkept, ?_, ?_,
      hfresh.2, hkey,
      ⟨hloads.recordAt_eq, hundecided⟩, hnew, ?_, ?_, ?_, ?_, ?_⟩
    · intro c
      rw [hlookup, if_neg (approvalRecordKey_ne_commandKey approvalID c)]
      by_cases hc : c = request.commandID
      · rw [hc, if_pos rfl, if_pos rfl]
      · rw [if_neg hc, if_neg fun h => hc (approvalCommandKey_inj h).symm]
    · intro id hne
      rw [hlookup, if_neg (approvalRecordKey_ne_commandKey id request.commandID).symm,
        if_neg fun h => hne (approvalRecordKey_inj h).symm]
    · intro k hk
      rw [recordAt, recordAt, hjournal, Std.ExtTreeMap.getElem?_insert]
      simp [Ne.symm hk]
    · rw [approvalAt, hlookup, if_neg (approvalRecordKey_ne_commandKey _ _).symm, if_pos rfl]
      exact content_marshal hmarshal
    · refine ⟨?_, ?_, hne⟩
      · rw [happroval]
        exact (congrArg Utf8.toValidUTF8 hcommand).trans hcommandNorm
      · rw [happroval]
        exact hidNorm
    · unfold decidedRecord
      split
      case isTrue => exact ⟨hcommand, happrovalID⟩
      case isFalse => exact ⟨hcommand, happrovalID⟩
    · rcases hdecision with hgranted | hdenied
      · exact .inl (congrArg ApprovalDecision.codec.norm hgranted)
      · refine .inr ⟨congrArg ApprovalDecision.codec.norm hdenied, ?_⟩
        rw [decidedRecord, if_pos hdenied]
        exact ⟨rfl, rfl⟩

theorem Agreed.decided {commandID key : Bytes} {approval : Approval} {old new : JournalRecord}
    (h : Agreed s) (hdecided : Decided s s' commandID approvalID key approval old new) :
    Agreed s' where
  indexed c id hindex := by
    rw [hdecided.index c] at hindex
    split at hindex
    case isTrue hc =>
      obtain rfl := Option.some.inj hindex
      subst hc
      exact ⟨approval, key, new, hdecided.isKey, hdecided.written, hdecided.carries⟩
    case isFalse =>
      obtain ⟨approval', key', r, hkey', hr, hcarries⟩ := h.indexed c id hindex
      have hne : key' ≠ key := by
        rintro rfl
        obtain rfl := Option.some.inj (hdecided.loaded.1.symm.trans hr)
        exact hcarries.names.2.2 (hcarries.record.2.symm.trans hdecided.loaded.2)
      exact ⟨approval', key', r, hkey', by rw [hdecided.others key' hne, hr],
        hdecided.kept.approvalAt hcarries.stored, hcarries.names, hcarries.record,
        hcarries.decision⟩
  documents id document hdocument := by
    by_cases hid : id = approvalID
    · subst hid
      have hstored := hdecided.carries.stored
      rw [approvalAt, hdocument] at hstored
      refine ⟨approval, hstored, ?_⟩
      rw [hdecided.index, if_pos hdecided.carries.names.1]
    · rw [hdecided.document id hid] at hdocument
      obtain ⟨approval', hcontent, hindex⟩ := h.documents id document hdocument
      exact ⟨approval', hcontent, hdecided.kept _ _ hindex⟩
  awaiting k r hk hr hphase happroval := by
    by_cases hkey : k = key
    · subst hkey
      obtain rfl := Option.some.inj (hdecided.written.symm.trans hr)
      obtain ⟨hcommandID, hid⟩ := hdecided.carries.record
      refine ⟨approval, ?_, ?_, ?_⟩
      · rw [hdecided.index, if_pos hcommandID, hid]
      · rw [hid]
        exact hdecided.carries.stored
      · rcases hdecided.carries.decision with hgranted | ⟨-, hcompleted, -⟩
        · exact hgranted
        · rw [hcompleted] at hphase
          cases hphase
    · rw [hdecided.others k hkey] at hr
      obtain ⟨approval', hindex, hstored, hgranted⟩ := h.awaiting k r hk hr hphase happroval
      exact ⟨approval', hdecided.kept _ _ hindex, hdecided.kept.approvalAt hstored, hgranted⟩

theorem Agreed.decision (h : Agreed s) (hclean : Clean s) (hid : Utf8.validString approvalID = true)
    (heffect : DecisionEffect s s' request approvalID now result) : Agreed s' := by
  cases hresult : result with
  | ok answer =>
    rw [hresult] at heffect
    obtain ⟨key, approval, old, new, hdecided⟩ := decided_of_effect hclean hid heffect
    exact h.decided hdecided
  | error e =>
    cases heffect with
    | rejected e' hjournal happrovals =>
      exact h.effect hclean (.of_eq hjournal) undecided_nothing happrovals
    | expired stored document hloads hundecided hwritten hjournal happrovals =>
      exact h.effect hclean (.of_insert hloads (.expired hundecided) hwritten hjournal)
        undecided_nothing happrovals
    | accepted => cases hresult

end Accepted

/-! ## Runs -/

theorem perform_approvals {o : Op} (hdecide : ∀ request approvalID now,
    o ≠ .tx (.decide request approvalID now)) (env : Environment) (s : Store) :
    (perform o env s).2 .approvals = s .approvals := by
  obtain heq | ⟨t, a, rfl, hbody⟩ := perform_cases o env s
  · rw [heq]
  · cases t with
    | decide request approvalID now => exact absurd rfl (hdecide request approvalID now)
    | _ => exact body_keeps hbody (by simp [Transaction.writes])

theorem perform_decide (request : ApprovalDecisionRequest) (approvalID : Bytes) (now : Time)
    (env : Environment) (s : Store) :
    (perform (.tx (.decide request approvalID now)) env s).2 = s ∨ ∃ result,
      DecisionEffect s (perform (.tx (.decide request approvalID now)) env s).2 request
        approvalID now
        result := by
  obtain heq | ⟨result, hbody⟩ :=
    (Transaction.decide request approvalID now).run_state env.fault env.audit s
  · exact .inl heq
  · exact .inr ⟨result, decideApproval_ok hbody⟩

section Runs

variable {s : Store} {actions : List (Action system)}

theorem agreed_empty (hjournal : s .commandJournal = ∅) (happrovals : s .approvals = ∅) :
    Agreed s where
  indexed _ _ h := by
    rw [happrovals] at h
    cases h
  documents _ _ h := by
    rw [happrovals] at h
    cases h
  awaiting _ _ _ h := by
    rw [recordAt, hjournal] at h
    cases h

theorem undecided_of_event {e : Event interface} (he : e ∈ (run s actions).log)
    (hdecide : ∀ request approvalID now, e.op ≠ Op.tx (.decide request approvalID now)) :
    Undecided (Op.intake e.op) where
  approval id hid := by
    obtain ⟨request, now, hop⟩ := intake_approval hid
    exact hdecide request id now hop
  record r hr hphase := by
    obtain ⟨c, request, commandID, now, decision, -, -, hprepared, -⟩ :=
      prepared_of_persist he (intake_record hr)
    exact approvalID_of_awaiting hprepared hphase

theorem agreed_of_run (hjournal : s .commandJournal = ∅) (happrovals : s .approvals = ∅)
    (hids : ValidIDs s actions) : Agreed (run s actions).state := by
  refine (invariant_of_events (fun t => Clean t ∧ Agreed t)
    ⟨clean_empty hjournal, agreed_empty hjournal happrovals⟩ actions ?_ ?_).1.2
  · rintro e he ⟨hclean, hagreed⟩
    have heffect := perform_effect e.op e.answer e.before
    refine ⟨hclean.effect heffect, ?_⟩
    by_cases hdecide : ∃ request approvalID now, e.op = Op.tx (.decide request approvalID now)
    · obtain ⟨request, approvalID, now, hop⟩ := hdecide
      obtain ⟨x, hx, hgenerated⟩ := generated_of_decide he hop
      have hid := hids x hx approvalID hgenerated
      obtain ⟨⟨o, env, before⟩, thread⟩ := e
      subst hop
      rcases perform_decide request approvalID now env before with heq | ⟨result, hdecision⟩
      · change Agreed (perform _ env before).2
        rw [heq]
        exact hagreed
      · exact hagreed.decision hclean hid hdecision
    · have hne : ∀ request approvalID now, e.op ≠ Op.tx (.decide request approvalID now) :=
        fun request approvalID now hop => hdecide ⟨request, approvalID, now, hop⟩
      exact hagreed.effect hclean heffect (undecided_of_event he hne) (perform_approvals hne _ _)
  · rintro m t ⟨hclean, hagreed⟩
    have heffect := move_effect .nothing m t
    exact ⟨hclean.effect heffect,
      hagreed.effect hclean heffect undecided_nothing (move_owned m t rfl)⟩

theorem approvalsKept_of_perform (o : Op) (env : Environment) (s : Store) :
    ApprovalsKept s (perform o env s).2 := by
  by_cases hdecide : ∃ request approvalID now, o = Op.tx (.decide request approvalID now)
  · obtain ⟨request, approvalID, now, rfl⟩ := hdecide
    rcases perform_decide request approvalID now env s with heq | ⟨result, hdecision⟩
    · rw [heq]
      exact .of_eq rfl
    · exact hdecision.approvals
  · exact .of_eq (perform_approvals (fun request approvalID now hop =>
      hdecide ⟨request, approvalID, now, hop⟩) env s)

theorem approvalsKept_of_append (s : Store) (actions rest : List (Action system)) :
    ApprovalsKept (run s actions).state (run s (actions ++ rest)).state :=
  related_of_append ApprovalsKept.refl ApprovalsKept.trans approvalsKept_of_perform
    (fun m s => .of_eq (move_owned m s rfl)) s actions rest

theorem attempted_of_run (s : Store) (actions : List (Action system))
    (hfaults : ∀ e ∈ (run s actions).log, ∀ fault, (e.answer : Environment).fault = some fault →
      answered fault = false) {thread : Nat} {request : ApprovalDecisionRequest}
    {result : Except Error ApprovalDecisionResult}
    (hthread : (run s actions).threads[thread]? =
      some (.decide request, some (.pure (.decided result)))) :
    Attempted (history thread (run s actions).log) result := by
  have hguaranteed : Guaranteed (S := system) (fun _ _ => True)
      (fun call h out => ∀ request result, call = .decide request → out = .decided result →
        UnansweredFaults h → Attempted h result) (run s actions) := by
    refine sat_of_run s actions fun call _ => ?_
    cases call with
    | decide request =>
      refine .bind (sat_attempted request) fun h result hresult => ?_
      intro request' result' _ hout
      cases hout
      exact hresult
    | _ => exact (Prog.sat_true _ _).mono fun h out _ request result hcall => by cases hcall
  refine hguaranteed.threads thread _ _ hthread request result rfl rfl fun c hc e he => ?_
  obtain ⟨x, hx, rfl, -⟩ := mem_of_mem_history hc
  exact hfaults x hx e he

def decisionFor (s : Store) (commandID : Bytes) : Option Approval :=
  (s .approvals)[approvalCommandKey commandID]?.bind (approvalAt s)

theorem ApprovalsKept.decisionFor {s s' : Store} (h : ApprovalsKept s s') {commandID : Bytes}
    {approval : Approval} (hstored : Recovery.decisionFor s commandID = some approval) :
    Recovery.decisionFor s' commandID = some approval := by
  obtain ⟨approvalID, hindex, happroval⟩ := Option.bind_eq_some_iff.mp hstored
  rw [Recovery.decisionFor, h _ _ hindex]
  exact h.approvalAt happroval

/-- In every run from an empty store with valid command and approval IDs and no command ID given
twice: a command has at most one approval; index, approval and the command's one record name each
other; a record that waits with an approval ID has its grant; a command once denied stays denied;
and every finished call to `Decide` audits as its result says. -/
theorem one_decision_per_command (s : Store) (actions : List (Action system))
    (hjournal : s .commandJournal = ∅) (happrovals : s .approvals = ∅) (hids : ValidIDs s actions)
    (hdistinct : DistinctIDs s actions)
    (hfaults : ∀ e ∈ (run s actions).log, ∀ fault, (e.answer : Environment).fault = some fault →
      answered fault = false) :
    (∀ id document, ((run s actions).state .approvals)[approvalRecordKey id]? = some document →
      ∃ approval, approvalAt (run s actions).state id = some approval ∧
        ((run s actions).state .approvals)[approvalCommandKey approval.commandID]? = some id) ∧
    (∀ id id' a b, approvalAt (run s actions).state id = some a →
      approvalAt (run s actions).state id' = some b → a.commandID = b.commandID → id = id') ∧
    (∀ commandID approvalID,
      ((run s actions).state .approvals)[approvalCommandKey commandID]? = some approvalID →
      ∃ approval key r, isRecordKey key = true ∧ recordAt (run s actions).state key = some r ∧
        Carries (run s actions).state commandID approvalID approval r ∧
        ∀ key' r', isRecordKey key' = true → recordAt (run s actions).state key' = some r' →
          r'.command.commandID = commandID → key' = key) ∧
    (∀ key r, isRecordKey key = true → recordAt (run s actions).state key = some r →
      r.phase = .awaitingApproval → r.command.approvalID ≠ [] →
      ∃ approval, decisionFor (run s actions).state r.command.commandID = some approval ∧
        approval.approvalID = r.command.approvalID ∧ approval.decision = .granted) ∧
    (∀ before rest, actions = before ++ rest → ∀ commandID approval,
      decisionFor (run s before).state commandID = some approval → approval.decision = .denied →
      decisionFor (run s actions).state commandID = some approval ∧
      ∃ key r, isRecordKey key = true ∧ recordAt (run s actions).state key = some r ∧
        r.command.commandID = commandID ∧ r.command.state = .denied ∧
        ∀ key' r', isRecordKey key' = true → recordAt (run s actions).state key' = some r' →
          r'.command.commandID = commandID → key' = key) ∧
    ∀ thread request result, (run s actions).threads[thread]? =
        some (Call.decide request, some (.pure (.decided result))) →
      Attempted (history thread (run s actions).log) result := by
  have hagreed := agreed_of_run hjournal happrovals hids
  have hdocument : ∀ id a, approvalAt (run s actions).state id = some a →
      ((run s actions).state .approvals)[approvalCommandKey a.commandID]? = some id := by
    intro id a ha
    obtain ⟨document, hdocument, hcontent⟩ := Option.bind_eq_some_iff.mp ha
    obtain ⟨approval, happroval, hindex⟩ := hagreed.documents id document hdocument
    obtain rfl := Option.some.inj (hcontent.symm.trans happroval)
    exact hindex
  have hunique : ∀ {commandID key r}, isRecordKey key = true →
      recordAt (run s actions).state key = some r → r.command.commandID = commandID →
      ∀ key' r', isRecordKey key' = true → recordAt (run s actions).state key' = some r' →
        r'.command.commandID = commandID → key' = key := by
    intro commandID key r hkey hr hid key' r' hkey' hr' hid'
    exact key_of_commandID hjournal hids hdistinct hkey' hkey hr' hr (hid'.trans hid.symm)
  refine ⟨?_, ?_, ?_, ?_, ?_, fun thread request result => attempted_of_run s actions hfaults⟩
  · intro id document hstored
    obtain ⟨approval, hcontent, hindex⟩ := hagreed.documents id document hstored
    exact ⟨approval, by rw [approvalAt, hstored]; exact hcontent, hindex⟩
  · intro id id' a b ha hb heq
    have hindex := hdocument id a ha
    rw [heq] at hindex
    exact Option.some.inj (hindex.symm.trans (hdocument id' b hb))
  · intro commandID approvalID hindex
    obtain ⟨approval, key, r, hkey, hr, hcarries⟩ := hagreed.indexed commandID approvalID hindex
    exact ⟨approval, key, r, hkey, hr, hcarries, hunique hkey hr hcarries.record.1⟩
  · intro key r hkey hr hphase happroval
    obtain ⟨approval, hindex, hstored, hgranted⟩ := hagreed.awaiting key r hkey hr hphase happroval
    obtain ⟨approval', _, _, -, -, hcarries⟩ := hagreed.indexed _ _ hindex
    obtain rfl := Option.some.inj (hstored.symm.trans hcarries.stored)
    refine ⟨approval, ?_, hcarries.names.2.1, hgranted⟩
    rw [decisionFor, hindex]
    exact hstored
  · rintro before rest rfl commandID approval hstored hdenied
    have hlater := (approvalsKept_of_append s before rest).decisionFor hstored
    obtain ⟨approvalID, hindex, happroval⟩ := Option.bind_eq_some_iff.mp hlater
    obtain ⟨approval', key, r, hkey, hr, hcarries⟩ := hagreed.indexed commandID approvalID hindex
    obtain rfl := Option.some.inj (happroval.symm.trans hcarries.stored)
    refine ⟨hlater, key, r, hkey, hr, hcarries.record.1, ?_, hunique hkey hr hcarries.record.1⟩
    rcases hcarries.decision with hgranted | ⟨-, -, hstate⟩
    · rw [hgranted] at hdenied
      cases hdenied
    · exact hstate

end Runs

/-! ## A denied command -/

def sampleDecision (decision : ApprovalDecision) : ApprovalDecisionRequest where
  commandID := lit "i"
  decision := decision
  actorIdentity := lit "o"
  requestID := lit "q"
  reasonCode := lit "x"
  expiresAt := 50

/-- A submission that has to wait for approval, and a decision about it. -/
def decidedRun (decision : ApprovalDecision) : List (Action system) :=
  [.spawn (.submit ⟨.withApprovals, false⟩ (highRiskRequest (lit "k"))),
    .spawn (.decide (sampleDecision decision))] ++
    List.replicate 3 (.step 0 fun _ => sampleEnvironment 1 (lit "i") true) ++
    List.replicate 3 (.step 1 fun _ =>
      { sampleEnvironment 2 (lit "a") true with audit := ⟨.ok (lit "e"), 2⟩ })

theorem denied_command_denied :
    ∃ approval, decisionFor (run Store.empty (decidedRun .denied)).state (lit "i") = some approval ∧
      approval.decision = .denied ∧
      ∃ key r, recordAt (run Store.empty (decidedRun .denied)).state key = some r ∧
        r.command.commandID = lit "i" ∧ r.command.state = .denied := by
  have hdecision : ((decisionFor (run Store.empty (decidedRun .denied)).state (lit "i")).map
      Approval.decision) = some .denied := by decide +kernel
  obtain ⟨approval, happroval, hdenied⟩ := Option.map_eq_some_iff.mp hdecision
  have hfaults : ∀ e ∈ (run Store.empty (decidedRun .denied)).log, ∀ fault,
      (e.answer : Environment).fault = some fault → answered fault = false := by
    have hnone : ((run Store.empty (decidedRun .denied)).log.all fun e =>
      ((e.answer : Environment).fault).isNone) = true := by decide +kernel
    intro e he fault hfault
    have h := List.all_eq_true.mp hnone e he
    rw [hfault] at h
    cases h
  obtain ⟨-, -, -, -, hforever, -⟩ := one_decision_per_command Store.empty (decidedRun .denied) rfl
    rfl (validIDs_of_all (by decide +kernel)) (distinctIDs_of_nodup (by decide +kernel)) hfaults
  obtain ⟨-, key, r, -, hr, hcommandID, hstate, -⟩ :=
    hforever (decidedRun .denied) [] (by rw [List.append_nil]) (lit "i") approval happroval hdenied
  exact ⟨approval, happroval, hdenied, key, r, hr, hcommandID, hstate⟩

end PulseAgent.Recovery
