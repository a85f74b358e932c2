import PulseAgent.Go.JsonSize
import PulseAgent.Recovery.Coordinator
import PulseAgent.Recovery.Readback

/-!
# Which records the journal can read

The reader accepts at most `maxJournalDocumentBytes` and gets back strings in which every invalid
UTF-8 sequence is replaced; `putRecord` checks neither.
-/

namespace PulseAgent.Recovery

open Go Go.Json Contract

section Reading

variable {s s' : Store} {key document : Bytes} {r r' : JournalRecord}

theorem loadRecord_ok : loadRecord key s = .ok (some r, s') ↔
    key ≠ [] ∧ Loads s key r ∧ s' = s := by
  rw [← bind_pure (loadRecord key), bind_loadRecord_ok]
  refine and_congr_right fun _ => ?_
  constructor
  · rintro (⟨-, h⟩ | ⟨x, hx, h⟩)
    · cases h
    · cases h
      exact ⟨hx, rfl⟩
  · rintro ⟨hr, rfl⟩
    exact .inr ⟨r, hr, rfl⟩

theorem Written.checkedRecord (hwritten : Written key r document)
    (hsize : document.length ≤ maxJournalDocumentBytes)
    (hvalid : validateRecord (JournalRecord.codec.norm r) = .ok ())
    (hkey : recordKey (JournalRecord.codec.norm r).command = key) :
    checkedRecord key document = .ok (JournalRecord.codec.norm r) := by
  have hversion : Utf8.toValidUTF8 r.schemaVersion = schemaVersionV1 := by
    rw [(validateRecord_ok.mp hwritten.valid).1]
    rfl
  have hdecode := decode_marshal journalDocument
    ⟨maxJournalDocumentBytes, schemaVersionV1, validateRecord⟩ hwritten.marshal
    ⟨by decide, by decide +kernel⟩ (Int.ofNat_le.mpr hsize) hversion
  change decode JournalRecord.codec _ document = Except.map _ (validateRecord _) at hdecode
  change _ = Except.map _ (validateRecord (JournalRecord.codec.norm r)) at hdecode
  unfold Recovery.checkedRecord decodeRecord
  rw [hdecode, hvalid]
  simp only [Except.map]
  exact if_pos hkey

theorem Written.loads_iff (hwritten : Written key r document)
    (hdocument : (s .commandJournal)[key]? = some document) :
    Loads s key r ↔
      JournalRecord.codec.norm r = r ∧ document.length ≤ maxJournalDocumentBytes := by
  constructor
  · rintro ⟨found, hfound, hchecked⟩
    obtain rfl := Option.some.inj (hdocument.symm.trans hfound)
    obtain ⟨hcontent, -⟩ := checkedRecord_ok hchecked
    rw [hwritten.content_eq] at hcontent
    refine ⟨Option.some.inj hcontent, ?_⟩
    unfold Recovery.checkedRecord decodeRecord at hchecked
    cases hdecode : decode JournalRecord.codec
        ⟨maxJournalDocumentBytes, schemaVersionV1, validateRecord⟩ document with
    | error e =>
      rw [hdecode] at hchecked
      cases hchecked
    | ok decoded => exact Int.ofNat_le.mp (content_of_decode hdecode).2.2
  · rintro ⟨hnorm, hsize⟩
    have hchecked := hwritten.checkedRecord hsize (by rw [hnorm, hwritten.valid])
      (by rw [hnorm, hwritten.key_eq])
    rw [hnorm] at hchecked
    exact ⟨document, hdocument, hchecked⟩

end Reading

/-! ## Valid text -/

section Text

variable {c : RecoveryCommand} {r : JournalRecord}

def RecoveryCommand.texts (c : RecoveryCommand) : List Bytes :=
  [c.commandID, c.incidentID, c.runbookID, c.runbookDigest, c.targetID, c.approvalID,
    c.idempotencyKey]

theorem norm_riskTier {risk : RiskTier} (h : validRiskTier risk = true) :
    RiskTier.codec.norm risk = risk := by
  simp only [validRiskTier, Bool.or_eq_true, decide_eq_true_eq] at h
  rcases h with (rfl | rfl) | rfl <;> rfl

theorem norm_command_iff (hversion : c.schemaVersion = schemaVersionV1)
    (hrisk : validRiskTier c.riskTier = true)
    (hstate : RecoveryCommandState.codec.norm c.state = c.state) :
    RecoveryCommand.codec.norm c = c ↔
      ∀ text ∈ RecoveryCommand.texts c, Utf8.validString text = true := by
  have hnorm : RecoveryCommand.codec.norm c =
      { c with
        commandID := Utf8.toValidUTF8 c.commandID
        incidentID := Utf8.toValidUTF8 c.incidentID
        runbookID := Utf8.toValidUTF8 c.runbookID
        runbookDigest := Utf8.toValidUTF8 c.runbookDigest
        targetID := Utf8.toValidUTF8 c.targetID
        approvalID := Utf8.toValidUTF8 c.approvalID
        idempotencyKey := Utf8.toValidUTF8 c.idempotencyKey } := by
    change RecoveryCommand.mk (Utf8.toValidUTF8 c.schemaVersion) _ _ _ _ _ _
      (RiskTier.codec.norm c.riskTier) _ _ _ _ (RecoveryCommandState.codec.norm c.state) = _
    rw [hversion, norm_riskTier hrisk, hstate]
    rfl
  rw [hnorm]
  obtain ⟨_, _, _, _, _, _, _, _, _, _, _, _, _⟩ := c
  simp only [RecoveryCommand.mk.injEq, Utf8.toValidUTF8_eq_self_iff, RecoveryCommand.texts,
    List.forall_mem_cons, true_and, and_true]
  simp

theorem norm_action_of_target {action : TypedAction} {target : ServiceTarget}
    (haction : validAction action target.selector = true)
    (htarget : ServiceTarget.codec.norm target = target) :
    TypedAction.codec.norm action = action := by
  have hselector : Utf8.toValidUTF8 target.selector = target.selector :=
    congrArg ServiceTarget.selector htarget
  simp only [validAction, Bool.and_eq_true, Bool.or_eq_true, decide_eq_true_eq] at haction
  obtain ⟨⟨⟨heq, -⟩, -⟩, htype⟩ := haction
  obtain ⟨actionType, selector, stopTimeout, cooldown⟩ := action
  change TypedAction.mk _ (Utf8.toValidUTF8 selector) _ _ = _
  simp only at heq htype
  subst heq
  rw [hselector]
  rcases htype with rfl | rfl <;> rfl

theorem validToken_length {value : Bytes} {limit : Nat} (h : validToken value limit = true) :
    value.length ≤ limit := by
  simp only [validToken, Bool.and_eq_true, decide_eq_true_eq] at h
  exact h.1.1.2

theorem validCommand_ok (h : validCommand c = true) :
    c.schemaVersion = schemaVersionV1 ∧ validRiskTier c.riskTier = true ∧
      c.targetID.length ≤ maxCommandIDLength ∧ c.approvalID.length ≤ maxCommandIDLength := by
  simp only [validCommand, Bool.and_eq_true, Bool.or_eq_true, decide_eq_true_eq] at h
  obtain ⟨⟨⟨⟨⟨⟨⟨⟨hvalidate, -⟩, -⟩, -⟩, -⟩, htarget⟩, -⟩, happroval⟩, hrisk⟩ := h
  refine ⟨?_, hrisk, validToken_length htarget, ?_⟩
  · obtain ⟨_, hok⟩ := exists_of_isOk hvalidate
    unfold RecoveryCommand.validate validateVersion at hok
    by_contra hne
    rw [if_neg hne] at hok
    cases hok
  · rcases happroval with hempty | htoken
    · rw [hempty]
      exact Nat.zero_le _
    · exact validToken_length htoken

theorem norm_record_iff (hvalid : validateRecord r = .ok ()) (hnone : r.reconciliation = none) :
    JournalRecord.codec.norm r = r ↔
      (∀ text ∈ RecoveryCommand.texts r.command, Utf8.validString text = true) ∧
        ServiceTarget.codec.norm r.target = r.target := by
  obtain ⟨hversion, hcommand, -, haction, hphase, -⟩ := validateRecord_ok.mp hvalid
  obtain ⟨hp, hs⟩ := norm_of_validRecordPhase hphase
  obtain ⟨hcommandVersion, hrisk, -⟩ := validCommand_ok hcommand
  rw [← norm_command_iff hcommandVersion hrisk hs]
  constructor
  · intro h
    exact ⟨congrArg JournalRecord.command h, congrArg JournalRecord.target h⟩
  · rintro ⟨hc, ht⟩
    obtain ⟨version, command, target, action, phase, reconciliation⟩ := r
    change JournalRecord.mk (Utf8.toValidUTF8 version) (RecoveryCommand.codec.norm command)
      (ServiceTarget.codec.norm target) (TypedAction.codec.norm action)
      (JournalPhase.codec.norm phase) (Option.map _ reconciliation) = _
    simp only at hversion hc ht hp hnone haction
    subst hversion hnone
    rw [hc, ht, hp, norm_action_of_target haction ht]
    rfl

end Text

/-! ## Requests -/

/-- Every string that a request brings into its record is valid UTF-8. -/
def Request.validText (request : Request) : Prop :=
  (∀ text ∈ [request.incidentID, request.policyInput.runbookID,
      request.policyInput.runbookDigest, request.idempotencyKey,
      (request.policyInput.approval.getD {}).approvalID], Utf8.validString text = true) ∧
    ServiceTarget.codec.norm request.target = request.target

theorem norm_target (target : ServiceTarget) : ServiceTarget.codec.norm target =
    { target with
      schemaVersion := Utf8.toValidUTF8 target.schemaVersion
      targetID := Utf8.toValidUTF8 target.targetID
      adapterType := Utf8.toValidUTF8 target.adapterType
      selector := Utf8.toValidUTF8 target.selector
      probeRules := target.probeRules.map (List.map ProbeRule.codec.norm)
      evidencePolicy := EvidencePolicy.codec.norm target.evidencePolicy } := rfl

theorem norm_cloneTarget_iff (target : ServiceTarget) :
    ServiceTarget.codec.norm (cloneTarget target) = cloneTarget target ↔
      ServiceTarget.codec.norm target = target := by
  rw [norm_target, norm_target]
  obtain ⟨version, targetID, adapterType, selector, rules, evidence, stabilization,
    enabled⟩ := target
  match rules with
  | none => rfl
  | some [] => simp [cloneTarget, elems]
  | some (rule :: rules) => rfl

theorem prepareRecord_some {request : Request} {commandID : Bytes} {now : Time}
    {decision : Policy.Decision} {record : JournalRecord}
    (h : Coordinator.prepareRecord request commandID now = .ok (decision, some record)) :
    ∃ registered action, registeredAction registered request.policyInput.actionIndex = some action ∧
      record = Coordinator.pendingRecord request commandID now registered action decision := by
  unfold Coordinator.prepareRecord at h
  dsimp only at h
  split at h
  case isTrue => cases h
  case isFalse =>
    split at h
    case h_1 => cases h
    case h_2 registered _ =>
      split at h
      case h_1 => cases h
      case h_2 action haction =>
        cases h
        exact ⟨registered, action, haction, rfl⟩

theorem norm_pendingRecord_iff {request : Request} {commandID : Bytes} {now : Time}
    {decision : Policy.Decision} {record : JournalRecord}
    (h : Coordinator.prepareRecord request commandID now = .ok (decision, some record))
    (hvalid : validateRecord record = .ok ()) :
    JournalRecord.codec.norm record = record ↔
      Utf8.validString commandID = true ∧ request.validText := by
  obtain ⟨registered, action, -, rfl⟩ := prepareRecord_some h
  rw [norm_record_iff hvalid rfl]
  change _ ∧ ServiceTarget.codec.norm (cloneTarget request.target) = cloneTarget request.target ↔ _
  rw [norm_cloneTarget_iff]
  have happroval : (Coordinator.pendingRecord request commandID now registered action
      decision).command.approvalID = (request.policyInput.approval.getD {}).approvalID := by
    cases hcase : request.policyInput.approval with
    | none => simp only [Coordinator.pendingRecord, hcase, Option.getD_none]
    | some approval => simp only [Coordinator.pendingRecord, hcase, Option.getD_some]
  have htarget : ServiceTarget.codec.norm request.target = request.target →
      Utf8.validString request.target.targetID = true := fun h =>
    (Utf8.toValidUTF8_eq_self_iff _).mp (congrArg ServiceTarget.targetID h)
  simp only [RecoveryCommand.texts, happroval, Request.validText, List.forall_mem_cons]
  constructor
  · rintro ⟨⟨h1, h2, h3, h4, -, h6, h7, hnil⟩, ht⟩
    exact ⟨h1, ⟨h2, h3, h4, h7, h6, hnil⟩, ht⟩
  · rintro ⟨h1, ⟨h2, h3, h4, h7, h6, hnil⟩, ht⟩
    exact ⟨⟨h1, h2, h3, h4, htarget ht, h6, h7, hnil⟩, ht⟩

/-! ## Sizes -/

section Sizes

variable {r : JournalRecord}

theorem textSize_state {state : RecoveryCommandState} {phase : JournalPhase}
    (h : validRecordPhase phase state = true) :
    Member.textSize (lit "state") (RecoveryCommandState.codec.marshal state) ≤ 32 ∧
      Member.textSize (lit "phase") (JournalPhase.codec.marshal phase) ≤ 32 := by
  cases phase with
  | other => cases h
  | completed =>
    simp only [validRecordPhase, Bool.or_eq_true, decide_eq_true_eq] at h
    rcases h with ((rfl | rfl) | rfl) | rfl <;> decide +kernel
  | verifyAndNotify =>
    simp only [validRecordPhase, Bool.or_eq_true, decide_eq_true_eq] at h
    rcases h with (rfl | rfl) | rfl <;> decide +kernel
  | _ =>
    simp only [validRecordPhase, decide_eq_true_eq] at h
    subst h
    decide +kernel

/-- The command without what its life changes. -/
def commandBase (c : RecoveryCommand) : RecoveryCommand :=
  { c with state := .pending, approvalID := [] }

theorem command_length_le {c c0 : RecoveryCommand} {document document0 : Bytes}
    (hdocument : RecoveryCommand.codec.marshal c = some document)
    (hdocument0 : RecoveryCommand.codec.marshal c0 = some document0)
    (hbase : commandBase c = commandBase c0) (happroval : c.approvalID.length ≤ maxCommandIDLength)
    (hstate : Member.textSize (lit "state") (RecoveryCommandState.codec.marshal c.state) ≤ 32) :
    document.length ≤ document0.length + 1024 := by
  have hsmall : (RecoveryCommand.fields[8]).Small 800 c := by
    simp only [RecoveryCommand.fields, List.getElem_cons_succ, List.getElem_cons_zero]
    exact Member.small_omitEmpty (Member.small_string happroval (by decide +kernel))
  have hlength := (Member.marshal_struct_length hdocument).2
  have hlength0 := (Member.marshal_struct_length hdocument0).1
  have hmember := Member.size_le_of_small hsmall
  simp only [RecoveryCommand.fields, List.map_cons, List.map_nil, List.sum_cons, List.sum_nil,
    List.getElem_cons_succ, List.getElem_cons_zero, Member.size_of] at hlength hlength0 hmember
  simp only [commandBase, RecoveryCommand.mk.injEq, true_and, and_true] at hbase
  simp only [hbase] at hlength
  omega

theorem snapshot_length_le {x : Docker.Snapshot} {document : Bytes}
    (htarget : x.targetID.length ≤ maxCommandIDLength)
    (h : Docker.Snapshot.codec.marshal x = some document) : document.length ≤ 1024 := by
  have hlength := (Member.marshal_struct_length h).2
  have hid := Member.textSize_le (lit "TargetID")
    fun _ => Codec.string_marshal_length_le htarget
  have hrunning := Member.textSize_le (lit "Running") fun _ =>
    Codec.bool_marshal_length_le x.running
  have hhealthy := Member.textSize_le (lit "Healthy") fun _ =>
    Codec.bool_marshal_length_le x.healthy
  have hnames : (quote (lit "TargetID")).length + (quote (lit "Running")).length +
    (quote (lit "Healthy")).length ≤ 64 := by decide +kernel
  simp only [Docker.Snapshot.fields, List.map_cons, List.map_nil, List.sum_cons, List.sum_nil,
    Member.size_of] at hlength
  unfold maxCommandIDLength at hid
  omega

theorem reconciliation_length_le {x : Reconciliation} {document : Bytes}
    (htarget : x.snapshot.targetID.length ≤ maxCommandIDLength)
    (h : Reconciliation.codec.marshal x = some document) : document.length ≤ 2048 := by
  have hlength := (Member.marshal_struct_length h).2
  have hobserved := Member.textSize_le (lit "observed_at") fun _ =>
    Codec.time_marshal_length_le x.observedAt
  have hverified := Member.textSize_le (lit "verified") fun _ =>
    Codec.bool_marshal_length_le x.verified
  have hsnapshot := Member.textSize_le (lit "snapshot")
    fun _ => snapshot_length_le htarget
  have hnames : (quote (lit "observed_at")).length + (quote (lit "verified")).length +
    (quote (lit "snapshot")).length ≤ 64 := by decide +kernel
  simp only [Reconciliation.fields, List.map_cons, List.map_nil, List.sum_cons, List.sum_nil,
    Member.size_of] at hlength
  omega

/-- The part of a record that its life does not change. -/
def JournalRecord.base (r : JournalRecord) : JournalRecord :=
  { r with command := commandBase r.command, phase := .pending, reconciliation := none }

theorem Advance.base_eq {ids : Bytes → Prop} {r r' : JournalRecord} (h : Advance ids r r') :
    r'.base = r.base := by
  cases h <;> rfl

theorem snapshot_target_length {x : Reconciliation} (hvalid : validateRecord r = .ok ())
    (hx : r.reconciliation = some x) : x.snapshot.targetID.length ≤ maxCommandIDLength := by
  obtain ⟨-, hcommand, -, -, -, hreconciliation⟩ := validateRecord_ok.mp hvalid
  unfold validReconciliation at hreconciliation
  rw [hx] at hreconciliation
  split at hreconciliation
  case h_1 => cases hreconciliation
  case h_2 y _ hy =>
    obtain rfl := Option.some.inj hy
    simp only [Bool.and_eq_true, Bool.or_eq_true, Bool.not_eq_true',
      decide_eq_true_eq] at hreconciliation
    rcases hreconciliation.2 with hverified | hempty
    · rcases hreconciliation.1.2 with hunverified | heq
      · rw [hverified] at hunverified
        cases hunverified
      · rw [heq]
        exact (validCommand_ok hcommand).2.2.1
    · rw [hempty]
      exact Nat.zero_le _
  case h_3 => cases hreconciliation

theorem marshal_command {document : Bytes} (h : JournalRecord.codec.marshal r = some document) :
    ∃ text, RecoveryCommand.codec.marshal r.command = some text := by
  obtain ⟨v, hv, -⟩ := Option.map_eq_some_iff.mp h
  obtain ⟨ms, hms, -⟩ := Option.map_eq_some_iff.mp hv
  exact Member.marshal_member hms JournalRecord.command
    (List.mem_cons_of_mem _ List.mem_cons_self)

theorem record_length_le {r r0 : JournalRecord} {document document0 : Bytes}
    (hdocument : JournalRecord.codec.marshal r = some document)
    (hdocument0 : JournalRecord.codec.marshal r0 = some document0) (hbase : r.base = r0.base)
    (hvalid : validateRecord r = .ok ()) : document.length ≤ document0.length + 4096 := by
  obtain ⟨-, hcommand, -, -, hphase, hreconciliation⟩ := validateRecord_ok.mp hvalid
  obtain ⟨hstate, hphaseSize⟩ := textSize_state hphase
  have hlength := (Member.marshal_struct_length hdocument).2
  have hlength0 := (Member.marshal_struct_length hdocument0).1
  have hsmall : (JournalRecord.fields[5]).Small 2100 r := by
    simp only [JournalRecord.fields, List.getElem_cons_succ, List.getElem_cons_zero]
    refine Member.small_omitEmpty (Member.small_of (s := 2048) (fun v hv => ?_) (by decide +kernel))
    cases hcase : r.reconciliation with
    | none =>
      rw [hcase] at hv
      cases hv
      decide +kernel
    | some x =>
      rw [hcase] at hv
      exact reconciliation_length_le (snapshot_target_length hvalid hcase)
        (Option.map_eq_some_iff.mpr ⟨v, hv, rfl⟩)
  have hmember := Member.size_le_of_small hsmall
  have hcommandSize : Member.textSize (lit "command") (RecoveryCommand.codec.marshal r.command) ≤
      Member.textSize (lit "command") (RecoveryCommand.codec.marshal r0.command) + 1024 := by
    obtain ⟨text, htext⟩ := marshal_command hdocument
    obtain ⟨text0, htext0⟩ := marshal_command hdocument0
    have hle := command_length_le htext htext0 (congrArg JournalRecord.command hbase)
      (validCommand_ok hcommand).2.2.2 hstate
    rw [htext, htext0]
    simp only [Member.textSize]
    omega
  simp only [JournalRecord.fields, List.map_cons, List.map_nil, List.sum_cons, List.sum_nil,
    List.getElem_cons_succ, List.getElem_cons_zero, Member.size_of] at hlength hlength0 hmember
  simp only [JournalRecord.base, JournalRecord.mk.injEq, and_true] at hbase
  simp only [hbase] at hlength
  omega

end Sizes

end PulseAgent.Recovery
