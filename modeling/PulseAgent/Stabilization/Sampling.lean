import PulseAgent.Recovery.Reconcile
import PulseAgent.Stabilization.Final

/-!
# One sample after another

A call of `Verify` that finds its target healthy counts one sample. The command is completed by a
sample that is enough and comes at the deadline.
-/

namespace PulseAgent.Stabilization

open Go Go.Json Contract Concurrent
open Recovery (interface Environment Transaction exec_commit_bind exec_call_bind)

/-! ## Records of the verifier -/

/-- The record of the request's attempt, as the verifier wrote it. -/
structure Sampled (request : Request) (s : Store) (record : ResultRecord) : Prop where
  commandID : record.commandID = request.command.commandID
  attempt : record.attempt = request.attempt
  valid : validateRecord record = .ok ()
  stored : ∃ document, ResultRecord.codec.marshal record = some document ∧
    (s .stabilizationResults)[resultKey request.command.commandID request.attempt]? = some document

/-- What the store holds of the request's attempt. -/
def Held (request : Request) (s : Store) : Option ResultRecord → Prop
  | none => (s .stabilizationResults)[resultKey request.command.commandID request.attempt]? = none
  | some record => Sampled request s record

theorem resultKey_ne_nil (commandID : Bytes) (attempt : Int64) :
    resultKey commandID attempt ≠ [] := by
  have hhead : stabilizationKeyPrefix ≠ [] := by decide
  unfold resultKey
  simp [hhead]

section Records

variable {record : ResultRecord}

theorem validateRecord_ok : validateRecord record = .ok () ↔
    record.schemaVersion = schemaVersionV1 ∧ record.commandID ≠ [] ∧
      record.executionSucceeded = true ∧ 0 ≤ record.attempt ∧ record.startedAt.isZero = false ∧
      0 ≤ record.healthySamples ∧ record.healthySamples ≤ maxRecoverySamples ∧
      -1 ≤ record.nextAttempt ∧ validOutcome record = true := by
  unfold validateRecord
  split
  case isTrue h =>
    simp only [Bool.and_eq_true, decide_eq_true_eq, Bool.not_eq_true'] at h
    simp [h]
  case isFalse h =>
    simp only [Bool.and_eq_true, decide_eq_true_eq, Bool.not_eq_true'] at h
    simp only [reduceCtorEq, false_iff]
    tauto

/-- A record that is pending or succeeded. -/
def Plain (record : ResultRecord) : Prop :=
  (record.outcome = .pending ∨ record.outcome = .succeeded) ∧ record.failureReason = .none ∧
    record.retryReason = .unset ∧ record.nextAttempt = -1

theorem validOutcome_of_plain (h : Plain record) : validOutcome record = true := by
  obtain ⟨houtcome, hfailure, hretry, hnext⟩ := h
  unfold validOutcome
  rcases houtcome with houtcome | houtcome
  · simp [houtcome, hfailure, hretry, hnext]
  · simp [houtcome, hfailure, hretry, hnext]

theorem plain_of_validOutcome (h : validOutcome record = true)
    (houtcome : record.outcome = .pending ∨ record.outcome = .succeeded) : Plain record := by
  unfold validOutcome at h
  rcases houtcome with houtcome | houtcome
  · simp only [houtcome, Bool.and_eq_true, decide_eq_true_eq] at h
    exact ⟨.inl houtcome, h.1.1, h.1.2, h.2⟩
  · simp only [houtcome, Bool.and_eq_true, decide_eq_true_eq] at h
    exact ⟨.inr houtcome, h.1.1, h.1.2, h.2⟩

theorem norm_of_plain (hversion : record.schemaVersion = schemaVersionV1)
    (hid : Utf8.toValidUTF8 record.commandID = record.commandID) (h : Plain record) :
    ResultRecord.codec.norm record = record := by
  obtain ⟨houtcome, hfailure, hretry, -⟩ := h
  obtain ⟨schemaVersion, commandID, executed, attempt, startedAt, samples, outcome, failureReason,
    retryReason, nextAttempt⟩ := record
  dsimp only at hversion hid houtcome hfailure hretry
  subst hversion hfailure hretry
  change ResultRecord.mk _ (Utf8.toValidUTF8 commandID) _ _ _
    _ (Outcome.codec.norm outcome) _ _ _ = _
  rw [hid]
  rcases houtcome with rfl | rfl
  · rfl
  · rfl

theorem marshal_plain_iff (h : Plain record) :
    (∃ document, ResultRecord.codec.marshal record = some document) ↔
      ∃ text, record.startedAt.format = some text := by
  obtain ⟨-, hfailure, hretry, -⟩ := h
  constructor
  · rintro ⟨document, hdocument⟩
    obtain ⟨v, hv, -⟩ := Option.map_eq_some_iff.mp hdocument
    obtain ⟨ms, hms, -⟩ := Option.map_eq_some_iff.mp hv
    have hfield : Member.of (lit "started_at") .time ResultRecord.startedAt
        (fun x s => { s with startedAt := x }) ∈
          ResultRecord.fields := by simp [ResultRecord.fields]
    obtain ⟨text, htext⟩ := Member.marshal_member hms ResultRecord.startedAt hfield
    obtain ⟨w, hw, -⟩ := Option.map_eq_some_iff.mp htext
    obtain ⟨written, hwritten, -⟩ := Option.map_eq_some_iff.mp hw
    exact ⟨written, hwritten⟩
  · rintro ⟨text, htext⟩
    refine Codec.marshal_of_writes (Codec.writes_struct ?_)
    simp only [ResultRecord.fields, List.forall_mem_cons, List.not_mem_nil, false_imp_iff,
      implies_true, and_true]
    exact ⟨Member.writes_of ⟨_, rfl⟩, Member.writes_of ⟨_, rfl⟩, Member.writes_of ⟨_, rfl⟩,
      Member.writes_of ⟨_, rfl⟩, Member.writes_of (Codec.writes_time htext),
        Member.writes_of ⟨_, rfl⟩,
      Member.writes_of ⟨_, rfl⟩, Member.writes_omitEmpty ⟨_, rfl⟩, Member.writes_omitEmpty ⟨_, rfl⟩,
      Member.writes_of ⟨_, rfl⟩⟩

theorem length_of_plain {document : Bytes} (hversion : record.schemaVersion = schemaVersionV1)
    (hid : record.commandID.length ≤ Recovery.maxCommandIDLength) (h : Plain record)
    (hdocument : ResultRecord.codec.marshal record = some document) :
    document.length ≤ maxStabilizationDocSize := by
  obtain ⟨houtcome, hfailure, hretry, -⟩ := h
  obtain ⟨v, hv, rfl⟩ := Option.map_eq_some_iff.mp hdocument
  obtain ⟨ms, hms, rfl⟩ := Option.map_eq_some_iff.mp hv
  have hbool : ∀ v, Codec.bool.encode record.executionSucceeded = some v →
    (render v).length ≤ 5 := by
    intro v hv
    exact Codec.bool_marshal_length_le _ (congrArg (Option.map render) hv)
  have hsmall : ∀ f ∈ ResultRecord.fields, f.Small 1000 record := by
    simp only [ResultRecord.fields, List.forall_mem_cons, List.not_mem_nil, false_imp_iff,
      implies_true, and_true]
    refine ⟨Member.small_string (n := 2) (by rw [hversion]; decide) (by decide +kernel),
      Member.small_string hid (by decide +kernel), Member.small_of hbool (by decide +kernel),
      Member.small_int64 (by decide +kernel), Member.small_time (by decide +kernel),
      Member.small_int64 (by decide +kernel), Member.small_named (n := 16) ?_ (by decide +kernel),
      Member.small_omitEmpty (Member.small_named (n := 16) ?_ (by decide +kernel)),
      Member.small_omitEmpty (Member.small_named (n := 16) ?_ (by decide +kernel)),
      Member.small_int64 (by decide +kernel)⟩
    · rcases houtcome with h | h
      · rw [h]
        decide
      · rw [h]
        decide
    · rw [hfailure]
      decide
    · rw [hretry]
      decide
  exact le_trans (Member.render_length_le hms hsmall) (by decide)

end Records

/-! ## Loading and storing -/

section Store

variable {request : Request} {s : Store} {record : ResultRecord}

/-- A command ID the verifier's records carry through JSON and back. -/
structure ReadableID (commandID : Bytes) : Prop where
  clean : Utf8.toValidUTF8 commandID = commandID
  short : commandID.length ≤ Recovery.maxCommandIDLength

theorem Sampled.loadResult (h : Sampled request s record) (hplain : Plain record)
    (hid : ReadableID request.command.commandID) :
    loadResult request.command.commandID request.attempt s = .ok (some record, s) := by
  obtain ⟨document, hmarshal, hdocument⟩ := h.stored
  have hversion := (validateRecord_ok.mp h.valid).1
  have hclean : Utf8.toValidUTF8 record.commandID = record.commandID := by
    rw [h.commandID, hid.clean]
  have hshort : record.commandID.length ≤ Recovery.maxCommandIDLength := by
    rw [h.commandID]
    exact hid.short
  have hnorm := norm_of_plain hversion hclean hplain
  have hsize := length_of_plain hversion hshort hplain hmarshal
  have hdecode := decode_marshal ResultRecord.document
    ⟨maxStabilizationDocSize, schemaVersionV1, validateRecord⟩ hmarshal (by decide)
    (Int.ofNat_le.mpr hsize) (by
      change Utf8.toValidUTF8 record.schemaVersion = _
      rw [hversion]
      rfl)
  have hread : decode ResultRecord.codec ⟨maxStabilizationDocSize, schemaVersionV1, validateRecord⟩
      document = .ok record := by
    refine hdecode.trans ?_
    change (validateRecord (ResultRecord.codec.norm record)).map
      (fun _ => ResultRecord.codec.norm record) = _
    rw [hnorm, h.valid]
    rfl
  unfold Stabilization.loadResult
  refine Tx.bind_get_ok.mpr ⟨resultKey_ne_nil _ _, ?_⟩
  rw [hdocument]
  dsimp only
  rw [hread]
  rfl

theorem Held.loadResult {found : Option ResultRecord} (h : Held request s found)
    (hplain : ∀ record, found = some record → Plain record)
    (hid : ReadableID request.command.commandID) :
    Stabilization.loadResult request.command.commandID request.attempt s = .ok (found, s) := by
  cases found with
  | none =>
    unfold Stabilization.loadResult
    refine Tx.bind_get_ok.mpr ⟨resultKey_ne_nil _ _, ?_⟩
    rw [show (s .stabilizationResults)[resultKey request.command.commandID request.attempt]? = none
      from h]
    rfl
  | some record => exact Sampled.loadResult h (hplain record rfl) hid

def withResult (s : Store) (record : ResultRecord) (document : Bytes) : Store :=
  Function.update s .stabilizationResults ((s .stabilizationResults).insert
    (resultKey record.commandID record.attempt) document)

theorem sampled_withResult {document : Bytes} (hid : record.commandID = request.command.commandID)
    (hattempt : record.attempt = request.attempt) (hvalid : validateRecord record = .ok ())
    (hmarshal : ResultRecord.codec.marshal record = some document) :
    Sampled request (withResult s record document) record := by
  refine ⟨hid, hattempt, hvalid, document, hmarshal, ?_⟩
  rw [withResult, Function.update_self, hid, hattempt, Std.ExtTreeMap.getElem?_insert_self]

end Store

/-! ## One call -/

def reading (answers : Answers interface) : Time := (answers 0 Recovery.Op.clock : Environment).now

def Commits (answers : Answers interface) : Prop :=
  ∀ i (o : Recovery.Op), (answers i o : Environment).fault = none

/-- A call whose clock is set, whose probe finds the target healthy and within its rules, and whose
transactions commit. -/
structure Healthy (request : Request) (answers : Answers interface) : Prop where
  commits : Commits answers
  clock : (reading answers).isZero = false
  sample : ∃ metrics, (answers 2 (Recovery.Op.observe request.target) : Environment).sample =
      .ok ⟨true, metrics⟩ ∧ validSample ⟨true, metrics⟩ = true ∧
    metricsMeetRules metrics (elems request.target.probeRules) = true

theorem Commits.drop {answers : Answers interface} (h : Commits answers) (n : Nat) :
    Commits (answers.drop n) := fun i => h (i + n)

theorem Commits.run {answers : Answers interface} (h : Commits answers) {t : Transaction}
    {s s' : Store}
    {a : t.Out}
    (hbody : t.body (answers 0 (.tx t) : Environment).audit s = .ok (a, s')) :
    t.run (answers 0 (.tx t) : Environment).fault (answers 0 (.tx t) : Environment).audit s =
      (.ok a, s') := by
  rw [h 0 (.tx t)]
  simp only [Transaction.run, hbody]

theorem Commits.commit_exec {answers : Answers interface} (h : Commits answers) {t : Transaction}
    {s s' : Store} {a : t.Out}
    (hbody : t.body (answers 0 (.tx t) : Environment).audit s = .ok (a, s')) :
    (Recovery.commit t).exec answers s = ⟨.ok a, s', [⟨.tx t, answers 0 (.tx t), s⟩]⟩ := by
  have hexec : (Recovery.commit t).exec answers s = ⟨(t.run (answers 0 (.tx t) : Environment).fault
      (answers 0 (.tx t) : Environment).audit s).1, (t.run (answers 0 (.tx t) : Environment).fault
      (answers 0 (.tx t) : Environment).audit s).2, [⟨.tx t, answers 0 (.tx t), s⟩]⟩ := rfl
  rw [hexec, h.run hbody]

section Exec

variable {request : Request} {answers : Answers interface} {s : Store} {record : ResultRecord}

theorem now_exec (hclock : (reading answers).isZero = false) :
    now.exec answers s = ⟨.ok (reading answers), s, [⟨.clock, answers 0 .clock, s⟩]⟩ := by
  have hexec : now.exec answers s = ⟨if Time.isZero (reading answers) then .error errInvalidOptions
      else .ok (reading answers), s, [⟨.clock, answers 0 .clock, s⟩]⟩ := rfl
  rw [hexec, if_neg (by rw [hclock]; decide)]

theorem load_exec (hcommits : Commits answers) {found : Option ResultRecord}
    (hload : loadResult request.command.commandID request.attempt s = .ok (found, s))
    (hheld : Held request s found) :
    ∃ call, (load request.command.commandID request.attempt).exec answers s =
      ⟨.ok found, s, [call]⟩ := by
  rw [load, Prog.exec_bind, hcommits.commit_exec
    (t := .loadResult request.command.commandID request.attempt) hload]
  cases found with
  | none => exact ⟨_, rfl⟩
  | some record =>
    have hown : ¬(record.commandID ≠ request.command.commandID ∨
      record.attempt ≠ request.attempt) :=
      not_or.mpr ⟨not_not.mpr hheld.commandID, not_not.mpr hheld.attempt⟩
    dsimp only
    rw [if_neg hown]
    exact ⟨_, rfl⟩

theorem observe_exec {now deadline : Time} {metrics : Std.ExtTreeMap Bytes Float64}
    (hsample : (answers 0 (Recovery.Op.observe request.target) : Environment).sample =
      .ok ⟨true, metrics⟩) (hvalid : validSample ⟨true, metrics⟩ = true)
    (hrules : metricsMeetRules metrics (elems request.target.probeRules) = true) :
    ((observe request record now deadline).exec answers s).value =
        ((succeedSample request record now deadline).exec (answers.drop 1) s).value ∧
      ((observe request record now deadline).exec answers s).state =
        ((succeedSample request record now deadline).exec (answers.drop 1) s).state := by
  have hperform : Recovery.perform (.observe request.target)
      (answers 0 (Recovery.Op.observe request.target)) s = (.ok ⟨true, metrics⟩, s) :=
    Prod.ext hsample rfl
  rw [observe, exec_call_bind, hperform]
  dsimp only
  rw [if_neg (by rw [hvalid]; decide), if_neg (by decide), if_neg (by rw [hrules]; decide)]
  exact ⟨rfl, rfl⟩

theorem verify_loaded (hrequest : validateRequest request = .ok ()) (hcommits : Commits answers)
    (hclock : (reading answers).isZero = false) {found : Option ResultRecord}
    (hload : loadResult request.command.commandID request.attempt s = .ok (found, s))
    (hheld : Held request s found)
    (hrecord : found.getD (newRecord request (reading answers)) = record) :
    ∃ p, ((verify request).exec answers s).value = (Prog.exec p (answers.drop 2) s).value ∧
      ((verify request).exec answers s).state = (Prog.exec p (answers.drop 2) s).state ∧
      p = if record.outcome ≠ .pending then pure (record.result, none)
        else if record.startedAt.add request.policy.window < reading answers then
          fail request record (reading answers) .timeout
        else observe request record (reading answers)
          (record.startedAt.add request.policy.window) := by
  obtain ⟨call, hloadExec⟩ := load_exec (hcommits.drop 1) hload hheld
  refine ⟨_, ?_, ?_, rfl⟩
  · unfold verify
    rw [hrequest]
    dsimp only
    rw [(Prog.exec_bind_of (now_exec hclock)).1]
    dsimp only [List.length_singleton]
    rw [(Prog.exec_bind_of hloadExec).1]
    dsimp only [List.length_singleton]
    rw [hrecord]
    rfl
  · unfold verify
    rw [hrequest]
    dsimp only
    rw [(Prog.exec_bind_of (now_exec hclock)).2]
    dsimp only [List.length_singleton]
    rw [(Prog.exec_bind_of hloadExec).2]
    dsimp only [List.length_singleton]
    rw [hrecord]
    rfl

theorem verify_exec (hrequest : validateRequest request = .ok ())
    (hhealthy : Healthy request answers)
    {found : Option ResultRecord}
    (hload : loadResult request.command.commandID request.attempt s = .ok (found, s))
    (hheld : Held request s found)
    (hrecord : found.getD (newRecord request (reading answers)) = record)
    (hpending : record.outcome = .pending)
    (htime : ¬record.startedAt.add request.policy.window < reading answers) :
    ((verify request).exec answers s).value =
        ((succeedSample request record (reading answers)
          (record.startedAt.add request.policy.window)).exec (answers.drop 3) s).value ∧
      ((verify request).exec answers s).state =
        ((succeedSample request record (reading answers)
          (record.startedAt.add request.policy.window)).exec (answers.drop 3) s).state := by
  obtain ⟨metrics, hsample, hvalid, hrules⟩ := hhealthy.sample
  obtain ⟨p, hvalue, hstate, hp⟩ :=
    verify_loaded hrequest hhealthy.commits hhealthy.clock hload hheld hrecord
  rw [if_neg (not_not.mpr hpending), if_neg htime] at hp
  rw [hvalue, hstate, hp]
  exact @observe_exec request (answers.drop 2) s record (reading answers)
    (record.startedAt.add request.policy.window) metrics hsample hvalid hrules

theorem verify_exec_final (hrequest : validateRequest request = .ok ())
    (hhealthy : Healthy request answers) (hsampled : Sampled request s record)
    (hload : loadResult request.command.commandID request.attempt s = .ok (some record, s))
    (hfinal : record.outcome ≠ .pending) :
    ((verify request).exec answers s).value = (record.result, none) ∧
      ((verify request).exec answers s).state = s := by
  obtain ⟨p, hvalue, hstate, hp⟩ :=
    verify_loaded hrequest hhealthy.commits hhealthy.clock hload hsampled rfl
  rw [Option.getD_some, if_pos hfinal] at hp
  rw [hvalue, hstate, hp]
  exact ⟨rfl, rfl⟩

theorem persist_exec (hcommits : Commits answers) (hvalid : validateRecord record = .ok ())
    {document : Bytes} (hmarshal : ResultRecord.codec.marshal record = some document) :
    ∃ call, (persist record).exec answers s = ⟨.ok (), withResult s record document, [call]⟩ := by
  have hencode : encode ResultRecord.codec "encode stabilization result: " record = .ok document :=
    encode_ok.mpr hmarshal
  have hput : putResult record.commandID record.attempt document s =
      .ok ((), withResult s record document) :=
    Tx.put_ok.mpr ⟨by decide, resultKey_ne_nil _ _, rfl⟩
  rw [persist, hvalid, hencode]
  exact ⟨_, hcommits.commit_exec (t := .putResult record.commandID record.attempt document) hput⟩

theorem persist_exec_invalid (h : validateRecord record ≠ .ok ()) :
    (persist record).exec answers s = ⟨.error errCorruptResult, s, []⟩ := by
  cases hvalid : validateRecord record with
  | error e =>
    rw [persist, hvalid]
    rfl
  | ok _ => exact absurd hvalid h

theorem persist_exec_unwritable (h : ResultRecord.codec.marshal record = none) :
    ∃ e, (persist record).exec answers s = ⟨.error e, s, []⟩ := by
  cases hvalid : validateRecord record with
  | error e =>
    rw [persist, hvalid]
    exact ⟨_, rfl⟩
  | ok _ =>
    cases hencode : encode ResultRecord.codec "encode stabilization result: " record with
    | error e =>
      rw [persist, hvalid, hencode]
      exact ⟨e, rfl⟩
    | ok document => cases h.symm.trans (encode_ok.mp hencode)

end Exec

/-! ## Completion -/

/-- The journal can be scanned and holds the command once, stabilizing and as the coordinator wrote
it. -/
def Awaiting (s : Store) (commandID : Bytes) : Prop :=
  ∃ key record document, Recovery.findRecordByCommandID commandID s = .ok (some ⟨key, record⟩, s) ∧
    record.phase = .stabilizing ∧ record.command.state = .stabilizing ∧
    (s .commandJournal)[key]? = some document ∧
    Recovery.JournalRecord.codec.marshal record = some document

theorem marshal_moved {record : Recovery.JournalRecord} {document : Bytes}
    (h : Recovery.JournalRecord.codec.marshal record = some document)
    (state : RecoveryCommandState) (phase : Recovery.JournalPhase) :
    ∃ document', Recovery.JournalRecord.codec.marshal (record.moved state phase) =
      some document' := by
  have hfields := Member.writes_of_struct (Codec.writes_of_marshal h)
  simp only [Recovery.JournalRecord.fields, List.forall_mem_cons, List.not_mem_nil, false_imp_iff,
    implies_true, and_true] at hfields
  obtain ⟨hversion, hcommand, htarget, haction, -, hreconciliation⟩ := hfields
  have hcommandFields := Member.writes_of_struct (Member.writes_of_member hcommand)
  simp only [RecoveryCommand.fields, List.forall_mem_cons, List.not_mem_nil, false_imp_iff,
    implies_true, and_true] at hcommandFields
  obtain ⟨h1, h2, h3, h4, h5, h6, h7, h8, h9, h10, h11, h12, -⟩ := hcommandFields
  have hmoved : RecoveryCommand.codec.Writes (record.moved state phase).command := by
    refine Codec.writes_struct ?_
    simp only [RecoveryCommand.fields, List.forall_mem_cons, List.not_mem_nil, false_imp_iff,
      implies_true, and_true]
    exact ⟨h1, h2, h3, h4, h5, h6, h7, h8, h9, h10, h11, h12, Member.writes_of ⟨_, rfl⟩⟩
  refine Codec.marshal_of_writes (Codec.writes_struct ?_)
  simp only [Recovery.JournalRecord.fields, List.forall_mem_cons, List.not_mem_nil, false_imp_iff,
    implies_true, and_true]
  exact ⟨hversion, Member.writes_of hmoved, htarget, haction, Member.writes_of ⟨_, rfl⟩,
    hreconciliation⟩

theorem validate_state {command : RecoveryCommand} {state : RecoveryCommandState}
    (h : command.state.valid = true) (h' : state.valid = true) :
    ({ command with state := state } : RecoveryCommand).validate = command.validate := by
  simp only [RecoveryCommand.validate, h, h']

theorem completeRecord_stabilizing {record : Recovery.JournalRecord} {next : RecoveryCommandState}
    (hphase : record.phase = .stabilizing) (hstate : record.command.state = .stabilizing)
    (hnext : next = .succeeded ∨ next = .failed) :
    Recovery.completeRecord next record = .ok (record.moved next .completed) := by
  unfold Recovery.completeRecord Recovery.transition
  rw [hphase, hstate]
  rcases hnext with rfl | rfl
  · rfl
  · rfl

theorem validateRecord_completed {record : Recovery.JournalRecord} {next : RecoveryCommandState}
    (hvalid : Recovery.validateRecord record = .ok ()) (hphase : record.phase = .stabilizing)
    (hstate : record.command.state = .stabilizing) (hnext : next = .succeeded ∨ next = .failed) :
    Recovery.validateRecord (record.moved next .completed) = .ok () := by
  obtain ⟨hversion, hcommand, htarget, haction, -, hreconciliation⟩ :=
    Recovery.validateRecord_ok.mp hvalid
  have hvalidNext : next.valid = true := by
    rcases hnext with rfl | rfl
    · rfl
    · rfl
  have hvalidate := @validate_state record.command next (by rw [hstate]; rfl) hvalidNext
  refine Recovery.validateRecord_ok.mpr ⟨hversion, ?_, htarget, haction, ?_, ?_⟩
  · simp only [Recovery.validCommand] at hcommand ⊢
    rw [← hvalidate] at hcommand
    exact hcommand
  · rcases hnext with rfl | rfl
    · rfl
    · rfl
  · unfold Recovery.validReconciliation at hreconciliation ⊢
    rw [hphase] at hreconciliation
    exact hreconciliation

section Completion

variable {s : Store} {commandID : Bytes} {answers : Answers interface}

theorem Awaiting.readableID (h : Awaiting s commandID) :
    Recovery.validToken commandID Recovery.maxCommandIDLength = true ∧ ReadableID commandID := by
  obtain ⟨key, record, -, hfind, -⟩ := h
  obtain ⟨-, -, hloads, rfl⟩ := Recovery.loads_of_found hfind
  have hnorm := hloads.norm_eq
  obtain ⟨document, -, hchecked⟩ := hloads
  obtain ⟨-, hcommand, -⟩ := Recovery.validateRecord_ok.mp (Recovery.checkedRecord_ok hchecked).2.1
  simp only [Recovery.validCommand, Bool.and_eq_true] at hcommand
  have htoken := hcommand.1.1.1.1.1.1.1.2
  exact ⟨htoken, congrArg (fun r => r.command.commandID) hnorm, Recovery.validToken_length htoken⟩

theorem complete_exec (h : Awaiting s commandID) (hcommits : Commits answers) (succeeded : Bool) :
    ∃ s1 trace, (complete commandID succeeded).exec answers s = ⟨.ok (), s1, trace⟩ ∧
      (∀ bucket, bucket ≠ .commandJournal → s1 bucket = s bucket) ∧
      Recovery.CommandIn s1 commandID (if succeeded then .succeeded else .failed) := by
  have htoken := h.readableID.1
  obtain ⟨key, record, document, hfind, hphase, hstate, -, hmarshal⟩ := h
  obtain ⟨-, hkey, hloads, hid⟩ := Recovery.loads_of_found hfind
  obtain ⟨_, -, hchecked⟩ := id hloads
  obtain ⟨-, hvalid, hkeyEq⟩ := Recovery.checkedRecord_ok hchecked
  obtain ⟨next, hnext⟩ : ∃ next : RecoveryCommandState,
    next = if succeeded then .succeeded else .failed :=
    ⟨_, rfl⟩
  have hends : next = .succeeded ∨ next = .failed := by
    rw [hnext]
    cases succeeded
    · exact .inr rfl
    · exact .inl rfl
  obtain ⟨document', hmarshal'⟩ := marshal_moved hmarshal next .completed
  have hwritten : Recovery.Written key (record.moved next .completed) document' :=
    ⟨hkeyEq, validateRecord_completed hvalid hphase hstate hends, hmarshal'⟩
  have hbody : Recovery.completeStabilization key next s = .ok (record.moved next .completed,
      Function.update s .commandJournal ((s .commandJournal).insert key document')) :=
    Recovery.updateRecord_ok.mpr ⟨record, document', hloads,
      completeRecord_stabilizing hphase hstate hends, hwritten, rfl⟩
  have hnot : ¬(record.phase = .completed ∧ record.command.state = next) := by
    rw [hphase]
    rintro ⟨⟨⟩, -⟩
  have hcomplete : (Recovery.complete key next).exec (answers.drop 1) s =
      ⟨.ok (record.moved next .completed),
        Function.update s .commandJournal ((s .commandJournal).insert key document'),
        [⟨.tx (.completeStabilization key next),
          answers.drop 1 0 (.tx (.completeStabilization key next)),
          s⟩]⟩ := by
    have hcommit : Recovery.complete key next = Recovery.commit (.completeStabilization key next) :=
      if_pos hends
    rw [hcommit]
    exact (hcommits.drop 1).commit_exec (t := .completeStabilization key next) hbody
  have hcommand : ∃ trace, (Recovery.completeCommand commandID succeeded).exec answers s =
      ⟨.ok (record.moved next .completed).command,
        Function.update s .commandJournal ((s .commandJournal).insert key document'), trace⟩ := by
    rw [Recovery.completeCommand, if_pos htoken, Prog.exec_bind,
      hcommits.commit_exec (t := .findRecord commandID) hfind]
    dsimp only [List.length_singleton]
    rw [← hnext, if_neg hnot, Prog.exec_bind, hcomplete]
    exact ⟨_, rfl⟩
  obtain ⟨trace, hexec⟩ := hcommand
  refine ⟨_, trace ++ [], by rw [complete, Prog.exec_bind, hexec]; rfl, ?_, ?_⟩
  · intro bucket hbucket
    exact Function.update_of_ne hbucket _ _
  · have hstored : ((Function.update s .commandJournal ((s .commandJournal).insert key document'))
        .commandJournal)[key]? = some document' := by
      rw [Function.update_self, Std.ExtTreeMap.getElem?_insert_self]
    have hat := Recovery.recordAt_of_written hstored hwritten
    rw [Recovery.norm_moved, hloads.norm_eq] at hat
    refine ⟨key, _, hkey, hat, hid, ?_⟩
    rw [← hnext]
    rcases hends with hend | hend
    · rw [hend]
      rfl
    · rw [hend]
      rfl

end Completion

end PulseAgent.Stabilization
