import PulseAgent.Stabilization.Sampling

/-!
# How many samples an attempt can take

Every healthy call adds one to the counter of its record, and a record with more than 256 samples
does not pass its own check.
-/

namespace PulseAgent.Stabilization

open Go Go.Json Contract Concurrent
open Recovery (interface Environment)

def counted (record : ResultRecord) : ResultRecord :=
  { record with healthySamples := record.healthySamples + 1 }

def ResultRecord.completed (record : ResultRecord) : ResultRecord :=
  { record with outcome := .succeeded }

/-- With this sample the command is completed. -/
def Completes (request : Request) (record : ResultRecord) (answers : Answers interface) : Prop :=
  request.policy.recoverySamples ≤ (counted record).healthySamples ∧
    record.startedAt.add request.policy.window ≤ reading answers

/-! ## The record of a call -/

section Step

variable {request : Request} {answers : Answers interface} {s : Store} {record : ResultRecord}

theorem counted_toInt (h : record.healthySamples ≤ maxRecoverySamples)
    (h0 : 0 ≤ record.healthySamples) :
    (counted record).healthySamples.toInt = record.healthySamples.toInt + 1 := by
  have hle := Int64.le_iff_toInt_le.mp h
  have hge := Int64.le_iff_toInt_le.mp h0
  change (record.healthySamples + 1).toInt = _
  have hmax : maxRecoverySamples.toInt = 256 := by decide
  have hzero : (0 : Int64).toInt = 0 := by decide
  have hone : (1 : Int64).toInt = 1 := by decide
  rw [Int64.toInt_add, hone]
  rw [hmax] at hle
  rw [hzero] at hge
  exact Int.bmod_eq_of_le (by omega) (by omega)

/-- The record a call works on: it is pending, it is the attempt's own, and it passes its check. -/
structure Pending (request : Request) (record : ResultRecord) : Prop where
  commandID : record.commandID = request.command.commandID
  attempt : record.attempt = request.attempt
  valid : validateRecord record = .ok ()
  outcome : record.outcome = .pending

theorem Pending.plain (h : Pending request record) : Plain record :=
  plain_of_validOutcome (validateRecord_ok.mp h.valid).2.2.2.2.2.2.2.2 (.inl h.outcome)

theorem Pending.samples (h : Pending request record) :
    0 ≤ record.healthySamples.toInt ∧ record.healthySamples.toInt ≤ 256 ∧
      (counted record).healthySamples.toInt = record.healthySamples.toInt + 1 := by
  obtain ⟨-, -, -, -, -, hge, hle, -⟩ := validateRecord_ok.mp h.valid
  have hmax : maxRecoverySamples.toInt = 256 := by decide
  have hzero : (0 : Int64).toInt = 0 := by decide
  exact ⟨hzero ▸ Int64.le_iff_toInt_le.mp hge, hmax ▸ Int64.le_iff_toInt_le.mp hle,
    counted_toInt hle hge⟩

theorem pending_newRecord (hrequest : validateRequest request = .ok ())
    (hclock : (reading answers).isZero = false) :
    Pending request (newRecord request (reading answers)) := by
  have hchecks : request.command.validate.isOk = true ∧ 0 ≤ request.attempt := by
    unfold validateRequest at hrequest
    split at hrequest
    case isTrue h =>
      simp only [Bool.and_eq_true, decide_eq_true_eq] at h
      exact ⟨h.1.1.1.1.1.1.1.1.1.1, h.1.2⟩
    case isFalse => cases hrequest
  have hid : request.command.commandID ≠ [] := by
    intro hnil
    have hvalid := hchecks.1
    rw [RecoveryCommand.validate, hnil] at hvalid
    cases hversion : validateVersion request.command.schemaVersion with
    | error e =>
      rw [hversion] at hvalid
      cases hvalid
    | ok _ =>
      rw [hversion] at hvalid
      cases hvalid
  refine ⟨rfl, rfl, validateRecord_ok.mpr ⟨rfl, hid, rfl, hchecks.2, hclock,
    (by decide : (0 : Int64) ≤ 0), (by decide : (0 : Int64) ≤ maxRecoverySamples),
    (by decide : (-1 : Int64) ≤ -1), rfl⟩, rfl⟩

theorem validateRecord_counted_iff (h : Pending request record) :
    validateRecord (counted record) = .ok () ↔ record.healthySamples.toInt < 256 := by
  obtain ⟨hversion, hid, hexecuted, hattempt, hstart, hge, hle, hnext, houtcome⟩ :=
    validateRecord_ok.mp h.valid
  obtain ⟨hge', -, hcounted⟩ := h.samples
  have hmax : maxRecoverySamples.toInt = 256 := by decide
  have hzero : (0 : Int64).toInt = 0 := by decide
  rw [validateRecord_ok]
  constructor
  · rintro ⟨-, -, -, -, -, -, hsamples, -⟩
    have := Int64.le_iff_toInt_le.mp hsamples
    rw [hcounted, hmax] at this
    omega
  · intro hroom
    refine ⟨hversion, hid, hexecuted, hattempt, hstart, ?_, ?_, hnext, ?_⟩
    · rw [Int64.le_iff_toInt_le, hcounted, hzero]
      omega
    · rw [Int64.le_iff_toInt_le, hcounted, hmax]
      omega
    · exact validOutcome_of_plain h.plain

theorem marshal_counted (h : Pending request record)
    (hprint : ∃ text, record.startedAt.format = some text) :
    ∃ document, ResultRecord.codec.marshal (counted record) = some document :=
  (@marshal_plain_iff (counted record) h.plain).mpr hprint

theorem plain_completed (h : Pending request record) : Plain (counted record).completed :=
  ⟨.inr rfl, h.plain.2⟩

theorem validateRecord_completed_iff (h : Pending request record) :
    validateRecord (counted record).completed = .ok () ↔ record.healthySamples.toInt < 256 := by
  rw [← validateRecord_counted_iff h, validateRecord_ok, validateRecord_ok]
  have hcounted : validOutcome (counted record) = true :=
    @validOutcome_of_plain (counted record) h.plain
  rw [hcounted, validOutcome_of_plain (plain_completed h)]
  rfl

/-! ## What a counted sample leaves -/

section Sample

variable {now deadline : Time}

theorem succeedSample_of_not
    (hnot : ¬(request.policy.recoverySamples ≤ (counted record).healthySamples ∧ ¬now < deadline)) :
    ∃ f, succeedSample request record now deadline = persist (counted record) >>= f ∧
      (∀ u, f (.ok u) = pure ((counted record).result, none)) ∧
      ∀ e, f (.error e) = pure ({}, some e) :=
  ⟨_, if_neg hnot, fun _ => rfl, fun _ => rfl⟩

theorem succeedSample_of_completes
    (h : request.policy.recoverySamples ≤ (counted record).healthySamples ∧ ¬now < deadline) :
    succeedSample request record now deadline = finish (counted record).completed true none :=
  if_pos h

theorem finish_eq (record : ResultRecord) (succeeded : Bool) (err : Option Error) :
    ∃ f g, finish record succeeded err = complete record.commandID succeeded >>= f ∧
      (∀ u, f (.ok u) = persist record >>= g) ∧ (∀ e, f (.error e) = pure ({}, some e)) ∧
      (∀ u, g (.ok u) = pure (record.result, err)) ∧ ∀ e, g (.error e) = pure ({}, some e) :=
  ⟨_, _, rfl, fun _ => rfl, fun _ => rfl, fun _ => rfl, fun _ => rfl⟩

theorem sample_counts (hpending : Pending request record) (hcommits : Commits answers)
    (hroom : record.healthySamples.toInt < 256)
    (hnot : ¬(request.policy.recoverySamples ≤ (counted record).healthySamples ∧ ¬now < deadline))
    {document : Bytes} (hmarshal : ResultRecord.codec.marshal (counted record) = some document) :
    ((succeedSample request record now deadline).exec answers s).value =
        ((counted record).result, none) ∧
      ((succeedSample request record now deadline).exec answers s).state =
        withResult s (counted record) document := by
  obtain ⟨call, hpersist⟩ :=
    @persist_exec answers s _ hcommits ((validateRecord_counted_iff hpending).mpr hroom) _ hmarshal
  obtain ⟨f, hsample, hok, -⟩ := succeedSample_of_not hnot
  rw [hsample, (Prog.exec_bind_of hpersist).1, (Prog.exec_bind_of hpersist).2, hok]
  exact ⟨rfl, rfl⟩

theorem sample_completes (hpending : Pending request record) (hcommits : Commits answers)
    (hawaiting : Awaiting s request.command.commandID) (hroom : record.healthySamples.toInt < 256)
    (hcompletes : request.policy.recoverySamples ≤ (counted record).healthySamples ∧
      ¬now < deadline)
    {document : Bytes}
    (hmarshal : ResultRecord.codec.marshal (counted record).completed = some document) :
    ((succeedSample request record now deadline).exec answers s).value =
        ((counted record).completed.result, none) ∧
      ∃ s1, ((succeedSample request record now deadline).exec answers s).state =
          withResult s1 (counted record).completed document ∧
        Recovery.CommandIn s1 request.command.commandID .succeeded := by
  obtain ⟨s1, trace, hcomplete, -, hcommand⟩ := complete_exec hawaiting hcommits true
  obtain ⟨call, hpersist⟩ := @persist_exec (answers.drop trace.length) s1 _ (hcommits.drop _)
    ((validateRecord_completed_iff hpending).mpr hroom) _ hmarshal
  obtain ⟨f, g, hfinish, hfok, -, hgok, -⟩ := finish_eq (counted record).completed true none
  have hid : (counted record).completed.commandID = request.command.commandID := hpending.commandID
  rw [hid] at hfinish
  rw [succeedSample_of_completes hcompletes, hfinish, (Prog.exec_bind_of hcomplete).1,
    (Prog.exec_bind_of hcomplete).2, hfok, (Prog.exec_bind_of hpersist).1,
    (Prog.exec_bind_of hpersist).2, hgok]
  exact ⟨rfl, s1, rfl, hcommand⟩

theorem sample_fails (hpersist : ∀ (answers : Answers interface) s record',
      record' = counted record ∨ record' = (counted record).completed →
      ∃ e, (persist record').exec answers s = ⟨.error e, s, []⟩) :
    ((succeedSample request record now deadline).exec answers s).value.2 ≠ none := by
  by_cases hcompletes : request.policy.recoverySamples ≤ (counted record).healthySamples ∧
    ¬now < deadline
  · obtain ⟨f, g, hfinish, hfok, hferror, -, hgerror⟩ :=
      finish_eq (counted record).completed true none
    rw [succeedSample_of_completes hcompletes, hfinish, Prog.exec_bind]
    dsimp only
    cases ((complete (counted record).completed.commandID true).exec answers s).value with
    | error e =>
      rw [hferror]
      exact Option.some_ne_none e
    | ok u =>
      obtain ⟨e, hexec⟩ := hpersist _ _ _ (.inr rfl)
      rw [hfok, (Prog.exec_bind_of hexec).1, hgerror]
      exact Option.some_ne_none e
  · obtain ⟨f, hsample, -, herror⟩ := succeedSample_of_not hcompletes
    obtain ⟨e, hexec⟩ := hpersist answers s _ (.inl rfl)
    rw [hsample, (Prog.exec_bind_of hexec).1, herror]
    exact Option.some_ne_none e

theorem sample_overflows (hpending : Pending request record)
    (hfull : ¬record.healthySamples.toInt < 256) :
    ((succeedSample request record now deadline).exec answers s).value.2 ≠ none := by
  refine sample_fails fun answers s record' hrecord' => ⟨errCorruptResult, persist_exec_invalid ?_⟩
  rcases hrecord' with rfl | rfl
  · exact fun hvalid => hfull ((validateRecord_counted_iff hpending).mp hvalid)
  · exact fun hvalid => hfull ((validateRecord_completed_iff hpending).mp hvalid)

theorem sample_unprintable (hpending : Pending request record)
    (hprint : ¬∃ text, record.startedAt.format = some text) :
    ((succeedSample request record now deadline).exec answers s).value.2 ≠ none := by
  refine sample_fails fun answers s record' hrecord' => persist_exec_unwritable ?_
  rw [Option.eq_none_iff_forall_ne_some]
  intro document hmarshal
  rcases hrecord' with rfl | rfl
  · exact hprint ((@marshal_plain_iff (counted record) hpending.plain).mp ⟨document, hmarshal⟩)
  · exact hprint ((marshal_plain_iff (plain_completed hpending)).mp ⟨document, hmarshal⟩)

end Sample

end Step

/-! ## Sequences of calls -/

/-- Nothing final is stored of the attempt. -/
def Open (found : Option ResultRecord) : Prop :=
  ∀ record, found = some record → record.outcome = .pending

def samplesOf (found : Option ResultRecord) : Int := (found.map (·.healthySamples.toInt)).getD 0

/-- A call without error that leaves a readable record: with one more sample if nothing final was
stored before, and otherwise as it was. -/
structure Grows (request : Request) (answers : Answers interface) (s : Store) : Prop where
  error : ((verify request).exec answers s).value.2 = none
  record : ∃ found record,
    loadResult request.command.commandID request.attempt s = .ok (found, s) ∧
    loadResult request.command.commandID request.attempt ((verify request).exec answers s).state =
      .ok (some record, ((verify request).exec answers s).state) ∧
    (Open found → record.healthySamples.toInt = samplesOf found + 1) ∧
    (¬Open found → found = some record)

/-- Every call of a sequence, one after the other. -/
def Smooth (request : Request) : List (Answers interface) → Store → Prop
  | [], _ => True
  | answers :: rest, s =>
    Grows request answers s ∧ Smooth request rest ((verify request).exec answers s).state

section Runs

variable {request : Request} {answers : Answers interface} {s : Store} {record : ResultRecord}

theorem smooth_of_final (hrequest : validateRequest request = .ok ())
    (hid : ReadableID request.command.commandID) (hsampled : Sampled request s record)
    (hplain : Plain record) (hfinal : record.outcome = .succeeded)
    {calls : List (Answers interface)}
    (hhealthy : ∀ answers ∈ calls, Healthy request answers) : Smooth request calls s := by
  have hload := hsampled.loadResult hplain hid
  have hnot : record.outcome ≠ .pending := by
    rw [hfinal]
    decide
  induction calls with
  | nil => trivial
  | cons answers rest ih =>
    obtain ⟨hfirst, hrest⟩ := List.forall_mem_cons.mp hhealthy
    obtain ⟨hvalue, hstate⟩ := verify_exec_final hrequest hfirst hsampled hload hnot
    refine ⟨⟨by rw [hvalue], some record, record, hload, by rw [hstate]; exact hload,
      fun hopen => absurd (hopen record rfl) hnot, fun _ => rfl⟩, ?_⟩
    rw [hstate]
    exact ih hrest

theorem Awaiting.of_journal {s s' : Store} {commandID : Bytes} (h : Awaiting s commandID)
    (hjournal : s' .commandJournal = s .commandJournal) : Awaiting s' commandID := by
  obtain ⟨key, record, document, hfind, hphase, hstate, hdocument, hmarshal⟩ := h
  obtain ⟨-, hreadable, hfilter⟩ := Recovery.findRecordByCommandID_ok.mp hfind
  have hrecords : Recovery.storedRecords s' = Recovery.storedRecords s := by
    rw [Recovery.storedRecords, Recovery.storedRecords, hjournal]
  refine ⟨key, record, document, Recovery.findRecordByCommandID_ok.mpr ⟨rfl, ?_, ?_⟩,
    hphase, hstate,
    ?_, hmarshal⟩
  · rw [hjournal]
    exact hreadable
  · rw [hrecords]
    exact hfilter
  · rw [hjournal]
    exact hdocument

theorem withResult_journal (s : Store) (record : ResultRecord) (document : Bytes) :
    withResult s record document .commandJournal = s .commandJournal :=
  Function.update_of_ne (by decide) _ _

/-- What one healthy call on an open attempt does. -/
structure Stepped (request : Request) (answers : Answers interface) (s : Store)
    (record : ResultRecord) : Prop where
  grows : Grows request answers s
  completed : Completes request record answers →
    Sampled request ((verify request).exec answers s).state (counted record).completed ∧
      ((verify request).exec answers s).value = ((counted record).completed.result, none) ∧
      Recovery.CommandIn ((verify request).exec answers s).state
        request.command.commandID .succeeded
  pending : ¬Completes request record answers →
    Sampled request ((verify request).exec answers s).state (counted record) ∧
      Awaiting ((verify request).exec answers s).state request.command.commandID

theorem CommandIn.withResult {s : Store} {commandID document : Bytes} {state : RecoveryCommandState}
    (h : Recovery.CommandIn s commandID state) (record : ResultRecord) :
    Recovery.CommandIn (withResult s record document) commandID state := by
  obtain ⟨key, r, hkey, hr, hid, hstate⟩ := h
  refine ⟨key, r, hkey, ?_, hid, hstate⟩
  rw [Recovery.recordAt, withResult_journal]
  exact hr

section Step

variable {found : Option ResultRecord} (hrequest : validateRequest request = .ok ())
  (hhealthy : Healthy request answers) (hawaiting : Awaiting s request.command.commandID)
  (hload : loadResult request.command.commandID request.attempt s = .ok (found, s))
  (hheld : Held request s found) (hopen : Open found)
  (hrecord : found.getD (newRecord request (reading answers)) = record)
  (hpending : Pending request record) (hsamples : samplesOf found = record.healthySamples.toInt)
  (htime : reading answers ≤ record.startedAt.add request.policy.window)

include hrequest hhealthy hload hheld hrecord hpending htime in
theorem not_grows_of_full (hfull : ¬record.healthySamples.toInt < 256) :
    ¬Grows request answers s := by
  intro hgrows
  have herror := hgrows.error
  rw [(verify_exec hrequest hhealthy hload hheld hrecord
    hpending.outcome (not_lt.mpr htime)).1] at herror
  exact sample_overflows hpending hfull herror

include hrequest hhealthy hload hheld hrecord hpending htime in
theorem not_grows_of_unprintable (hprint : ¬∃ text, record.startedAt.format = some text) :
    ¬Grows request answers s := by
  intro hgrows
  have herror := hgrows.error
  rw [(verify_exec hrequest hhealthy hload hheld hrecord
    hpending.outcome (not_lt.mpr htime)).1] at herror
  exact sample_unprintable hpending hprint herror

include hrequest hhealthy hawaiting hload hheld hopen hrecord hpending hsamples htime in
theorem stepped_of_room (hroom : record.healthySamples.toInt < 256)
    (hprint : ∃ text, record.startedAt.format = some text) : Stepped request answers s record := by
  have hid := hawaiting.readableID.2
  obtain ⟨hvalue, hstate⟩ :=
    verify_exec hrequest hhealthy hload hheld hrecord hpending.outcome (not_lt.mpr htime)
  have hcounted := hpending.samples.2.2
  by_cases hcompletes : Completes request record answers
  · obtain ⟨document, hmarshal⟩ := (marshal_plain_iff (plain_completed hpending)).mpr hprint
    obtain ⟨hresult, s1, hafter, hcommand⟩ := sample_completes hpending (hhealthy.commits.drop 3)
      hawaiting hroom ⟨hcompletes.1, not_lt.mpr hcompletes.2⟩ hmarshal
    have hsampled : Sampled request ((verify request).exec answers s).state
        (counted record).completed := by
      rw [hstate, hafter]
      exact sampled_withResult hpending.commandID hpending.attempt
        ((validateRecord_completed_iff hpending).mpr hroom) hmarshal
    refine ⟨⟨by rw [hvalue, hresult], found, (counted record).completed, hload,
      hsampled.loadResult (plain_completed hpending) hid, fun _ => ?_, fun h => absurd hopen h⟩,
      fun _ => ⟨hsampled, hvalue.trans hresult, ?_⟩, fun h => absurd hcompletes h⟩
    · rw [hsamples]
      exact hcounted
    · rw [hstate, hafter]
      exact CommandIn.withResult hcommand _
  · obtain ⟨document, hmarshal⟩ := marshal_counted hpending hprint
    have hnot : ¬(request.policy.recoverySamples ≤ (counted record).healthySamples ∧
        ¬reading answers < record.startedAt.add request.policy.window) :=
      fun h => hcompletes ⟨h.1, not_lt.mp h.2⟩
    obtain ⟨hresult, hafter⟩ :=
      @sample_counts request _ s _ _ _ hpending (hhealthy.commits.drop 3) hroom hnot _ hmarshal
    have hsampled : Sampled request ((verify request).exec answers s).state (counted record) := by
      rw [hstate, hafter]
      exact sampled_withResult hpending.commandID hpending.attempt
        ((validateRecord_counted_iff hpending).mpr hroom) hmarshal
    refine ⟨⟨by rw [hvalue, hresult], found, counted record, hload,
      hsampled.loadResult hpending.plain hid,
      fun _ => ?_, fun h => absurd hopen h⟩, fun h => absurd h hcompletes, fun _ => ⟨hsampled, ?_⟩⟩
    · rw [hsamples]
      exact hcounted
    · rw [hstate, hafter]
      exact hawaiting.of_journal (withResult_journal _ _ _)

end Step

/-! ### Room for the samples -/

/-- There is room for every sample: with the calls to come there are at most 256, or one of the
first 256 completes the command. -/
def Room (request : Request) (deadline : Time) (taken : Int)
    (calls : List (Answers interface)) : Prop :=
  taken + calls.length ≤ 256 ∨ ∃ (i : Nat) (answers : Answers interface), taken + i < 256 ∧
    calls[i]? = some answers ∧ request.policy.recoverySamples.toInt ≤ taken + i + 1 ∧
    deadline ≤ reading answers

theorem room_cons {deadline : Time} {taken : Int} {rest : List (Answers interface)} :
    Room request deadline taken (answers :: rest) ↔ taken < 256 ∧
      ((request.policy.recoverySamples.toInt ≤ taken + 1 ∧ deadline ≤ reading answers) ∨
        Room request deadline (taken + 1) rest) := by
  unfold Room
  rw [List.length_cons]
  constructor
  · rintro (hroom | ⟨i, found, hroom, hcall, henough, htime⟩)
    · exact ⟨by omega, .inr (.inl (by omega))⟩
    · refine ⟨by omega, ?_⟩
      cases i with
      | zero =>
        rw [List.getElem?_cons_zero, Option.some.injEq] at hcall
        subst hcall
        exact .inl ⟨by omega, htime⟩
      | succ i =>
        rw [List.getElem?_cons_succ] at hcall
        exact .inr (.inr ⟨i, found, by omega, hcall, by omega, htime⟩)
  · rintro ⟨hroom, ⟨henough, htime⟩ | hrest | ⟨i, found, hrest, hcall, henough, htime⟩⟩
    · exact .inr ⟨0, answers, by omega, rfl, by omega, htime⟩
    · exact .inl (by omega)
    · exact .inr ⟨i + 1, found, by omega, hcall, by omega, htime⟩

theorem completes_iff (hpending : Pending request record) :
    Completes request record answers ↔
      request.policy.recoverySamples.toInt ≤ record.healthySamples.toInt + 1 ∧
        record.startedAt.add request.policy.window ≤ reading answers := by
  rw [Completes, Int64.le_iff_toInt_le, hpending.samples.2.2]

theorem pending_counted (hpending : Pending request record)
    (hroom : record.healthySamples.toInt < 256) : Pending request (counted record) :=
  ⟨hpending.commandID, hpending.attempt, (validateRecord_counted_iff hpending).mpr hroom,
    hpending.outcome⟩

theorem smooth_cons_iff {found : Option ResultRecord} {rest : List (Answers interface)}
    (hrequest : validateRequest request = .ok ())
    (hhealthy : ∀ a ∈ answers :: rest, Healthy request a)
    (hawaiting : Awaiting s request.command.commandID) (hheld : Held request s found)
    (hopen : Open found) (hplain : ∀ record, found = some record → Plain record)
    (hrecord : found.getD (newRecord request (reading answers)) = record)
    (hpending : Pending request record) (hsamples : samplesOf found = record.healthySamples.toInt)
    (hprint : ∃ text, record.startedAt.format = some text)
    (htime : reading answers ≤ record.startedAt.add request.policy.window)
    (hrest : ∀ s', Awaiting s' request.command.commandID → Sampled request s' (counted record) →
      Pending request (counted record) →
      (Smooth request rest s' ↔ Room request (record.startedAt.add request.policy.window)
        (counted record).healthySamples.toInt rest)) :
    Smooth request (answers :: rest) s ↔
      Room request (record.startedAt.add request.policy.window) record.healthySamples.toInt
        (answers :: rest) := by
  obtain ⟨hfirst, hlater⟩ := List.forall_mem_cons.mp hhealthy
  have hload := hheld.loadResult hplain hawaiting.readableID.2
  rw [room_cons, ← completes_iff hpending]
  by_cases hroom : record.healthySamples.toInt < 256
  · have hstep := stepped_of_room hrequest hfirst hawaiting hload hheld hopen hrecord
      hpending hsamples
      htime hroom hprint
    by_cases hcompletes : Completes request record answers
    · have hafter := (hstep.completed hcompletes).1
      exact iff_of_true ⟨hstep.grows, smooth_of_final hrequest hawaiting.readableID.2 hafter
        (plain_completed hpending) rfl hlater⟩ ⟨hroom, .inl hcompletes⟩
    · obtain ⟨hafter, hstill⟩ := hstep.pending hcompletes
      have hcalls := hrest _ hstill hafter (pending_counted hpending hroom)
      rw [hpending.samples.2.2] at hcalls
      exact ⟨fun h => ⟨hroom, .inr (hcalls.mp h.2)⟩,
        fun h => ⟨hstep.grows, hcalls.mpr (h.2.resolve_left hcompletes)⟩⟩
  · exact iff_of_false
      (fun h => not_grows_of_full hrequest hfirst hload hheld hrecord hpending htime hroom h.1)
      fun h => hroom h.1

/-- From a pending record on, the calls go through exactly as long as there is room. -/
theorem smooth_iff_room (hrequest : validateRequest request = .ok ())
    {calls : List (Answers interface)} (hhealthy : ∀ a ∈ calls, Healthy request a)
    (hawaiting : Awaiting s request.command.commandID) (hsampled : Sampled request s record)
    (hpending : Pending request record) (hprint : ∃ text, record.startedAt.format = some text)
    (htime : ∀ a ∈ calls, reading a ≤ record.startedAt.add request.policy.window) :
    Smooth request calls s ↔
      Room request (record.startedAt.add request.policy.window)
        record.healthySamples.toInt calls := by
  induction calls generalizing s record with
  | nil =>
    refine iff_of_true trivial (.inl ?_)
    have := hpending.samples.2.1
    rw [List.length_nil]
    omega
  | cons answers rest ih =>
    refine @smooth_cons_iff request answers s record (some record) rest hrequest hhealthy hawaiting
      hsampled ?_ ?_ rfl hpending rfl hprint (htime _ List.mem_cons_self) ?_
    · rintro _ ⟨⟩
      exact hpending.outcome
    · rintro _ ⟨⟩
      exact hpending.plain
    · intro s' hstill hafter hcounted
      exact ih (fun a h => hhealthy a (List.mem_cons_of_mem _ h)) hstill hafter hcounted hprint
        fun a h => htime a (List.mem_cons_of_mem _ h)

theorem smooth_iff_room_of_none {first : Answers interface} {rest : List (Answers interface)}
    (hrequest : validateRequest request = .ok ())
    (hhealthy : ∀ a ∈ first :: rest, Healthy request a)
    (hawaiting : Awaiting s request.command.commandID)
    (hnone : (s .stabilizationResults)[resultKey request.command.commandID request.attempt]? = none)
    (htime : ∀ a ∈ first :: rest, reading a ≤ (reading first).add request.policy.window)
    (hprint : ∃ text, (reading first).format = some text) :
    Smooth request (first :: rest) s ↔
      Room request ((reading first).add request.policy.window) 0 (first :: rest) := by
  have hpending := pending_newRecord hrequest (hhealthy _ List.mem_cons_self).clock
  refine @smooth_cons_iff request first s (newRecord request (reading first)) none rest hrequest
    hhealthy hawaiting hnone (fun _ h => (Option.some_ne_none _ h.symm).elim)
    (fun _ h => (Option.some_ne_none _ h.symm).elim) rfl hpending rfl hprint
    (htime _ List.mem_cons_self) ?_
  intro s' hstill hafter hcounted
  exact @smooth_iff_room request s' (counted (newRecord request (reading first))) hrequest rest
    (fun a h => hhealthy a (List.mem_cons_of_mem _ h)) hstill hafter hcounted hprint
    fun a h => htime a (List.mem_cons_of_mem _ h)

/-- The calls of a window on an attempt without a record, all of them healthy, committed and not
after the deadline: each counts its sample, without error and into a readable record, exactly if the
first reading can be printed and there is room for the samples. -/
theorem samples_counted_iff {first : Answers interface} {rest : List (Answers interface)}
    (hrequest : validateRequest request = .ok ())
    (hhealthy : ∀ a ∈ first :: rest, Healthy request a)
    (hawaiting : Awaiting s request.command.commandID)
    (hnone : (s .stabilizationResults)[resultKey request.command.commandID request.attempt]? = none)
    (htime : ∀ a ∈ first :: rest, reading a ≤ (reading first).add request.policy.window) :
    Smooth request (first :: rest) s ↔ (∃ text, (reading first).format = some text) ∧
      Room request ((reading first).add request.policy.window) 0 (first :: rest) := by
  by_cases hprint : ∃ text, (reading first).format = some text
  · rw [and_iff_right hprint]
    exact smooth_iff_room_of_none hrequest hhealthy hawaiting hnone htime hprint
  · refine iff_of_false (fun h => ?_) fun h => hprint h.1
    have hfirst := hhealthy _ List.mem_cons_self
    have hheld : Held request s none := hnone
    have hload := hheld.loadResult (fun _ h => (Option.some_ne_none _ h.symm).elim)
      hawaiting.readableID.2
    exact not_grows_of_unprintable hrequest hfirst hload hheld rfl
      (pending_newRecord hrequest hfirst.clock) (htime _ List.mem_cons_self) hprint h.1

end Runs

/-! ## Calm windows -/

open Recovery (sampleStore sampleEnvironment stabilizingRecord sampleVerification JournalRecord)

def calm (now : Time) : Answers interface := fun _ _ => sampleEnvironment now (lit "j") true

theorem healthy_calm {request : Request} {now : Time} (hclock : now.isZero = false)
    (hrules : elems request.target.probeRules = []) : Healthy request (calm now) := by
  refine ⟨fun _ _ => rfl, hclock, ∅, rfl, rfl, ?_⟩
  rw [hrules]
  rfl

theorem awaiting_sampleStore : Awaiting (sampleStore stabilizingRecord) (lit "i") := by
  obtain ⟨document, hmarshal⟩ := Option.isSome_iff_exists.mp
    (show (JournalRecord.codec.marshal stabilizingRecord).isSome = true by decide +kernel)
  have hshort : document.length ≤ Recovery.maxJournalDocumentBytes := by
    have hencoded : Recovery.encodedLength stabilizingRecord ≤
      Recovery.maxJournalDocumentBytes := by
      decide +kernel
    rw [Recovery.encodedLength, hmarshal] at hencoded
    exact hencoded
  obtain ⟨hreadable, hrecords⟩ :=
    Recovery.storedRecords_sampleStore ⟨rfl, by decide +kernel, hmarshal⟩
    (by decide +kernel) hshort
  refine ⟨_, stabilizingRecord, document,
    Recovery.findRecordByCommandID_ok.mpr ⟨rfl, hreadable, ?_⟩,
    rfl, rfl, (Recovery.sampleStore_lookup
      hmarshal (Recovery.isRecordKey_recordKey _)).mpr ⟨rfl, rfl⟩,
    hmarshal⟩
  rw [hrecords]
  rfl

theorem two_samples_counted :
    Smooth sampleVerification [calm 2, calm 3] (sampleStore stabilizingRecord) := by
  refine (@samples_counted_iff sampleVerification (sampleStore stabilizingRecord) (calm 2)
    [calm 3] rfl ?_
    awaiting_sampleStore rfl ?_).mpr ⟨⟨_, rfl⟩, .inl (by decide)⟩
  · simp only [List.forall_mem_cons, List.not_mem_nil, false_imp_iff, implies_true, and_true]
    exact ⟨healthy_calm rfl rfl, healthy_calm rfl rfl⟩
  · simp only [List.forall_mem_cons, List.not_mem_nil, false_imp_iff, implies_true, and_true]
    exact ⟨by decide, by decide⟩

def longVerification : Request :=
  { sampleVerification with policy := { recoverySamples := 1, window := 1000 } }

/-- In a window of 1000 ns with 257 healthy samples at its start, one of the calls fails. -/
theorem samples_overflow :
    validateRequest longVerification = .ok () ∧ Awaiting (sampleStore stabilizingRecord) (lit "i") ∧
      (∀ a ∈ List.replicate 257 (calm 2), Healthy longVerification a ∧
        reading a ≤ (reading (calm 2)).add longVerification.policy.window) ∧
      ¬Smooth longVerification (List.replicate 257 (calm 2)) (sampleStore stabilizingRecord) := by
  have hcalls : ∀ a ∈ List.replicate 257 (calm 2), Healthy longVerification a ∧
      reading a ≤ (reading (calm 2)).add longVerification.policy.window := by
    intro a ha
    rw [List.eq_of_mem_replicate ha]
    exact ⟨healthy_calm rfl rfl, by decide⟩
  refine ⟨rfl, awaiting_sampleStore, hcalls, ?_⟩
  rw [List.replicate_succ] at hcalls ⊢
  rw [smooth_iff_room_of_none rfl (fun a ha => (hcalls a ha).1) awaiting_sampleStore rfl
    (fun a ha => (hcalls a ha).2) ⟨_, rfl⟩]
  rintro (hroom | ⟨i, answers, -, hcall, -, htime⟩)
  · rw [List.length_cons, List.length_replicate] at hroom
    omega
  · rw [← List.replicate_succ] at hcall
    rw [List.eq_of_mem_replicate (List.mem_of_getElem? hcall)] at htime
    exact absurd htime (by decide)

end PulseAgent.Stabilization
