import PulseAgent.Recovery.Effects

/-!
# Verification results and the journal

The verifier completes a command in one transaction and stores the outcome in another. A stored
outcome therefore always has its completion behind it.
-/

namespace PulseAgent.Recovery

open Go Go.Json Contract Concurrent

def resultAt (s : Store) (key : Bytes) : Option Stabilization.ResultRecord :=
  (s .stabilizationResults)[key]?.bind (content Stabilization.ResultRecord.codec)

/-- The state a command is completed with before this outcome is stored. -/
def commandStateOf : Stabilization.Outcome → Option RecoveryCommandState
  | .succeeded => some .succeeded
  | .failed => some .failed
  | .retryScheduled => some .failed
  | .pending => none
  | .other .. => none

/-! ## Who writes results -/

section Writers

variable {s s' : Store}

theorem perform_results (o : Op) (env : Environment) (s : Store) :
    (perform o env s).2 .stabilizationResults = s .stabilizationResults ∨
      ∃ commandID attempt document, o = .tx (.putResult commandID attempt document) ∧
        (perform o env s).2 .stabilizationResults = (s .stabilizationResults).insert
          (Stabilization.resultKey commandID attempt) document := by
  obtain heq | ⟨t, a, rfl, hbody⟩ := perform_cases o env s
  · exact .inl (congrFun heq _)
  · cases t with
    | putResult commandID attempt document =>
      change Stabilization.putResult commandID attempt document s = .ok (a, _) at hbody
      refine .inr ⟨commandID, attempt, document, rfl, ?_⟩
      rw [(Tx.put_ok.mp hbody).2.2, Function.update_self]
    | _ => exact .inl (body_keeps hbody (by simp [Transaction.writes]))

end Writers

/-! ## Completed commands -/

/-- A scan of the journal found the command's record under this key. -/
def Finds (c : Occurrence interface) (commandID key : Bytes) (record : JournalRecord) : Prop :=
  ∃ env s, c = ⟨.tx (.findRecord commandID), env, s⟩ ∧
    ((Transaction.findRecord commandID).run env.fault env.audit s).1 = .ok (some ⟨key, record⟩)

namespace Finds

variable {c : Occurrence interface} {commandID key : Bytes} {record : JournalRecord}

theorem loads (h : Finds c commandID key record) : c.after = c.before ∧
    isRecordKey key = true ∧ Loads c.before key record ∧ record.command.commandID = commandID := by
  obtain ⟨env, s, rfl, hrun⟩ := h
  have hbody : findRecordByCommandID commandID s = .ok (some ⟨key, record⟩, _) :=
    Transaction.run_ok hrun
  exact loads_of_found hbody

theorem unique (h : Finds c commandID key record) {key' : Bytes} {r : JournalRecord}
    (hkey : isRecordKey key' = true) (hr : recordAt c.before key' = some r)
    (hid : r.command.commandID = commandID) : key' = key := by
  obtain ⟨env, s, rfl, hrun⟩ := h
  have hbody : findRecordByCommandID commandID s = .ok (some ⟨key, record⟩, _) :=
    Transaction.run_ok hrun
  obtain ⟨-, hreadable, hfilter⟩ := findRecordByCommandID_ok.mp hbody
  obtain ⟨document, hdocument, -⟩ := Option.bind_eq_some_iff.mp hr
  obtain ⟨r', hchecked⟩ := hreadable (key', document)
    (Std.ExtTreeMap.mem_toList_iff_getElem?_eq_some.mpr hdocument) hkey
  have hloads : Loads s key' r' := ⟨document, hdocument, hchecked⟩
  obtain rfl := Option.some.inj (hr.symm.trans hloads.recordAt_eq)
  have hmem : (⟨key', r⟩ : StoredRecord) ∈ (storedRecords s).filter
      (fun stored => stored.record.command.commandID = commandID) :=
    List.mem_filter.mpr ⟨mem_storedRecords.mpr ⟨hkey, hloads⟩, by simpa using hid⟩
  rw [hfilter, Option.mem_toList] at hmem
  cases hmem
  rfl

end Finds

/-- The journal has the command completed with this state, under the key a scan found it. -/
def Attested (log : List (Event interface)) (s : Store) (commandID : Bytes)
    (state : RecoveryCommandState) : Prop :=
  ∃ x ∈ log, ∃ key record r, Finds x.toOccurrence commandID key record ∧
    recordAt s key = some r ∧ r.command.commandID = commandID ∧ r.phase = .completed ∧
    r.command.state = state

theorem Attested.mono {log : List (Event interface)} {s s' : Store} {commandID : Bytes}
    {state : RecoveryCommandState} (h : Attested log s commandID state) (hclean : Clean s)
    (hsucceeds : Succeeds s s') : Attested log s' commandID state := by
  obtain ⟨x, hx, key, record, r, hfinds, hr, hid, hphase, hstate⟩ := h
  obtain ⟨r', hr', hdescends⟩ := (hsucceeds hclean).2 key r hfinds.loads.2.1 hr
  obtain rfl := hdescends.eq_of_final (.inl hphase)
  exact ⟨x, hx, key, record, r', hfinds, hr', hid, hphase, hstate⟩

theorem completeRecord_ok {next : RecoveryCommandState} {r r' : JournalRecord}
    (h : completeRecord next r = .ok r') :
    r'.phase = .completed ∧ r'.command.state = next := by
  unfold completeRecord at h
  split at h
  case isTrue hr =>
    simp only [Bool.and_eq_true, decide_eq_true_eq] at hr
    exact Except.ok.inj h ▸ hr
  case isFalse =>
    split at h
    case isTrue =>
      obtain ⟨rfl, -⟩ := transition_ok h
      exact ⟨rfl, rfl⟩
    case isFalse => cases h

theorem recordAt_of_completed {key : Bytes} {next : RecoveryCommandState} {env : Environment}
    {s : Store} {completed : JournalRecord}
    (h : ((Transaction.completeStabilization key next).run env.fault env.audit s).1 =
      .ok completed) :
    ∃ r, recordAt (perform (.tx (.completeStabilization key next)) env s).2 key = some r ∧
      r.phase = .completed ∧ r.command.state = next := by
  have hbody : completeStabilization key next s = .ok (completed, _) := Transaction.run_ok h
  obtain ⟨r, document, -, hupdate, hwritten, hafter⟩ := updateRecord_ok.mp hbody
  obtain ⟨hphase, rfl⟩ := completeRecord_ok hupdate
  have hstored : (((Transaction.completeStabilization key completed.command.state).run env.fault
      env.audit s).2 .commandJournal)[key]? = some document := by
    rw [hafter, Function.update_self, Std.ExtTreeMap.getElem?_insert_self]
  obtain ⟨hp, hs⟩ :=
    norm_of_validRecordPhase (validateRecord_ok.mp hwritten.valid).2.2.2.2.1
  exact ⟨_, recordAt_of_written hstored hwritten, hp.trans hphase, hs⟩

section Runs

variable {s : Store} {actions : List (Action system)} (hclean : Clean s)
include hclean

theorem attested_of_completed {later earlier : List (Event interface)} {e : Event interface}
    (hlog : (run s actions).log = later ++ e :: earlier) {commandID : Bytes}
    {next : RecoveryCommandState} {tail : History}
    (hcompleted : Completed commandID next tail (history e.thread earlier)) :
    Attested (run s actions).log e.before commandID next := by
  generalize hhistory : history e.thread earlier = h at hcompleted
  cases hcompleted with
  | found key record env before _ hfound hphase hstate =>
    have hmem : ⟨_, env, before⟩ ∈ history e.thread earlier := hhistory ▸ List.mem_cons_self
    obtain ⟨x, hx, hxc, hafter, hsucceeds⟩ := succeeds_of_history hclean hlog hmem
    have hfinds : Finds x.toOccurrence commandID key record := ⟨env, before, hxc, hfound⟩
    obtain ⟨hsame, -, hloads, hid⟩ := hfinds.loads
    rw [← hxc] at hafter hsucceeds
    refine Attested.mono ⟨x, hx, key, record, record, hfinds, ?_, hid, hphase, hstate⟩ hafter
      hsucceeds
    rw [hsame]
    exact hloads.recordAt_eq
  | stored key record completed env env' before before' _ hfound hcompleted =>
    have hmem : ⟨_, env, before⟩ ∈ history e.thread earlier :=
      hhistory ▸ List.mem_cons_of_mem _ List.mem_cons_self
    have hmem' : ⟨_, env', before'⟩ ∈ history e.thread earlier := hhistory ▸ List.mem_cons_self
    obtain ⟨x, hx, hxc, hafter, hsucceeds⟩ := succeeds_of_history hclean hlog hmem
    obtain ⟨y, -, hyc, hafter', hsucceeds'⟩ := succeeds_of_history hclean hlog hmem'
    have hfinds : Finds x.toOccurrence commandID key record := ⟨env, before, hxc, hfound⟩
    obtain ⟨hsame, hkey, hloads, hid⟩ := hfinds.loads
    rw [← hxc] at hafter hsucceeds
    -- the ID is the one the scan saw, the state the one the completion stored
    obtain ⟨r, hr, hdescends⟩ := (hsucceeds hafter).2 key record hkey
      (by rw [hsame]; exact hloads.recordAt_eq)
    obtain ⟨r', hr', hphase, hstate⟩ := recordAt_of_completed hcompleted
    obtain ⟨r'', hr'', hdescends'⟩ := (hsucceeds' hafter').2 key r' hkey hr'
    obtain rfl := hdescends'.eq_of_final (.inl hphase)
    obtain rfl := Option.some.inj (hr.symm.trans hr'')
    refine ⟨x, hx, key, record, r, hfinds, hr, ?_, hphase, hstate⟩
    rw [hdescends.command]
    exact hid

end Runs

/-! ## What a stored result rests on -/

theorem Opened.base {calls : List Call} {request : Stabilization.Request}
    {base : Stabilization.ResultRecord} {now : Time} {h : History}
    (hopened : Opened calls request base now h) : Call.verify request ∈ calls ∧
      Stabilization.validateRequest request = .ok () ∧
      base.commandID = request.command.commandID ∧ base.attempt = request.attempt ∧
      base.outcome = .pending := by
  cases hopened with
  | intro env env' before before' found _ hcall hvalid _ hnamed hpending =>
    cases found with
    | none => exact ⟨hcall, hvalid, rfl, rfl, hpending⟩
    | some r => exact ⟨hcall, hvalid, (hnamed r rfl).1, (hnamed r rfl).2, hpending⟩

theorem Recorded.completed {calls : List Call} {record : Stabilization.ResultRecord} {h : History}
    (hrecorded : Recorded calls record h) {state : RecoveryCommandState}
    (hstate : commandStateOf record.outcome = some state) :
    ∃ tail, Completed record.commandID state tail h := by
  cases hrecorded with
  | counted request base now opened env before hopened =>
    change commandStateOf base.outcome = some state at hstate
    rw [hopened.base.2.2.2.2] at hstate
    cases hstate
  | succeeded request base now opened between h hopened hcompleted =>
    cases hstate
    exact ⟨_, hcompleted⟩
  | failed request base now reason retry opened between h hopened hcompleted =>
    cases hstate
    exact ⟨_, hcompleted⟩
  | retried request base now reason retry opened between h hopened _ hcompleted =>
    cases hstate
    exact ⟨_, hcompleted⟩

/-- The result schedules the next attempt of the request, which still is one. -/
structure RetryOf (request : Stabilization.Request) (r : Stabilization.ResultRecord) : Prop where
  commandID : r.commandID = request.command.commandID
  attempt : r.attempt = request.attempt
  next : r.nextAttempt.toInt = r.attempt.toInt + 1
  bounded : r.nextAttempt.toInt < request.retryPolicy.maxAttempts.toInt

theorem attempt_lt {request : Stabilization.Request}
    (h : Stabilization.validateRequest request = .ok ()) :
    0 ≤ request.attempt.toInt ∧ request.attempt.toInt < request.retryPolicy.maxAttempts.toInt := by
  unfold Stabilization.validateRequest at h
  split at h
  case isTrue hvalid =>
    simp only [Bool.and_eq_true, decide_eq_true_eq] at hvalid
    exact ⟨Int64.le_iff_toInt_le.mp hvalid.1.2, Int64.lt_iff_toInt_lt.mp hvalid.2⟩
  case isFalse => cases h

theorem Recorded.retryOf {calls : List Call} {record : Stabilization.ResultRecord} {h : History}
    (hrecorded : Recorded calls record h) (houtcome : record.outcome = .retryScheduled) :
    ∃ request, Call.verify request ∈ calls ∧ RetryOf request record := by
  cases hrecorded with
  | counted request base now opened env before hopened =>
    exact absurd (hopened.base.2.2.2.2.symm.trans houtcome) (by decide)
  | succeeded => cases houtcome
  | failed => cases houtcome
  | retried request base now reason retry opened between h hopened hattempts hcompleted =>
    obtain ⟨hcall, hvalid, hid, hattempt, -⟩ := hopened.base
    have hnext : (request.attempt + 1).toInt = request.attempt.toInt + 1 := by
      have hlt := (attempt_lt hvalid).2
      have hmax := request.retryPolicy.maxAttempts.toInt_lt
      have hmin := request.attempt.le_toInt
      rw [Int64.toInt_add, Int64.toInt_one]
      apply Int.bmod_eq_of_le
      · omega
      · omega
    refine ⟨request, hcall, hid, hattempt, ?_, Int64.lt_iff_toInt_lt.mp hattempts⟩
    rw [hnext]
    change _ = base.attempt.toInt + 1
    rw [hattempt]

theorem norm_result (r : Stabilization.ResultRecord) :
    (Stabilization.ResultRecord.codec.norm r).commandID = Utf8.toValidUTF8 r.commandID ∧
      (Stabilization.ResultRecord.codec.norm r).attempt = r.attempt ∧
      (Stabilization.ResultRecord.codec.norm r).healthySamples = r.healthySamples ∧
      (Stabilization.ResultRecord.codec.norm r).nextAttempt = r.nextAttempt ∧
      (Stabilization.ResultRecord.codec.norm r).outcome =
        Stabilization.Outcome.codec.norm r.outcome := ⟨rfl, rfl, rfl, rfl, rfl⟩

theorem norm_outcome {r : Stabilization.ResultRecord}
    (h : Stabilization.validateRecord r = .ok ()) :
    Stabilization.Outcome.codec.norm r.outcome = r.outcome := by
  unfold Stabilization.validateRecord at h
  split at h
  case isTrue hvalid =>
    simp only [Bool.and_eq_true] at hvalid
    cases houtcome : r.outcome with
    | other text unnamed =>
      rw [Stabilization.validOutcome, houtcome] at hvalid
      cases hvalid.2
    | _ => rfl
  case isFalse => cases h

theorem norm_commandID {log : List (Event interface)} {s : Store} {commandID : Bytes}
    {state : RecoveryCommandState} (hclean : ∀ x ∈ log, Clean x.before)
    (h : Attested log s commandID state) : Utf8.toValidUTF8 commandID = commandID := by
  obtain ⟨x, hx, key, record, -, hfinds, -⟩ := h
  obtain ⟨-, hkey, hloads, rfl⟩ := hfinds.loads
  exact congrArg (fun r => r.command.commandID)
    ((hclean x hx).sound hkey hloads.recordAt_eq).norm_eq

/-- What the journal and the calls say about a stored result. -/
structure Supported (calls : List Call) (log : List (Event interface)) (s : Store)
    (r : Stabilization.ResultRecord) : Prop where
  attested : ∀ state, commandStateOf r.outcome = some state → Attested log s r.commandID state
  retry : r.outcome = .retryScheduled → ∃ request, Call.verify request ∈ calls ∧ RetryOf request r

section Runs

variable {s : Store} {actions : List (Action system)} (hclean : Clean s)
include hclean

theorem supported_of_put {e : Event interface} {commandID document : Bytes} {attempt : Int64}
    {r : Stabilization.ResultRecord} (he : e ∈ (run s actions).log)
    (hop : e.op = Op.tx (.putResult commandID attempt document))
    (hr : content Stabilization.ResultRecord.codec document = some r) :
    Supported (spawned actions) (run s actions).log e.before r := by
  obtain ⟨later, earlier, hlog⟩ := List.append_of_mem he
  have hallowed := (guaranteed_of_run s actions).events later e earlier hlog
  rw [hop] at hallowed
  obtain ⟨record, hrecorded, rfl, rfl, hvalid, hmarshal⟩ := hallowed
  obtain rfl := Option.some.inj ((content_marshal hmarshal).symm.trans hr)
  obtain ⟨hid, hattempt, -, hnext, houtcome⟩ := norm_result record
  rw [norm_outcome hvalid] at houtcome
  have hattested : ∀ state, commandStateOf record.outcome = some state →
      Attested (run s actions).log e.before record.commandID state := by
    intro state hstate
    obtain ⟨tail, hcompleted⟩ := hrecorded.completed hstate
    exact attested_of_completed hclean hlog hcompleted
  have hnorm : ∀ state, commandStateOf record.outcome = some state →
      Utf8.toValidUTF8 record.commandID = record.commandID := fun state hstate =>
    norm_commandID (fun x hx => (clean_of_event hclean hx).1) (hattested state hstate)
  refine ⟨fun state hstate => ?_, fun hretry => ?_⟩
  · rw [houtcome] at hstate
    rw [hid, hnorm state hstate]
    exact hattested state hstate
  · rw [houtcome] at hretry
    obtain ⟨request, hcall, hretryOf⟩ := hrecorded.retryOf hretry
    have hfailed : commandStateOf record.outcome = some .failed := by
      rw [hretry]
      rfl
    refine ⟨request, hcall, ?_, ?_, ?_, ?_⟩
    · rw [hid, hnorm _ hfailed, hretryOf.commandID]
    · rw [hattempt, hretryOf.attempt]
    · rw [hattempt, hnext, hretryOf.next]
    · rw [hnext]
      exact hretryOf.bounded

theorem supported_of_run (hresults : s .stabilizationResults = ∅) {key : Bytes}
    {r : Stabilization.ResultRecord} (hr : resultAt (run s actions).state key = some r) :
    Supported (spawned actions) (run s actions).log (run s actions).state r := by
  have hinv := invariant_of_events (fun t => Clean t ∧ ∀ key r, resultAt t key = some r →
    Supported (spawned actions) (run s actions).log t r) ⟨hclean, ?_⟩ actions ?_ ?_
  · exact hinv.1.2 key r hr
  · intro key r hr
    rw [resultAt, hresults] at hr
    cases hr
  · rintro e he ⟨hbefore, hsupported⟩
    have heffect := perform_effect e.op e.answer e.before
    have hkept : ∀ r, Supported (spawned actions) (run s actions).log e.before r →
        Supported (spawned actions) (run s actions).log e.after r := fun r h =>
      ⟨fun state hstate => (h.attested state hstate).mono hbefore heffect.succeeds, h.retry⟩
    refine ⟨hbefore.effect heffect, fun key r hr => hkept r ?_⟩
    obtain heq | ⟨commandID, attempt, document, hop, heq⟩ :=
      perform_results e.op e.answer e.before
    · refine hsupported key r ?_
      rw [resultAt, ← heq]
      exact hr
    · change ((perform e.op e.answer e.before).2 .stabilizationResults)[key]?.bind _ = _ at hr
      rw [heq, Std.ExtTreeMap.getElem?_insert] at hr
      split at hr
      case isTrue => exact supported_of_put hclean he hop hr
      case isFalse => exact hsupported key r hr
  · rintro m t ⟨ht, hsupported⟩
    have heffect := move_effect .nothing m t
    refine ⟨ht.effect heffect, fun key r hr => ?_⟩
    rw [resultAt, move_owned m t rfl] at hr
    have h := hsupported key r hr
    exact ⟨fun state hstate => (h.attested state hstate).mono ht heffect.succeeds, h.retry⟩

/-- A command is completed with one state only, since every scan saw it under the same key. -/
theorem Attested.unique {commandID : Bytes} {state state' : RecoveryCommandState}
    (h : Attested (run s actions).log (run s actions).state commandID state)
    (h' : Attested (run s actions).log (run s actions).state commandID state') :
    state = state' := by
  obtain ⟨x, hx, key, record, r, hfinds, hr, -, -, rfl⟩ := h
  obtain ⟨x', hx', key', record', r', hfinds', hr', -, -, rfl⟩ := h'
  -- whichever scan came later would have seen both records
  have horder : ∀ {x x' key key' record record'}, x ∈ (run s actions).log →
      Finds (Event.toOccurrence x) commandID key record →
      Finds (Event.toOccurrence x') commandID key' record' →
      Succeeds (Occurrence.after (Event.toOccurrence x))
        (Occurrence.before (Event.toOccurrence x')) →
      key = key' := by
    intro x x' key key' record record' hx hfinds hfinds' hsucceeds
    obtain ⟨hsame, hkey, hloads, hid⟩ := hfinds.loads
    obtain ⟨r, hr, hdescends⟩ := (hsucceeds (clean_of_event hclean hx).2).2 key record hkey
      (by rw [hsame]; exact hloads.recordAt_eq)
    refine hfinds'.unique hkey hr ?_
    rw [hdescends.command]
    exact hid
  have hkey : key = key' := by
    rcases related_or_eq (succeeds_of_run s actions).2 hx hx' with rfl | hlater | hearlier
    · obtain ⟨-, hkey, hloads, hid⟩ := hfinds.loads
      exact hfinds'.unique hkey hloads.recordAt_eq hid
    · exact horder hx hfinds hfinds' hlater
    · exact (horder hx' hfinds' hfinds hearlier).symm
  subst hkey
  rw [Option.some.inj (hr.symm.trans hr')]

end Runs

/-! ## The result -/

/-- The journal has a record of this command in this state. -/
def CommandIn (s : Store) (commandID : Bytes) (state : RecoveryCommandState) : Prop :=
  ∃ key r, isRecordKey key = true ∧ recordAt s key = some r ∧ r.command.commandID = commandID ∧
    r.command.state = state

theorem Attested.commandIn {log : List (Event interface)} {s : Store} {commandID : Bytes}
    {state : RecoveryCommandState} (h : Attested log s commandID state) :
    CommandIn s commandID state := by
  obtain ⟨x, -, key, record, r, hfinds, hr, hid, -, hstate⟩ := h
  exact ⟨key, r, hfinds.loads.2.1, hr, hid, hstate⟩

/-- In every run each stored outcome agrees with the state of its command in the journal, no
command has results of both kinds, and a scheduled retry is an attempt its request still allows. -/
theorem results_agree_with_journal (s : Store) (hclean : Clean s)
    (hresults : s .stabilizationResults = ∅) (actions : List (Action system)) :
    (∀ key r, resultAt (run s actions).state key = some r →
      (r.outcome = .succeeded → CommandIn (run s actions).state r.commandID .succeeded) ∧
      (r.outcome = .failed ∨ r.outcome = .retryScheduled →
        CommandIn (run s actions).state r.commandID .failed) ∧
      (r.outcome = .retryScheduled →
        ∃ request, Call.verify request ∈ spawned actions ∧ RetryOf request r)) ∧
    ∀ key key' r r', resultAt (run s actions).state key = some r →
      resultAt (run s actions).state key' = some r' → r.commandID = r'.commandID →
      r.outcome = .succeeded → r'.outcome ≠ .failed ∧ r'.outcome ≠ .retryScheduled := by
  have hsupported : ∀ {key r}, resultAt (run s actions).state key = some r →
      Supported (spawned actions) (run s actions).log (run s actions).state r :=
    supported_of_run hclean hresults
  refine ⟨fun key r hr => ⟨fun h => ?_, fun h => ?_, (hsupported hr).retry⟩, ?_⟩
  · exact ((hsupported hr).attested .succeeded (by rw [h]; rfl)).commandIn
  · refine ((hsupported hr).attested .failed ?_).commandIn
    rcases h with h | h
    · rw [h]
      rfl
    · rw [h]
      rfl
  · intro key key' r r' hr hr' hid hsucceeded
    have hfirst := (hsupported hr).attested .succeeded (by rw [hsucceeded]; rfl)
    have hne : commandStateOf r'.outcome ≠ some .failed := by
      intro hfailed
      have hsecond := (hsupported hr').attested .failed hfailed
      rw [← hid] at hsecond
      exact absurd (hfirst.unique hclean hsecond) (by decide)
    refine ⟨fun h => hne ?_, fun h => hne ?_⟩
    · rw [h]
      rfl
    · rw [h]
      rfl

/-! ## One failed verification -/

def stabilizingRecord : JournalRecord :=
  (sampleRecord (lit "n") (lit "c")).moved .stabilizing .stabilizing

theorem clean_stabilizingRecord : Clean (sampleStore stabilizingRecord) :=
  clean_sampleStore (by decide +kernel) (by decide +kernel)

def sampleVerification : Stabilization.Request where
  command := stabilizingRecord.command
  target := sampleTarget (lit "c")
  policy := { recoverySamples := 1, window := 1 }
  retryPolicy := { maxAttempts := 2 }
  attempt := 0

def sampleStep (thread : Nat) (now : Time) (healthy : Bool) : Action system :=
  .step thread fun _ => sampleEnvironment now (lit "j") healthy

def failedVerification : List (Action system) :=
  .spawn (.verify sampleVerification) :: List.replicate 7 (sampleStep 0 2 false)

theorem failed_verification_agrees :
    (resultAt (run (sampleStore stabilizingRecord) failedVerification).state
        (Stabilization.resultKey (lit "i") 0)).map (·.outcome) = some .failed ∧
      CommandIn (run (sampleStore stabilizingRecord) failedVerification).state
        (lit "i") .failed := by
  have houtcome : (resultAt (run (sampleStore stabilizingRecord) failedVerification).state
      (Stabilization.resultKey (lit "i") 0)).map (fun r => (r.commandID, r.outcome)) =
      some (lit "i", .failed) := by decide +kernel
  obtain ⟨r, hr, hfields⟩ := Option.map_eq_some_iff.mp houtcome
  obtain ⟨hid, hfailed⟩ := Prod.mk.inj hfields
  refine ⟨by rw [hr, Option.map_some, hfailed], ?_⟩
  rw [← hid]
  exact ((results_agree_with_journal (sampleStore stabilizingRecord) clean_stabilizingRecord rfl
    failedVerification).1 _ r hr).2.1 (.inl hfailed)

end PulseAgent.Recovery
