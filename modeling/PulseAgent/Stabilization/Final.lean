import PulseAgent.Stabilization.Results

/-!
# Results that stay

If no other call stores a result under the same key between load and store, a final outcome is never
replaced and every counted sample adds one to the stored number.
-/

namespace PulseAgent.Recovery

open Go Go.Json Contract Concurrent

theorem loadResult_found {commandID : Bytes} {attempt : Int64} {s s' : Store}
    {found : Option Stabilization.ResultRecord}
    (h : Stabilization.loadResult commandID attempt s = .ok (found, s')) :
    resultAt s (Stabilization.resultKey commandID attempt) = found := by
  unfold Stabilization.loadResult at h
  obtain ⟨-, h⟩ := Tx.bind_get_ok.mp h
  unfold resultAt
  cases hdocument : (s .stabilizationResults)[Stabilization.resultKey commandID attempt]? with
  | none =>
    rw [hdocument] at h
    cases h
    rfl
  | some document =>
    rw [hdocument] at h
    dsimp only at h
    cases hdecode : decode Stabilization.ResultRecord.codec
        ⟨Stabilization.maxStabilizationDocSize, schemaVersionV1, Stabilization.validateRecord⟩
        document with
    | error e =>
      rw [hdecode] at h
      cases h
    | ok record =>
      rw [hdecode] at h
      cases h
      exact (content_of_decode hdecode).1

def storesResult (key : Bytes) : Op → Bool
  | .tx (.putResult commandID attempt _) => Stabilization.resultKey commandID attempt = key
  | _ => false

/-- No call stores a result that another call is about to replace: between the load and the
store of a call nothing else is stored under their key. -/
def Exclusive (log : List (Event interface)) : Prop :=
  ∀ later e middle x rest commandID attempt document, log = later ++ e :: (middle ++ x :: rest) →
    e.op = Op.tx (.putResult commandID attempt document) → x.thread = e.thread →
    x.op = Op.tx (.loadResult commandID attempt) →
    ∀ y ∈ middle, storesResult (Stabilization.resultKey commandID attempt)
      (Event.toOccurrence y).op =
      false

theorem eq_of_not_stores {key : Bytes} {e : Occurrence interface}
    (h : storesResult key e.op = false) :
    (e.after .stabilizationResults)[key]? = (e.before .stabilizationResults)[key]? := by
  change ((perform e.op e.answer e.before).2 .stabilizationResults)[key]? = _
  obtain heq | ⟨commandID, attempt, document, hop, heq⟩ := perform_results e.op e.answer e.before
  · rw [heq]
  · rw [hop, storesResult, decide_eq_false_iff_not] at h
    rw [heq, Std.ExtTreeMap.getElem?_insert, if_neg]
    intro hkey
    exact h (Std.LawfulEqCmp.eq_of_compare hkey)

def samplesAt (s : Store) (key : Bytes) : Int :=
  ((resultAt s key).map fun r => r.healthySamples.toInt).getD 0

theorem samples_add_one {record base : Stabilization.ResultRecord}
    (hvalid : Stabilization.validateRecord record = .ok ())
    (h : record.healthySamples = base.healthySamples + 1) :
    record.healthySamples.toInt = base.healthySamples.toInt + 1 := by
  unfold Stabilization.validateRecord at hvalid
  split at hvalid
  case isTrue hfields =>
    simp only [Bool.and_eq_true, decide_eq_true_eq] at hfields
    have hlow := Int64.le_iff_toInt_le.mp hfields.1.1.1.2
    have hmin := base.healthySamples.le_toInt
    have hmax := base.healthySamples.toInt_lt
    rw [h, Int64.toInt_add, Int64.toInt_one] at hlow ⊢
    rw [Int64.toInt_zero] at hlow
    -- the sum does not wrap round, since a stored number of samples is not negative
    by_cases hwrap : base.healthySamples.toInt + 1 < 2 ^ 63
    · apply Int.bmod_eq_of_le
      · omega
      · omega
    · have heq : base.healthySamples.toInt + 1 = 2 ^ 63 := by omega
      rw [heq] at hlow
      exact absurd hlow (by decide)
  case isFalse => cases hvalid

section Runs

variable {s : Store} {actions : List (Action system)}

theorem Opened.current (hexclusive : Exclusive (run s actions).log)
    {later earlier : List (Event interface)} {e : Event interface}
    (hlog : (run s actions).log = later ++ e :: earlier) {request : Stabilization.Request}
    {base : Stabilization.ResultRecord} {now : Time} {between opened : History}
    {document : Bytes} (hopened : Opened (spawned actions) request base now opened)
    (hhistory : history e.thread earlier = between ++ opened)
    (hop : e.op = Op.tx (.putResult request.command.commandID request.attempt document)) :
    base = (resultAt e.before (Stabilization.resultKey request.command.commandID
      request.attempt)).getD (Stabilization.newRecord request now) := by
  cases hopened with
  | intro env env' before before' found h hcall hvalid hfound hnamed hpending =>
    have hmem : ⟨.tx (.loadResult request.command.commandID request.attempt), env', before'⟩ ∈
        history e.thread earlier := by
      rw [hhistory]
      simp
    obtain ⟨x, hx, hxc, hthread⟩ := mem_of_mem_history hmem
    obtain ⟨middle, rest, rfl⟩ := List.append_of_mem hx
    have hkept := eq_of_between (S := system)
      (fun s => (s .stabilizationResults)[Stabilization.resultKey request.command.commandID
        request.attempt]?) (fun m s => by rw [move_owned m s rfl]) hlog fun y hy =>
        eq_of_not_stores (hexclusive later e middle x rest _ _ document hlog hop hthread
          (by rw [hxc]) y hy)
    have hbody : Stabilization.loadResult request.command.commandID request.attempt before' =
        .ok (found, _) := Transaction.run_ok hfound
    have hafter : x.after = before' := by
      rw [hxc]
      exact Stabilization.loadResult_ok hbody
    rw [hafter] at hkept
    rw [resultAt, hkept, ← resultAt, loadResult_found hbody]

theorem Recorded.current (hexclusive : Exclusive (run s actions).log)
    {later earlier : List (Event interface)} {e : Event interface}
    (hlog : (run s actions).log = later ++ e :: earlier) {record : Stabilization.ResultRecord}
    {document : Bytes} (hrecorded : Recorded (spawned actions) record (history e.thread earlier))
    (hop : e.op = Op.tx (.putResult record.commandID record.attempt document)) :
    ∃ base request now, base = (resultAt e.before
        (Stabilization.resultKey record.commandID record.attempt)).getD
          (Stabilization.newRecord request now) ∧ base.outcome = .pending ∧
      (commandStateOf record.outcome ≠ some .failed →
        record.healthySamples = base.healthySamples + 1) := by
  generalize hhistory : history e.thread earlier = h at hrecorded
  have hcurrent : ∀ {request base now between opened},
      Opened (spawned actions) request base now opened → h = between ++ opened →
      record.commandID = base.commandID → record.attempt = base.attempt →
      base = (resultAt e.before (Stabilization.resultKey record.commandID record.attempt)).getD
        (Stabilization.newRecord request now) := by
    intro request base now between opened hopened hsplit hid hattempt
    obtain ⟨-, -, hid', hattempt', -⟩ := hopened.base
    rw [hid, hattempt, hid', hattempt'] at hop ⊢
    exact hopened.current hexclusive hlog (hhistory.trans hsplit) hop
  have hsplit : ∀ {commandID next between opened}, Completed commandID next (between ++ opened) h →
      ∃ between', h = between' ++ opened := by
    intro commandID next between opened hcompleted
    cases hcompleted with
    | found => exact ⟨_ :: between, rfl⟩
    | stored => exact ⟨_ :: _ :: between, rfl⟩
  cases hrecorded with
  | counted request base now opened env before hopened =>
    exact ⟨base, request, now, @hcurrent request base now [_] _ hopened rfl rfl rfl,
      hopened.base.2.2.2.2, fun _ => rfl⟩
  | succeeded request base now opened between h hopened hcompleted =>
    obtain ⟨between', hbetween⟩ := hsplit hcompleted
    exact ⟨base, request, now, hcurrent hopened hbetween rfl rfl, hopened.base.2.2.2.2,
      fun _ => rfl⟩
  | failed request base now reason retry opened between h hopened hcompleted =>
    obtain ⟨between', hbetween⟩ := hsplit hcompleted
    exact ⟨base, request, now, hcurrent hopened hbetween rfl rfl, hopened.base.2.2.2.2,
      fun hne => absurd rfl hne⟩
  | retried request base now reason retry opened between h hopened _ hcompleted =>
    obtain ⟨between', hbetween⟩ := hsplit hcompleted
    exact ⟨base, request, now, hcurrent hopened hbetween rfl rfl, hopened.base.2.2.2.2,
      fun hne => absurd rfl hne⟩

end Runs

/-! ## The result -/

/-- If no call stores a result while another is between its load and its store under the same
key, no step changes a final result, and each sample a call counts is one more than were stored
before. -/
theorem results_final_of_exclusive (s : Store) (actions : List (Action system))
    (hexclusive : Exclusive (run s actions).log) (e : Event interface)
    (he : e ∈ (run s actions).log) :
    (∀ key r, resultAt e.before key = some r → commandStateOf r.outcome ≠ none →
      (e.after .stabilizationResults)[key]? = (e.before .stabilizationResults)[key]?) ∧
    ∀ commandID attempt document r, e.op = Op.tx (.putResult commandID attempt document) →
      content Stabilization.ResultRecord.codec document = some r →
      commandStateOf r.outcome ≠ some .failed →
      r.healthySamples.toInt =
        samplesAt e.before (Stabilization.resultKey commandID attempt) + 1 := by
  obtain ⟨later, earlier, hlog⟩ := List.append_of_mem he
  have hallowed := (guaranteed_of_run s actions).events later e earlier hlog
  refine ⟨fun key r hr hfinal => ?_, fun commandID attempt document r hop hr hcounted => ?_⟩
  · by_cases hstores : storesResult key e.op = false
    · exact eq_of_not_stores hstores
    · -- a call that stores under this key would have loaded the final result
      obtain heq | ⟨commandID, attempt, document, hop, heq⟩ :=
        perform_results e.op e.answer e.before
      · exact congrArg (fun results : Collection => results[key]?) heq
      · rw [hop, storesResult, decide_eq_false_iff_not, not_not] at hstores
        subst hstores
        rw [hop] at hallowed
        obtain ⟨record, hrecorded, rfl, rfl, -, -⟩ := hallowed
        obtain ⟨base, request, now, hbase, hpending, -⟩ := hrecorded.current hexclusive hlog hop
        rw [hr, Option.getD_some] at hbase
        rw [hbase] at hpending
        rw [hpending] at hfinal
        exact absurd rfl hfinal
  · rw [hop] at hallowed
    obtain ⟨record, hrecorded, rfl, rfl, hvalid, hmarshal⟩ := hallowed
    obtain rfl := Option.some.inj ((content_marshal hmarshal).symm.trans hr)
    obtain ⟨-, -, hsamples, -, houtcome⟩ := norm_result record
    rw [houtcome, norm_outcome hvalid] at hcounted
    obtain ⟨base, request, now, hbase, -, hadded⟩ := hrecorded.current hexclusive hlog hop
    have hsum := samples_add_one hvalid (hadded hcounted)
    rw [hsamples, hsum, hbase, samplesAt]
    cases resultAt e.before (Stabilization.resultKey record.commandID record.attempt) with
    | none => rfl
    | some r => rfl

def isPutResult : Op → Bool
  | .tx (.putResult ..) => true
  | _ => false

theorem isPutResult_of_stores {key : Bytes} {o : Op} (h : storesResult key o = true) :
    isPutResult o = true := by
  unfold storesResult at h
  split at h
  case h_1 => rfl
  case h_2 => cases h

/-- Where calls follow one another and each stores one result at most, nothing comes in between a
call's load and its store. -/
theorem exclusive_of_sequential {log : List (Event interface)}
    (h : (log.Pairwise fun a b => b.thread ≤ a.thread) ∧
      ((log.filter fun e => isPutResult e.op).map (·.thread)).Nodup) : Exclusive log := by
  obtain ⟨hordered, hsingle⟩ := h
  intro later e middle x rest commandID attempt document hlog hop hthread _ y hy
  cases hstores : storesResult (Stabilization.resultKey commandID attempt) y.op with
  | false => rfl
  | true =>
    have hfirst : isPutResult e.op = true := by
      rw [hop]
      rfl
    have hsecond := isPutResult_of_stores hstores
    obtain ⟨first, second, rfl⟩ := List.append_of_mem hy
    rw [hlog] at hordered hsingle
    have hafter := (List.pairwise_cons.mp (List.pairwise_append.mp hordered).2.1)
    have hle : y.thread ≤ e.thread := hafter.1 y (by simp)
    have hge : x.thread ≤ y.thread := by
      have hrest := hafter.2
      rw [List.append_assoc, List.cons_append] at hrest
      exact (List.pairwise_cons.mp (List.pairwise_append.mp hrest).2.1).1 x (by simp)
    -- the call of `e` would have stored twice
    have hsame : y.thread = e.thread := by omega
    simp only [List.filter_append, List.filter_cons, hfirst, hsecond, if_true, List.map_append,
      List.map_cons, List.append_assoc, List.cons_append] at hsingle
    have hnodup := (List.nodup_append.mp hsingle).2.1
    refine absurd ?_ (List.nodup_cons.mp hnodup).1
    rw [hsame]
    simp

/-- Three calls one after the other: the first counts a healthy sample, the second counts another
at the end of the window and completes, and the third comes with an unhealthy target. -/
def repeatedVerification : List (Action system) :=
  List.replicate 3 (.spawn (.verify sampleVerification)) ++
    List.replicate 7 (sampleStep 0 2 true) ++ List.replicate 7 (sampleStep 1 3 true) ++
    List.replicate 7 (sampleStep 2 4 false)

theorem repeated_verification_final :
    ((run (sampleStore stabilizingRecord) repeatedVerification).log.reverse.filter fun e =>
        e.thread = 2 || isPutResult e.op).map (fun e => (e.thread,
        (resultAt e.before (Stabilization.resultKey (lit "i") 0)).map fun r =>
          (r.outcome, r.healthySamples))) =
      [(0, none), (1, some (.pending, 1)), (2, some (.succeeded, 2)), (2, some (.succeeded, 2))] ∧
    ∀ e ∈ (run (sampleStore stabilizingRecord) repeatedVerification).log,
      (∀ key r, resultAt e.before key = some r → commandStateOf r.outcome ≠ none →
        (e.after .stabilizationResults)[key]? = (e.before .stabilizationResults)[key]?) ∧
      ∀ commandID attempt document r, e.op = Op.tx (.putResult commandID attempt document) →
        content Stabilization.ResultRecord.codec document = some r →
        commandStateOf r.outcome ≠ some .failed →
        r.healthySamples.toInt =
          samplesAt e.before (Stabilization.resultKey commandID attempt) + 1 :=
  ⟨by decide +kernel, results_final_of_exclusive (sampleStore stabilizingRecord)
    repeatedVerification (exclusive_of_sequential (by decide +kernel))⟩

/-! ## Two calls at once -/

/-- A call counts a healthy sample, and before it stores that another one fails. -/
def staleVerification : List (Action system) :=
  [.spawn (.verify sampleVerification), .spawn (.verify sampleVerification)] ++
    List.replicate 3 (sampleStep 0 2 true) ++ List.replicate 7 (sampleStep 1 2 false)

def doubleVerification : List (Action system) :=
  [.spawn (.verify sampleVerification), .spawn (.verify sampleVerification)] ++
    List.replicate 3 (sampleStep 0 2 true) ++ List.replicate 4 (sampleStep 1 2 true) ++
    [sampleStep 0 2 true]

/-- A stale call brings a failed result back to pending, and of two samples counted at the same
time one is lost. -/
theorem stale_verification_overwrites :
    (resultAt (run (sampleStore stabilizingRecord) staleVerification).state
        (Stabilization.resultKey (lit "i") 0)).map (·.outcome) = some .failed ∧
      (resultAt (run (sampleStore stabilizingRecord)
          (staleVerification ++ [sampleStep 0 2 true])).state
        (Stabilization.resultKey (lit "i") 0)).map (·.outcome) = some .pending ∧
      (((run (sampleStore stabilizingRecord) doubleVerification).log.filter fun e =>
        storesResult (Stabilization.resultKey (lit "i") 0) e.op).length = 2 ∧
      (resultAt (run (sampleStore stabilizingRecord) doubleVerification).state
        (Stabilization.resultKey (lit "i") 0)).map (·.healthySamples) = some 1) := by
  decide +kernel

end PulseAgent.Recovery
