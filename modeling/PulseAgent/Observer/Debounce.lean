import PulseAgent.Observer.Evaluate

/-!
# Debounce

After any history of samples the counters hold the length of the trailing run: the longest suffix
whose samples have one outcome and in which none is more than the window later than the one before.
-/

namespace PulseAgent.Observer

open Go Contract

variable {rule : ProbeRule}

/-! ## The trailing run -/

/-- The later sample is at most the window after the earlier one. -/
def Near (rule : ProbeRule) (earlier later : Sample) : Prop :=
  later.observedAt - earlier.observedAt ≤ rule.sloWindow.toInt

instance (earlier later : Sample) : Decidable (Near rule earlier later) :=
  inferInstanceAs (Decidable (_ ≤ _))

/-- Samples of one outcome without a gap. -/
structure Uniform (rule : ProbeRule) (failed : Bool) (run : List Sample) : Prop where
  outcome : ∀ sample ∈ run, sample.failed = failed
  near : run.IsChain (Near rule)

/-- The lengths of the runs a history ends with. -/
def runLengths (rule : ProbeRule) (failed : Bool) (history : List Sample) : Set Nat :=
  { n | ∃ run, run <:+ history ∧ run.length = n ∧ Uniform rule failed run }

/-- The length of the longest such run, of a history with the newest sample first. -/
def trailing (rule : ProbeRule) : List Sample → Nat
  | [] => 0
  | [_] => 1
  | newest :: previous :: older =>
    if newest.failed = previous.failed ∧ Near rule previous newest then
      trailing rule (previous :: older) + 1
    else 1

theorem uniform_concat {failed : Bool} {run : List Sample} {last : Sample} :
    Uniform rule failed (run ++ [last]) ↔ Uniform rule failed run ∧ last.failed = failed ∧
      ∀ previous ∈ run.getLast?, Near rule previous last := by
  constructor
  · rintro ⟨houtcome, hnear⟩
    obtain ⟨hrun, hlast⟩ := List.forall_mem_append.mp houtcome
    obtain ⟨hchain, -, hjoin⟩ := List.isChain_append.mp hnear
    exact ⟨⟨hrun, hchain⟩, hlast last (List.mem_singleton_self _),
      fun previous hprevious => hjoin previous hprevious last rfl⟩
  · rintro ⟨⟨houtcome, hnear⟩, hlast, hjoin⟩
    refine ⟨List.forall_mem_append.mpr ⟨houtcome, ?_⟩, List.isChain_append.mpr
      ⟨hnear, List.isChain_singleton _, ?_⟩⟩
    · intro sample hsample
      rw [List.mem_singleton.mp hsample, hlast]
    · rintro previous hprevious _ ⟨⟩
      exact hjoin previous hprevious

theorem mem_runLengths_concat {failed : Bool} {history : List Sample} {last : Sample} {n : Nat} :
    n ∈ runLengths rule failed (history ++ [last]) ↔
      n = 0 ∨ ∃ run, run <:+ history ∧ run.length + 1 = n ∧
        Uniform rule failed (run ++ [last]) := by
  simp only [runLengths, Set.mem_ofPred_eq, List.suffix_concat_iff]
  constructor
  · rintro ⟨run, rfl | ⟨init, rfl, hsuffix⟩, rfl, huniform⟩
    · exact .inl rfl
    · exact .inr ⟨init, hsuffix, by rw [List.length_append, List.length_singleton], huniform⟩
  · rintro (rfl | ⟨run, hsuffix, rfl, huniform⟩)
    · exact ⟨[], .inl rfl, rfl, nofun, List.isChain_nil⟩
    · exact ⟨run ++ [last],
        .inr ⟨run, rfl, hsuffix⟩, by rw [List.length_append, List.length_singleton],
        huniform⟩

theorem getLast_of_suffix {run history : List Sample} {last : Sample}
    (h : run <:+ history ++ [last]) : run = [] ∨ run.getLast? = some last := by
  rcases List.suffix_concat_iff.mp h with rfl | ⟨init, rfl, -⟩
  · exact .inl rfl
  · exact .inr List.getLast?_concat

theorem one_mem_runLengths (history : List Sample) (last : Sample) :
    1 ∈ runLengths rule last.failed (history ++ [last]) := by
  refine mem_runLengths_concat.mpr (.inr ⟨[], List.nil_suffix, rfl, uniform_concat.mpr
    ⟨⟨nofun, List.isChain_nil⟩, rfl, nofun⟩⟩)

theorem trailing_isGreatest (newest : Sample) (older : List Sample) :
    IsGreatest (runLengths rule newest.failed (newest :: older).reverse)
      (trailing rule (newest :: older)) := by
  induction older generalizing newest with
  | nil =>
    refine ⟨one_mem_runLengths [] newest, fun n hn => ?_⟩
    obtain ⟨run, hsuffix, rfl, -⟩ := hn
    exact hsuffix.length_le
  | cons previous older ih =>
    obtain ⟨hmem, hupper⟩ := ih previous
    rw [List.reverse_cons, List.reverse_cons] at *
    unfold trailing
    split_ifs with hclose
    · constructor
      · obtain ⟨run, hsuffix, hlength, huniform⟩ := hmem
        refine mem_runLengths_concat.mpr (.inr ⟨run, hsuffix, by rw [hlength], ?_⟩)
        rw [← hclose.1] at huniform
        refine uniform_concat.mpr ⟨huniform, rfl, fun last hlast => ?_⟩
        rcases getLast_of_suffix hsuffix with rfl | hprevious
        · cases hlast
        · rw [← Option.some.inj (hprevious.symm.trans hlast)]
          exact hclose.2
      · intro n hn
        rcases mem_runLengths_concat.mp hn with rfl | ⟨run, hsuffix, rfl, huniform⟩
        · exact Nat.zero_le _
        · rw [hclose.1] at huniform
          exact Nat.succ_le_succ (hupper ⟨run, hsuffix, rfl, (uniform_concat.mp huniform).1⟩)
    · refine ⟨one_mem_runLengths _ newest, fun n hn => ?_⟩
      rcases mem_runLengths_concat.mp hn with rfl | ⟨run, hsuffix, rfl, huniform⟩
      · exact Nat.zero_le _
      · rcases getLast_of_suffix hsuffix with rfl | hprevious
        · exact Nat.le_refl 1
        · obtain ⟨hrun, -, hnear⟩ := uniform_concat.mp huniform
          have houtcome := hrun.outcome previous (List.mem_of_getLast? hprevious)
          exact absurd ⟨houtcome.symm, hnear previous hprevious⟩ hclose

/-! ## The state keeps the trailing run -/

/-- What the state of a rule says about its samples, the newest first. The counters wrap round. -/
def Tracks (rule : ProbeRule) (state : RuleState) : List Sample → Prop
  | [] => state = {}
  | newest :: older => state.samples.getLast? = some newest ∧
      state.failures = .ofNat (if newest.failed then trailing rule (newest :: older) else 0) ∧
      state.recoveries = .ofNat (if newest.failed then 0 else trailing rule (newest :: older))

theorem sloWindow_pos (hrule : Target.ValidRule rule) : 0 < rule.sloWindow := by
  have hlow := Int64.le_trans hrule.interval.1 hrule.sloWindow.1
  exact Int64.lt_of_lt_of_le (by decide) hlow

theorem sloWindow_lt (hrule : Target.ValidRule rule) : rule.sloWindow < Int64.maxValue :=
  Int64.lt_of_le_of_lt hrule.sloWindow.2 (by decide)

/-- The cutoff lies before the newest sample, which trimming therefore keeps. -/
theorem getLast_trim (hrule : Target.ValidRule rule) (samples : List Sample) (newest : Sample) :
    (trim (newest.observedAt.add (-rule.sloWindow)) (samples ++ [newest])).getLast? =
      some newest := by
  have hcutoff : ¬newest.observedAt < newest.observedAt.add (-rule.sloWindow) :=
    Int.not_lt.mpr (Int.le_of_lt (Time.add_neg_lt _ (sloWindow_pos hrule)))
  have hkept : ∃ kept, (samples ++ [newest]).dropWhile (fun sample =>
      sample.observedAt < newest.observedAt.add (-rule.sloWindow)) = kept ++ [newest] := by
    rw [List.dropWhile_append]
    split_ifs with hall
    · refine ⟨[], ?_⟩
      rw [List.dropWhile_cons_of_neg (by simpa using hcutoff)]
      rfl
    · exact ⟨_, rfl⟩
  obtain ⟨kept, hkept⟩ := hkept
  simp only [trim, hkept]
  rw [List.getLast?_drop, if_neg]
  · exact List.getLast?_concat
  · rw [List.length_append, List.length_singleton, maxSamples]
    omega

theorem Tracks.next (hrule : Target.ValidRule rule) {state : RuleState} {history : List Sample}
    (h : Tracks rule state history) (newest : Sample) :
    Tracks rule (state.next rule newest.observedAt newest.failed) (newest :: history) := by
  have hsamples : (state.next rule newest.observedAt newest.failed).samples =
      trim (newest.observedAt.add (-rule.sloWindow))
        ((resetGap state rule newest.observedAt).samples ++ [newest]) := by
    simp only [RuleState.next]
  rw [Tracks, hsamples]
  refine ⟨getLast_trim hrule _ newest, ?_⟩
  cases history with
  | nil =>
    obtain rfl : state = {} := h
    cases newest.failed <;> exact ⟨rfl, rfl⟩
  | cons previous older =>
    obtain ⟨hlast, hfailures, hrecoveries⟩ := h
    -- the gap test sees the previous sample
    have hreset : resetGap state rule newest.observedAt =
        if Near rule previous newest then state
        else { state with failures := 0, recoveries := 0 } := by
      simp only [resetGap, hlast, Time.lt_sub_iff _ _ (sloWindow_lt hrule), Near, ← Int.not_lt,
        ite_not]
    have hfields : (resetGap state rule newest.observedAt).failures =
          (if Near rule previous newest then state.failures else 0) ∧
        (resetGap state rule newest.observedAt).recoveries =
          if Near rule previous newest then state.recoveries else 0 := by
      rw [hreset]
      split_ifs <;> exact ⟨rfl, rfl⟩
    simp only [RuleState.next, hfields, hfailures, hrecoveries, trailing]
    cases newest.failed <;> cases previous.failed <;> by_cases hnear : Near rule previous newest <;>
      simp [hnear, Int64.ofNat_add]

theorem le_ofNat_iff {bound : Int64} {n : Nat} (hn : n < 2 ^ 63) :
    bound ≤ .ofNat n ↔ bound.toInt ≤ n := by
  rw [Int64.le_iff_toInt_le, Int64.toInt_ofNat_of_lt hn]

/-- The sample counts of the newest run decide the verdict. -/
theorem verdict_of_tracks (hrule : Target.ValidRule rule) {state : RuleState} {newest : Sample}
    {older : List Sample} (h : Tracks rule state (newest :: older))
    (hbound : trailing rule (newest :: older) < 2 ^ 63) :
    (state.verdict rule = .unhealthy ↔ newest.failed = true ∧
      rule.consecutiveFailures.toInt ≤ trailing rule (newest :: older)) ∧
    (state.verdict rule = .healthy ↔ newest.failed = false ∧
      rule.recoverySamples.toInt ≤ trailing rule (newest :: older)) ∧
    (state.verdict rule = .unknown ↔
      ¬(newest.failed = true ∧
        rule.consecutiveFailures.toInt ≤ trailing rule (newest :: older)) ∧
      ¬(newest.failed = false ∧
        rule.recoverySamples.toInt ≤ trailing rule (newest :: older))) := by
  obtain ⟨-, hfailures, hrecoveries⟩ := h
  have hconsecutive : 1 ≤ rule.consecutiveFailures.toInt :=
    Int64.le_iff_toInt_le.mp hrule.consecutiveFailures
  have hrecovery : 1 ≤ rule.recoverySamples.toInt := Int64.le_iff_toInt_le.mp hrule.recoverySamples
  have hlt : (if newest.failed then trailing rule (newest :: older) else 0) < 2 ^ 63 := by
    split_ifs
    · exact hbound
    · exact Nat.two_pow_pos 63
  have hlt' : (if newest.failed then 0 else trailing rule (newest :: older)) < 2 ^ 63 := by
    split_ifs
    · exact Nat.two_pow_pos 63
    · exact hbound
  simp only [RuleState.verdict, hfailures, hrecoveries, le_ofNat_iff hlt, le_ofNat_iff hlt']
  -- both bounds are positive, so the counter that is zero meets neither
  cases newest.failed <;> simp only [Bool.false_eq_true, if_true, if_false] <;>
    split_ifs <;> simp <;> omega

/-! ## Histories of a scheduler -/

structure Call where
  targetID : Bytes
  rule : ProbeRule
  sample : Sample

def Scheduler.evaluateAll (s : Scheduler) (calls : List Call) : Scheduler :=
  calls.foldl (fun s call =>
    (s.evaluate call.targetID call.rule call.sample.observedAt call.sample.failed).2) s

def samplesOf (targetID ruleID : Bytes) (calls : List Call) : List Sample :=
  (calls.filter fun call => call.targetID = targetID ∧ call.rule.ruleID = ruleID).map Call.sample

/-- A call with a target of a registry that holds the rule: identifiers are checked, and the
identifiers of a target and a rule name one rule. -/
structure Call.Registered (targetID : Bytes) (rule : ProbeRule) (call : Call) : Prop where
  identifier : Target.validIdentifier call.targetID = true
  same : call.targetID = targetID → call.rule.ruleID = rule.ruleID → call.rule = rule

theorem slash_not_mem {value : Bytes} (h : Target.validIdentifier value = true) :
    (47 : UInt8) ∉ value := by
  simp only [Target.validIdentifier, Bool.and_eq_true] at h
  obtain ⟨⟨-, hmatches⟩, -⟩ := h
  cases value with
  | nil => exact List.not_mem_nil
  | cons first rest =>
    simp only [Target.matchesIdentifier, Bool.and_eq_true] at hmatches
    obtain ⟨⟨hfirst, -⟩, hrest⟩ := hmatches
    rintro (_ | ⟨_, hmem⟩)
    · exact absurd hfirst (by decide)
    · exact absurd (List.all_eq_true.mp hrest 47 hmem) (by decide)

theorem ruleKey_inj {targetID targetID' ruleID ruleID' : Bytes}
    (h : Target.validIdentifier targetID = true) (h' : Target.validIdentifier targetID' = true)
    (hkey : ruleKey targetID ruleID = ruleKey targetID' ruleID') :
    targetID = targetID' ∧ ruleID = ruleID' :=
  Strings.append_sep_inj (slash_not_mem h) (slash_not_mem h') hkey

theorem Scheduler.tracks_evaluate {s : Scheduler} {targetID : Bytes} {history : List Sample}
    {call : Call} (hrule : Target.ValidRule rule) (htarget : Target.validIdentifier targetID = true)
    (hcall : call.Registered targetID rule)
    (h : Tracks rule (s.states (ruleKey targetID rule.ruleID)) history) :
    Tracks rule ((s.evaluate call.targetID call.rule call.sample.observedAt
        call.sample.failed).2.states (ruleKey targetID rule.ruleID))
      ((samplesOf targetID rule.ruleID [call]).reverse ++ history) := by
  by_cases hsame : call.targetID = targetID ∧ call.rule.ruleID = rule.ruleID
  · have hcallRule := hcall.same hsame.1 hsame.2
    simp only [Scheduler.evaluate, samplesOf, List.filter_cons, hsame, hcallRule]
    simpa using h.next hrule call.sample
  · have hkey : ruleKey targetID rule.ruleID ≠ ruleKey call.targetID call.rule.ruleID :=
      fun hkey => hsame ((ruleKey_inj htarget hcall.identifier hkey).imp Eq.symm Eq.symm)
    simpa [Scheduler.evaluate, samplesOf, hsame, Function.update_of_ne hkey] using h

theorem Scheduler.tracks_evaluateAll {targetID : Bytes} (hrule : Target.ValidRule rule)
    (htarget : Target.validIdentifier targetID = true) (calls : List Call)
    (hcalls : ∀ call ∈ calls, call.Registered targetID rule) :
    Tracks rule ((Scheduler.evaluateAll {} calls).states (ruleKey targetID rule.ruleID))
      (samplesOf targetID rule.ruleID calls).reverse := by
  induction calls using List.reverseRecOn with
  | nil => rfl
  | append_singleton calls call ih =>
    obtain ⟨hbefore, hcall⟩ := List.forall_mem_append.mp hcalls
    have hstep := tracks_evaluate hrule
      htarget (hcall call (List.mem_singleton_self _)) (ih hbefore)
    rw [Scheduler.evaluateAll, List.foldl_concat]
    simpa only [Scheduler.evaluateAll, samplesOf, List.filter_append, List.map_append,
      List.reverse_append] using hstep

/-- `evaluate` answers for the longest run the whole history ends with, whatever was trimmed, as
long as an `int` counts that run. -/
theorem evaluate_trailing_run {rule : ProbeRule} {targetID : Bytes} {calls : List Call}
    (hrule : Target.validateProbeRule rule = .ok ())
    (htarget : Target.validIdentifier targetID = true)
    (hcalls : ∀ call ∈ calls, call.Registered targetID rule) (last : Sample) {r : Nat}
    (hr : IsGreatest
      (runLengths rule last.failed (samplesOf targetID rule.ruleID calls ++ [last])) r)
    (hbound : r < 2 ^ 63) :
    let result := ((Scheduler.evaluateAll {} calls).evaluate targetID rule last.observedAt
      last.failed).1
    (result = .unhealthy ↔ last.failed = true ∧ rule.consecutiveFailures.toInt ≤ r) ∧
    (result = .healthy ↔ last.failed = false ∧ rule.recoverySamples.toInt ≤ r) ∧
    (result = .unknown ↔ ¬(last.failed = true ∧ rule.consecutiveFailures.toInt ≤ r) ∧
      ¬(last.failed = false ∧ rule.recoverySamples.toInt ≤ r)) := by
  have hvalid := Target.valid_of_validateProbeRule hrule
  have htracks := (Scheduler.tracks_evaluateAll hvalid htarget calls hcalls).next hvalid last
  have hgreatest := @trailing_isGreatest rule last
    (samplesOf targetID rule.ruleID calls).reverse
  rw [List.reverse_cons, List.reverse_reverse] at hgreatest
  obtain rfl := hr.unique hgreatest
  exact verdict_of_tracks hvalid htracks hbound

def sampleRule (ruleID : Bytes) : ProbeRule :=
  { ruleID
    signalType := lit "availability"
    interval := 60000000000
    timeout := 5000000000
    threshold := .finite (.normalize false 1 0)
    consecutiveFailures := 2
    recoverySamples := 2
    sloWindow := 300000000000
    severity := .warning }

theorem evaluate_trailing_run_unhealthy :
    ((Scheduler.evaluateAll {} [⟨lit "api", sampleRule (lit "up"), ⟨100000000000, true⟩⟩]).evaluate
      (lit "api") (sampleRule (lit "up")) 200000000000 true).1 = .unhealthy := by
  refine (evaluate_trailing_run (by decide +kernel) (by decide +kernel) ?_ ⟨200000000000, true⟩
    (trailing_isGreatest _ [⟨100000000000, true⟩]) (by decide)).1.mpr ⟨rfl, by decide⟩
  exact List.forall_mem_singleton.mpr ⟨by decide +kernel, fun _ _ => rfl⟩

end PulseAgent.Observer
