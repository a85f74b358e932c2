import PulseAgent.Stabilization.Cadence

/-!
# The instant of success

A window that has taken its samples ends well only if a call reads exactly the deadline: before it
no call completes the command, and after it every call is a timeout.
-/

namespace PulseAgent.Stabilization

open Go Go.Json Contract Concurrent
open Recovery (interface Environment exec_call_bind)

def after (request : Request) : List (Answers interface) → Store → Store
  | [], s => s
  | answers :: rest, s => after request rest ((verify request).exec answers s).state

/-- Every call of a sequence reads a time before the deadline of the record it finds. -/
def Early (request : Request) : List (Answers interface) → Store → Prop
  | [], _ => True
  | answers :: rest, s =>
    (∀ record, loadResult request.command.commandID request.attempt s = .ok (some record, s) →
      reading answers < record.startedAt.add request.policy.window) ∧
    Early request rest ((verify request).exec answers s).state

/-- A call returns success and leaves the command succeeded. -/
structure Recognised (request : Request) (answers : Answers interface) (s : Store) : Prop where
  error : ((verify request).exec answers s).value.2 = none
  outcome : ((verify request).exec answers s).value.1.outcome = .succeeded
  command : Recovery.CommandIn ((verify request).exec answers s).state
    request.command.commandID .succeeded

/-! ## Within the window -/

/-- The attempt has a pending record or none, and its command waits in the journal. -/
structure Underway (request : Request) (s : Store) (found : Option ResultRecord) : Prop where
  awaiting : Awaiting s request.command.commandID
  held : Held request s found
  pending : ∀ record, found = some record → Pending request record

section Window

variable {request : Request} {answers : Answers interface} {s : Store} {record : ResultRecord}
  {found : Option ResultRecord}

theorem Underway.loadResult (h : Underway request s found) :
    Stabilization.loadResult request.command.commandID request.attempt s = .ok (found, s) :=
  h.held.loadResult (fun record hfound => (h.pending record hfound).plain) h.awaiting.readableID.2

theorem Underway.printable (h : Underway request s (some record)) :
    ∃ text, record.startedAt.format = some text := by
  obtain ⟨document, hmarshal, -⟩ := h.held.stored
  exact (marshal_plain_iff (h.pending record rfl).plain).mp ⟨document, hmarshal⟩

theorem lt_add_window (hrequest : validateRequest request = .ok ()) (now : Time) :
    now < now.add request.policy.window := by
  have hwindow : 0 < request.policy.window := by
    unfold validateRequest at hrequest
    split at hrequest
    case isTrue h =>
      simp only [Bool.and_eq_true, decide_eq_true_eq] at h
      exact h.1.1.1.2
    case isFalse => cases hrequest
  exact Int.lt_add_of_pos_right now (Int64.lt_iff_toInt_lt.mp hwindow)

theorem Underway.working (h : Underway request s found)
    (hrequest : validateRequest request = .ok ())
    (hclock : (reading answers).isZero = false)
    (hearly : ∀ record, found = some record →
      reading answers < record.startedAt.add request.policy.window) :
    ∃ record, found.getD (newRecord request (reading answers)) = record ∧ Pending request record ∧
      samplesOf found = record.healthySamples.toInt ∧
      reading answers < record.startedAt.add request.policy.window := by
  cases found with
  | none =>
    exact ⟨_, rfl, pending_newRecord hrequest hclock, rfl, lt_add_window hrequest _⟩
  | some record => exact ⟨record, rfl, h.pending record rfl, rfl, hearly record rfl⟩

theorem sample_kept {now deadline : Time} (hnow : now < deadline)
    (hpersist : ∃ e, (persist (counted record)).exec answers s = ⟨.error e, s, []⟩) :
    ((succeedSample request record now deadline).exec answers s).state = s := by
  obtain ⟨f, hsample, -, herror⟩ := @succeedSample_of_not request record now deadline
    fun h => h.2 hnow
  obtain ⟨e, hexec⟩ := hpersist
  rw [hsample, (Prog.exec_bind_of hexec).2, herror]
  rfl

theorem underway_step (hrequest : validateRequest request = .ok ())
    (hhealthy : Healthy request answers)
    (h : Underway request s found)
    (hearly : ∀ record, found = some record →
      reading answers < record.startedAt.add request.policy.window) :
    ∃ found', Underway request ((verify request).exec answers s).state found' := by
  obtain ⟨record, hrecord, hpending, hsamples, htime⟩ := h.working hrequest hhealthy.clock hearly
  have hopen : Open found := fun record hfound => (h.pending record hfound).outcome
  by_cases hstores : record.healthySamples.toInt < 256 ∧ ∃ text, record.startedAt.format = some text
  · have hstep := stepped_of_room hrequest hhealthy h.awaiting h.loadResult h.held hopen
      hrecord hpending
      hsamples (le_of_lt htime) hstores.1 hstores.2
    obtain ⟨hsampled, hawaiting⟩ := hstep.pending fun hcompletes => not_le.mpr htime hcompletes.2
    refine ⟨some (counted record), hawaiting, hsampled, ?_⟩
    rintro _ ⟨⟩
    exact pending_counted hpending hstores.1
  · have hstate : ((verify request).exec answers s).state = s := by
      rw [(verify_exec hrequest hhealthy h.loadResult h.held hrecord hpending.outcome
        (not_lt.mpr (le_of_lt htime))).2]
      refine sample_kept htime ?_
      by_cases hroom : record.healthySamples.toInt < 256
      · refine persist_exec_unwritable
          (Option.eq_none_iff_forall_ne_some.mpr fun document hmarshal => ?_)
        exact hstores ⟨hroom, (@marshal_plain_iff (counted record) hpending.plain).mp ⟨_, hmarshal⟩⟩
      · exact ⟨_, persist_exec_invalid fun hvalid =>
          hroom ((validateRecord_counted_iff hpending).mp hvalid)⟩
    rw [hstate]
    exact ⟨found, h⟩

theorem underway_after (hrequest : validateRequest request = .ok ())
    {calls : List (Answers interface)}
    (hhealthy : ∀ a ∈ calls, Healthy request a) (h : Underway request s found)
    (hearly : Early request calls s) : ∃ found',
      Underway request (after request calls s) found' := by
  induction calls generalizing s found with
  | nil => exact ⟨found, h⟩
  | cons answers rest ih =>
    obtain ⟨hfirst, hrest⟩ := hearly
    obtain ⟨found', hstep⟩ := underway_step hrequest (hhealthy _ List.mem_cons_self) h
      fun record hfound => hfirst record (by rw [← hfound]; exact h.loadResult)
    exact ih (fun a ha => hhealthy a (List.mem_cons_of_mem _ ha)) hstep hrest

end Window

/-! ## After the deadline -/

section Timeout

variable {request : Request} {answers : Answers interface} {s : Store} {record : ResultRecord}

theorem finish_outcome (houtcome : record.outcome = .failed ∨ record.outcome = .retryScheduled)
    (succeeded : Bool) (err : Option Error) :
    ((finish record succeeded err).exec answers s).value.1.outcome ≠ .succeeded := by
  have hnothing : ({} : Result).outcome ≠ .succeeded := by decide
  have hresult : record.result.outcome ≠ .succeeded := by
    rcases houtcome with h | h
    · exact fun hsucceeded => Outcome.noConfusion (h.symm.trans hsucceeded)
    · exact fun hsucceeded => Outcome.noConfusion (h.symm.trans hsucceeded)
  obtain ⟨f, g, hfinish, hfok, hferror, hgok, hgerror⟩ := finish_eq record succeeded err
  rw [hfinish, Prog.exec_bind]
  dsimp only
  cases ((complete record.commandID succeeded).exec answers s).value with
  | error e =>
    rw [hferror]
    exact hnothing
  | ok u =>
    rw [hfok, Prog.exec_bind]
    dsimp only
    cases ((persist record).exec (answers.drop
        ((complete record.commandID succeeded).exec answers s).trace.length)
        ((complete record.commandID succeeded).exec answers s).state).value with
    | error e =>
      rw [hgerror]
      exact hnothing
    | ok u =>
      rw [hgok]
      exact hresult

theorem fail_outcome (now : Time) (reason : FailureReason) :
    ((fail request record now reason).exec answers s).value.1.outcome ≠ .succeeded := by
  unfold fail
  dsimp only
  split
  case isTrue =>
    rw [exec_call_bind]
    dsimp only
    split
    case h_1 => exact finish_outcome (.inl rfl) _ _
    case h_2 =>
      split
      case isTrue => exact finish_outcome (.inr rfl) _ _
      case isFalse => exact finish_outcome (.inl rfl) _ _
  case isFalse => exact finish_outcome (.inl rfl) _ _

end Timeout

/-! ## At the deadline -/

section Deadline

variable {request : Request} {answers : Answers interface} {s : Store} {record : ResultRecord}

theorem recognised_iff (hrequest : validateRequest request = .ok ())
    (hhealthy : Healthy request answers)
    (h : Underway request s (some record))
    (henough : request.policy.recoverySamples ≤ record.healthySamples)
    (hdeadline : record.startedAt.add request.policy.window ≤ reading answers) :
    Recognised request answers s ↔ reading answers = record.startedAt.add request.policy.window ∧
      record.healthySamples.toInt < 256 := by
  have hpending := h.pending record rfl
  rcases lt_or_eq_of_le hdeadline with hlate | hnow
  · refine iff_of_false (fun hrecognised => ?_) fun hexact => absurd hexact.1.symm (ne_of_lt hlate)
    have houtcome := hrecognised.outcome
    obtain ⟨p, hvalue, -, hp⟩ :=
      verify_loaded hrequest hhealthy.commits hhealthy.clock h.loadResult h.held rfl
    rw [Option.getD_some, if_neg (not_not.mpr hpending.outcome), if_pos hlate] at hp
    rw [hvalue, hp] at houtcome
    exact fail_outcome _ _ houtcome
  · rw [and_iff_right hnow.symm]
    by_cases hroom : record.healthySamples.toInt < 256
    · refine iff_of_true ?_ hroom
      have hopen : Open (some record) := by
        rintro _ ⟨⟩
        exact hpending.outcome
      have hcompletes : Completes request record answers := by
        refine (completes_iff hpending).mpr ⟨?_, hdeadline⟩
        have := Int64.le_iff_toInt_le.mp henough
        omega
      obtain ⟨-, hvalue, hcommand⟩ :=
        (stepped_of_room hrequest hhealthy h.awaiting h.loadResult h.held
        hopen rfl hpending rfl (le_of_eq hnow.symm) hroom h.printable).completed hcompletes
      exact ⟨by rw [hvalue], by rw [hvalue]; rfl, hcommand⟩
    · refine iff_of_false (fun hrecognised => ?_) hroom
      have herror := hrecognised.error
      rw [(verify_exec hrequest hhealthy h.loadResult h.held rfl hpending.outcome
        (not_lt.mpr (le_of_eq hnow.symm))).1] at herror
      exact sample_overflows hpending hroom herror

/-- An attempt without a record, healthy calls before the deadline that have recorded enough
samples, and the first call at or after it: the call returns success and completes the command
exactly if it reads the very instant of the deadline and there is room for its own sample. -/
theorem recovery_recognised_iff {calls : List (Answers interface)}
    (hrequest : validateRequest request = .ok ()) (hhealthy : ∀ a ∈ calls, Healthy request a)
    (hawaiting : Awaiting s request.command.commandID)
    (hnone : (s .stabilizationResults)[resultKey request.command.commandID request.attempt]? = none)
    (hearly : Early request calls s)
    (hrecorded : loadResult request.command.commandID request.attempt (after request calls s) =
      .ok (some record, after request calls s))
    (henough : request.policy.recoverySamples ≤ record.healthySamples)
    (hlast : Healthy request answers)
    (hdeadline : record.startedAt.add request.policy.window ≤ reading answers) :
    Recognised request answers (after request calls s) ↔
      reading answers = record.startedAt.add request.policy.window ∧
        record.healthySamples.toInt < 256 := by
  have hbegin : Underway request s none :=
    ⟨hawaiting, hnone, fun _ h => (Option.some_ne_none _ h.symm).elim⟩
  obtain ⟨found, hafter⟩ := underway_after hrequest hhealthy hbegin hearly
  have hfound : found = some record :=
    congrArg Prod.fst (Except.ok.inj (hafter.loadResult.symm.trans hrecorded))
  subst hfound
  exact recognised_iff hrequest hlast hafter henough hdeadline

end Deadline

/-! ### One sample in a window of a nanosecond -/

open Recovery (sampleStore stabilizingRecord sampleVerification)

def sampleWindow : Store := after sampleVerification [calm 2] (sampleStore stabilizingRecord)

theorem underway_sampleWindow :
    Underway sampleVerification sampleWindow (some (counted (newRecord sampleVerification 2))) := by
  have hpending : Pending sampleVerification (newRecord sampleVerification 2) :=
    @pending_newRecord sampleVerification (calm 2) rfl rfl
  have hbegin : Underway sampleVerification (sampleStore stabilizingRecord) none :=
    ⟨awaiting_sampleStore, rfl, fun _ h => (Option.some_ne_none _ h.symm).elim⟩
  have hstep := @stepped_of_room sampleVerification (calm 2)
    _ (newRecord sampleVerification 2) none rfl
    (healthy_calm rfl rfl) hbegin.awaiting hbegin.loadResult hbegin.held
    (fun _ h => (Option.some_ne_none _ h.symm).elim) rfl hpending rfl (by decide)
    (by decide) ⟨_, rfl⟩
  obtain ⟨hsampled, hawaiting⟩ := hstep.pending fun hcompletes => absurd hcompletes.2 (by decide)
  refine ⟨hawaiting, hsampled, ?_⟩
  rintro _ ⟨⟩
  exact pending_counted hpending (by decide)

theorem recognised_at_deadline : Recognised sampleVerification (calm 3) sampleWindow := by
  have hearly : Early sampleVerification [calm 2] (sampleStore stabilizingRecord) := by
    refine ⟨fun record hrecord => ?_, trivial⟩
    cases hrecord
  refine (@recovery_recognised_iff sampleVerification (calm 3)
    (sampleStore stabilizingRecord) _ [calm 2]
    rfl ?_ awaiting_sampleStore rfl hearly underway_sampleWindow.loadResult (by decide)
    (healthy_calm rfl rfl) (by decide)).mpr ⟨rfl, by decide⟩
  intro a ha
  rw [List.mem_singleton.mp ha]
  exact healthy_calm rfl rfl

theorem not_recognised_after_deadline :
    Early sampleVerification [calm 2] (sampleStore stabilizingRecord) ∧
      loadResult (lit "i") 0 sampleWindow =
        .ok (some (counted (newRecord sampleVerification 2)), sampleWindow) ∧
      sampleVerification.policy.recoverySamples ≤
        (counted (newRecord sampleVerification 2)).healthySamples ∧
      Healthy sampleVerification (calm 4) ∧
        ¬Recognised sampleVerification (calm 4) sampleWindow := by
  refine ⟨⟨fun record hrecord => ?_, trivial⟩, underway_sampleWindow.loadResult, by decide,
    healthy_calm rfl rfl, ?_⟩
  · cases hrecord
  · rw [recognised_iff rfl (healthy_calm rfl rfl) underway_sampleWindow (by decide) (by decide)]
    rintro ⟨hexact, -⟩
    exact absurd hexact (by decide)

end PulseAgent.Stabilization
