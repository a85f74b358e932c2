import PulseAgent.Observer.Cycle

/-!
# What a cycle covers

`RunCycle` returns at the first rule that gives no observation: the rules after it wait for a later
cycle, in which the failing rule is due again.
-/

namespace PulseAgent.Observer

open Go Contract

/-! ## The loop up to the first failure -/

/-- The elements up to and including the first that fails. -/
def throughFailure {α : Type} (ok : α → Bool) : List α → List α
  | [] => []
  | a :: rest => if ok a then a :: throughFailure ok rest else [a]

theorem forall_mem_throughFailure {α : Type} {ok : α → Bool} {l : List α} (hnodup : l.Nodup) :
    (∀ a ∈ l, a ∈ throughFailure ok l) ↔ ∀ a ∈ l.dropLast, ok a = true := by
  induction l with
  | nil => exact ⟨nofun, nofun⟩
  | cons a rest ih =>
    obtain ⟨hne, hrest⟩ := List.nodup_cons.mp hnodup
    cases rest with
    | nil => simp [throughFailure]
    | cons b rest =>
      rw [List.dropLast_cons_cons, List.forall_mem_cons (l := (b :: rest).dropLast), throughFailure]
      split_ifs with hok
      · rw [← ih hrest, and_iff_right hok]
        constructor
        · intro h c hc
          refine (List.mem_cons.mp (h c (List.mem_cons_of_mem _ hc))).resolve_left ?_
          rintro rfl
          exact hne hc
        · intro h c hc
          rcases List.mem_cons.mp hc with rfl | hc
          · exact List.mem_cons_self
          · exact List.mem_cons_of_mem _ (h c hc)
      · constructor
        · intro h
          have hb := List.mem_singleton.mp (h b (List.mem_cons_of_mem _ List.mem_cons_self))
          exact absurd (hb ▸ List.mem_cons_self) hne
        · exact fun h => absurd h.1 hok

theorem mem_throughFailure {α : Type} {ok : α → Bool} {l : List α} (hnodup : l.Nodup) {b : α} :
    b ∈ throughFailure ok l ↔ b ∈ l ∧ ∀ a, [a, b].Sublist l → ok a = true := by
  induction l with
  | nil => simp [throughFailure]
  | cons c rest ih =>
    obtain ⟨hne, hrest⟩ := List.nodup_cons.mp hnodup
    have hpair : ∀ {a}, b ≠ c → ([a, b].Sublist (c :: rest) ↔
        a = c ∧ b ∈ rest ∨ [a, b].Sublist rest) := by
      intro a _
      rw [List.sublist_cons_iff, or_comm]
      simp
    rcases eq_or_ne b c with rfl | hbc
    · refine iff_of_true ?_ ⟨List.mem_cons_self, fun a ha => ?_⟩
      · rw [throughFailure]
        split_ifs <;> exact List.mem_cons_self
      · rcases List.sublist_cons_iff.mp ha with hin | ⟨r, hr, hin⟩
        · exact absurd (hin.subset (by simp)) hne
        · obtain rfl := (List.cons.inj hr).2
          exact absurd (hin.subset (by simp)) hne
    · rw [throughFailure, List.mem_cons, or_iff_right hbc]
      simp only [hpair hbc]
      split_ifs with hok
      · rw [List.mem_cons, or_iff_right hbc, ih hrest]
        refine and_congr_right fun _ => forall_congr' fun a => ?_
        constructor
        · rintro h (⟨rfl, -⟩ | ha)
          · exact hok
          · exact h ha
        · exact fun h ha => h (.inr ha)
      · rw [List.mem_singleton]
        exact iff_of_false hbc fun h => hok (h.2 c (.inl ⟨rfl, h.1⟩))

theorem pair_sublist_filter {α : Type} {p : α → Bool} {l : List α} {a b : α} :
    [a, b].Sublist (l.filter p) ↔ [a, b].Sublist l ∧ p a = true ∧ p b = true := by
  constructor
  · intro h
    exact ⟨h.trans List.filter_sublist, (List.mem_filter.mp (h.subset (by simp))).2,
      (List.mem_filter.mp (h.subset (by simp))).2⟩
  · rintro ⟨h, ha, hb⟩
    have hkept := h.filter p
    simpa [ha, hb] using hkept

theorem takeWhile_eq_filter {α : Type} {ok : α → Bool} {l : List α}
    (h : ∀ a ∈ l.dropLast, ok a = true) : l.takeWhile ok = l.filter ok := by
  induction l with
  | nil => rfl
  | cons a rest ih =>
    cases rest with
    | nil => by_cases hok : ok a <;> simp [hok]
    | cons b rest =>
      rw [List.dropLast_cons_cons] at h
      obtain ⟨hok, hrest⟩ := List.forall_mem_cons.mp h
      rw [List.takeWhile_cons_of_pos hok, List.filter_cons_of_pos hok, ih hrest]

/-! ## The rules a cycle reaches -/

def keyOf (p : ServiceTarget × ProbeRule) : Bytes := ruleKey p.1.targetID p.2.ruleID

def Answers.sampled (answers : Answers) (p : ServiceTarget × ProbeRule) : Bool :=
  match answers.probe p.1 p.2 with
  | none => false
  | some values => (failedSample p.2 (boundedValues values)).isSome

def Answers.named (answers : Answers) (p : ServiceTarget × ProbeRule) : Bool :=
  (answers.newID p.1 p.2).isOk

def Answers.observed (answers : Answers) (p : ServiceTarget × ProbeRule) : Bool :=
  answers.sampled p && answers.named p

def Scheduler.dueAt (s : Scheduler) (now : Time) (p : ServiceTarget × ProbeRule) : Bool :=
  s.due p.1.targetID p.2 now

variable {answers : Answers} {version : UInt64} {now : Time} {s s' : Scheduler}

/-- `observe` touches neither of the maps `due` reads, and succeeds on the answers that give an
observation of this rule. -/
theorem observe_spec (answers : Answers) (p : ServiceTarget × ProbeRule) (version : UInt64)
    (now : Time) (s : Scheduler) :
    (observe answers p.1 p.2 version now s).2.running = s.running ∧
    (observe answers p.1 p.2 version now s).2.lastRun = s.lastRun ∧
    ((∃ e, (observe answers p.1 p.2 version now s).1 = .error e) ∧ answers.observed p = false ∨
      ∃ observation, (observe answers p.1 p.2 version now s).1 = .ok observation ∧
        answers.observed p = true ∧
        observation.targetID = p.1.targetID ∧ observation.ruleID = p.2.ruleID) := by
  unfold observe Answers.observed Answers.sampled Answers.named
  cases hprobe : answers.probe p.1 p.2 with
  | none => simp
  | some values =>
    cases hfailed : failedSample p.2 (boundedValues values) with
    | none => simp [hfailed]
    | some failed =>
      cases hid : answers.newID p.1 p.2 with
      | error e => simp [hfailed, Scheduler.evaluate, Except.isOk, Except.toBool]
      | ok id => simp [hfailed, Scheduler.evaluate, Except.isOk, Except.toBool]

/-- Only what the maps hold under the rule's own key decides whether it is due. -/
theorem dueAt_congr {p : ServiceTarget × ProbeRule}
    (hrunning : s'.running (keyOf p) = s.running (keyOf p))
    (hlast : s'.lastRun (keyOf p) = s.lastRun (keyOf p)) : s'.dueAt now p = s.dueAt now p := by
  unfold Scheduler.dueAt Scheduler.due
  simp only [keyOf] at hrunning hlast
  simp only [hrunning, hlast]

theorem dueAt_finish {p q : ServiceTarget × ProbeRule} (hne : keyOf q ≠ keyOf p) :
    ((observe answers p.1 p.2 version now
        { s with running := Function.update s.running (keyOf p) true }).2.finish
      p.1.targetID p.2.ruleID now).dueAt now q = s.dueAt now q := by
  obtain ⟨hrunning, hlast, -⟩ := observe_spec answers p version now
    { s with running := Function.update s.running (keyOf p) true }
  refine dueAt_congr ?_ ?_
  · refine (Function.update_of_ne hne _ _).trans ?_
    rw [hrunning]
    exact Function.update_of_ne hne _ _
  · refine (Function.update_of_ne hne _ _).trans ?_
    rw [hlast]

def Observation.ids (observation : Observation) : Bytes × Bytes :=
  (observation.targetID, observation.ruleID)

def idsOf (p : ServiceTarget × ProbeRule) : Bytes × Bytes := (p.1.targetID, p.2.ruleID)

theorem runRules_spec {l : List (ServiceTarget × ProbeRule)}
    (hctx : ∀ p ∈ l, answers.ctxErr p.1 p.2 = none) (hkeys : (l.map keyOf).Nodup)
    (r : CycleResult) :
    (runRules answers version now r l).probed = r.probed ++
      throughFailure answers.observed (l.filter (r.scheduler.dueAt now)) ∧
    (runRules answers version now r l).observations.map Observation.ids =
      r.observations.map Observation.ids ++
        ((l.filter (r.scheduler.dueAt now)).takeWhile answers.observed).map idsOf := by
  induction l generalizing r with
  | nil => simp [runRules, throughFailure]
  | cons p rest ih =>
    obtain ⟨hp, hrest⟩ := List.forall_mem_cons.mp hctx
    obtain ⟨hfresh, hkeys⟩ := List.nodup_cons.mp hkeys
    cases hdue : r.scheduler.dueAt now p with
    | false =>
      have hstart : r.scheduler.startDue p.1.targetID p.2 now = (false, r.scheduler) :=
        if_neg (Bool.eq_false_iff.mp hdue)
      rw [List.filter_cons_of_neg (Bool.eq_false_iff.mp hdue)]
      simp only [runRules, hp, hstart]
      exact ih hrest hkeys r
    | true =>
      have hstart : r.scheduler.startDue p.1.targetID p.2 now =
          (true, { r.scheduler with
            running := Function.update r.scheduler.running (keyOf p) true }) := if_pos hdue
      rw [List.filter_cons_of_pos hdue]
      simp only [runRules, hp, hstart]
      have hfilter : rest.filter (r.scheduler.dueAt now) = rest.filter
          (((observe answers p.1 p.2 version now { r.scheduler with
            running := Function.update r.scheduler.running (keyOf p) true }).2.finish
            p.1.targetID p.2.ruleID now).dueAt now) :=
        List.filter_congr fun q hq => (dueAt_finish fun heq =>
          hfresh (heq ▸ List.mem_map_of_mem hq)).symm
      rcases (observe_spec answers p version now { r.scheduler with
        running := Function.update r.scheduler.running (keyOf p) true }).2.2 with
        ⟨⟨e, hresult⟩, hobserved⟩ | ⟨observation, hresult, hobserved, hids⟩
      · split
        · simp [throughFailure, hobserved]
        · next o s heq => rw [heq] at hresult; cases hresult
      · split
        · next e s heq => rw [heq] at hresult; cases hresult
        · next o s heq =>
          rw [heq] at hresult hfilter
          obtain rfl : o = observation := by simpa using hresult
          have hrec := ih hrest hkeys
            { r with
              observations := r.observations ++ [o]
              scheduler := s.finish p.1.targetID p.2.ruleID now
              probed := r.probed ++ [p] }
          simp only at hrec hfilter
          rw [hrec.1, hrec.2, ← hfilter, throughFailure, if_pos hobserved,
            List.takeWhile_cons_of_pos hobserved]
          simp [Observation.ids, idsOf, hids]

/-! ## A whole cycle -/

structure Registered (registry : Target.Registry) (snapshot : Target.Snapshot) : Prop where
  valid : ∀ target ∈ snapshot.targets, registry.validateTarget target = .ok ()
  distinct : (snapshot.targets.map ServiceTarget.targetID).Nodup

/-- The rules of enabled targets that are due and not in flight. -/
def dueRules (snapshot : Target.Snapshot) (s : Scheduler) (now : Time) :
    List (ServiceTarget × ProbeRule) :=
  (candidates snapshot).filter (s.dueAt now)

theorem mem_candidates {snapshot : Target.Snapshot} {p : ServiceTarget × ProbeRule} :
    p ∈ candidates snapshot ↔
      p.1 ∈ snapshot.targets ∧ p.1.enabled = true ∧ p.2 ∈ elems p.1.probeRules := by
  simp only [candidates, List.mem_flatMap]
  constructor
  · rintro ⟨target, htarget, hp⟩
    split_ifs at hp with henabled
    · obtain ⟨rule, hrule, rfl⟩ := List.mem_map.mp hp
      exact ⟨htarget, henabled, hrule⟩
    · cases hp
  · rintro ⟨htarget, henabled, hrule⟩
    exact ⟨p.1, htarget, by rw [if_pos henabled]; exact List.mem_map_of_mem hrule⟩

section

variable {registry : Target.Registry} {snapshot : Target.Snapshot}

theorem Registered.eq_of_key (h : Registered registry snapshot) {p q : ServiceTarget × ProbeRule}
    (hp : p ∈ candidates snapshot) (hq : q ∈ candidates snapshot) (hkey : keyOf p = keyOf q) :
    p = q := by
  obtain ⟨htarget, -, hrule⟩ := mem_candidates.mp hp
  obtain ⟨htarget', -, hrule'⟩ := mem_candidates.mp hq
  have hvalid := Target.valid_of_validateTarget (h.valid _ htarget)
  have hvalid' := Target.valid_of_validateTarget (h.valid _ htarget')
  obtain ⟨hid, hruleID⟩ := ruleKey_inj hvalid.targetID hvalid'.targetID hkey
  have hsame : p.1 = q.1 := List.inj_on_of_nodup_map h.distinct htarget htarget' hid
  rw [← hsame] at hrule'
  exact Prod.ext hsame (List.inj_on_of_nodup_map hvalid.distinct hrule hrule' hruleID)

theorem Registered.nodup_candidates (h : Registered registry snapshot) :
    (candidates snapshot).Nodup := by
  have htargets : snapshot.targets.Nodup := h.distinct.of_map
  refine List.nodup_flatMap.mpr ⟨?_, htargets.imp_of_mem ?_⟩
  · intro target htarget
    split_ifs
    · have hvalid := Target.valid_of_validateTarget (h.valid _ htarget)
      exact hvalid.distinct.of_map.map fun _ _ heq => (Prod.mk.inj heq).2
    · exact List.nodup_nil
  · intro a b _ _ hne p hp hq
    have hfst : ∀ {target : ServiceTarget}, p ∈ (if target.enabled then
        (elems target.probeRules).map (target, ·) else []) → p.1 = target := by
      intro target hmem
      split_ifs at hmem
      · obtain ⟨rule, -, rfl⟩ := List.mem_map.mp hmem
        rfl
      · cases hmem
    exact hne ((hfst hp).symm.trans (hfst hq))

theorem Registered.nodup_keys (h : Registered registry snapshot) :
    ((candidates snapshot).map keyOf).Nodup :=
  h.nodup_candidates.map_on fun _ hp _ hq hkey => h.eq_of_key hp hq hkey

theorem runCycle_spec (h : Registered registry snapshot)
    (hctx : ∀ p ∈ candidates snapshot, answers.ctxErr p.1 p.2 = none) (hnow : now.isZero = false) :
    (runCycle answers snapshot now s).probed =
      throughFailure answers.observed (dueRules snapshot s now) ∧
    (runCycle answers snapshot now s).observations.map Observation.ids =
      ((dueRules snapshot s now).takeWhile answers.observed).map idsOf := by
  have hspec := @runRules_spec _ snapshot.version now _ hctx h.nodup_keys ⟨[], none, s, []⟩
  rw [runCycle, hnow]
  simpa [dueRules] using hspec

theorem Registered.nodup_dueRules (h : Registered registry snapshot) :
    (dueRules snapshot s now).Nodup := h.nodup_candidates.filter _

theorem mem_dueRules {p : ServiceTarget × ProbeRule} :
    p ∈ dueRules snapshot s now ↔
      p ∈ candidates snapshot ∧ s.due p.1.targetID p.2 now = true := List.mem_filter

theorem returned_iff (h : Registered registry snapshot)
    (hctx : ∀ p ∈ candidates snapshot, answers.ctxErr p.1 p.2 = none) (hnow : now.isZero = false)
    (hlast : ∀ p ∈ (dueRules snapshot s now).dropLast, answers.observed p = true)
    {p : ServiceTarget × ProbeRule} (hp : p ∈ dueRules snapshot s now) :
    (∃ observation ∈ (runCycle answers snapshot now s).observations,
      observation.targetID = p.1.targetID ∧ observation.ruleID = p.2.ruleID) ↔
      answers.observed p = true := by
  have hids : (∃ observation ∈ (runCycle answers snapshot now s).observations,
      observation.targetID = p.1.targetID ∧ observation.ruleID = p.2.ruleID) ↔
      idsOf p ∈ (runCycle answers snapshot now s).observations.map Observation.ids := by
    simp only [List.mem_map, Observation.ids, idsOf, Prod.mk.injEq]
  rw [hids, (runCycle_spec h hctx hnow).2, takeWhile_eq_filter hlast, List.mem_map]
  constructor
  · rintro ⟨q, hq, heq⟩
    obtain ⟨hq, hobserved⟩ := List.mem_filter.mp hq
    have hkey : keyOf q = keyOf p := by
      rw [keyOf, keyOf, (Prod.mk.inj heq).1, (Prod.mk.inj heq).2]
    rw [← h.eq_of_key (List.mem_of_mem_filter hq) (List.mem_of_mem_filter hp) hkey]
    exact hobserved
  · exact fun hobserved => ⟨p, List.mem_filter.mpr ⟨hp, hobserved⟩, rfl⟩

/-- One call of `RunCycle`: what it is given and what its dependencies answer. -/
structure CycleInput where
  answers : Answers
  snapshot : Target.Snapshot
  now : Time

namespace CycleInput

variable {cycle : CycleInput}

def run (cycle : CycleInput) (s : Scheduler) : CycleResult :=
  runCycle cycle.answers cycle.snapshot cycle.now s

def due (cycle : CycleInput) (s : Scheduler) : List (ServiceTarget × ProbeRule) :=
  dueRules cycle.snapshot s cycle.now

def succeeds (cycle : CycleInput) (p : ServiceTarget × ProbeRule) : Bool :=
  (cycle.answers.probe p.1 p.2).isSome

structure Uncancelled (registry : Target.Registry) (cycle : CycleInput) : Prop where
  registered : Registered registry cycle.snapshot
  ctx : ∀ p ∈ candidates cycle.snapshot, cycle.answers.ctxErr p.1 p.2 = none

/-- Every due rule is probed, and what a successful probe observed is returned. -/
def Covers (cycle : CycleInput) (s : Scheduler) : Prop :=
  ∀ p ∈ candidates cycle.snapshot, s.due p.1.targetID p.2 cycle.now = true →
    p ∈ (cycle.run s).probed ∧
    (cycle.succeeds p = true → ∃ observation ∈ (cycle.run s).observations,
      observation.targetID = p.1.targetID ∧ observation.ruleID = p.2.ruleID)

theorem covers_iff (h : cycle.Uncancelled registry) :
    cycle.Covers s ↔ cycle.due s = [] ∨ cycle.now.isZero = false ∧
      (∀ p ∈ (cycle.due s).dropLast, cycle.answers.observed p = true) ∧
      ∀ p ∈ cycle.due s, cycle.succeeds p = true → cycle.answers.observed p = true := by
  by_cases hempty : cycle.due s = []
  · refine iff_of_true (fun p hp hdue => ?_) (.inl hempty)
    have hp' : p ∈ cycle.due s := mem_dueRules.mpr ⟨hp, hdue⟩
    exact absurd hp' (hempty ▸ List.not_mem_nil)
  rw [or_iff_right hempty]
  cases hnow : cycle.now.isZero with
  | true =>
    obtain ⟨p, hp⟩ := List.exists_mem_of_ne_nil _ hempty
    refine iff_of_false (fun hall => ?_) (fun hcond => Bool.noConfusion hcond.1)
    have hprobed := (hall p (mem_dueRules.mp hp).1 (mem_dueRules.mp hp).2).1
    rw [run, runCycle, if_pos hnow] at hprobed
    cases hprobed
  | false =>
    have hreached := @forall_mem_throughFailure _ cycle.answers.observed (cycle.due s)
      h.registered.nodup_dueRules
    rw [due, ← (runCycle_spec h.registered h.ctx hnow).1] at hreached
    constructor
    · intro hall
      have hlast := hreached.mp fun p hp => (hall p (mem_dueRules.mp hp).1 (mem_dueRules.mp hp).2).1
      refine ⟨rfl, hlast, fun p hp hprobe => ?_⟩
      have hreturned := (hall p (mem_dueRules.mp hp).1 (mem_dueRules.mp hp).2).2 hprobe
      exact (returned_iff h.registered h.ctx hnow hlast hp).mp hreturned
    · rintro ⟨-, hlast, hprobes⟩ p hp hdue
      have hp' := mem_dueRules.mpr ⟨hp, hdue⟩
      refine ⟨hreached.mpr hlast p hp', fun hprobe => ?_⟩
      exact (returned_iff h.registered h.ctx hnow hlast hp').mpr (hprobes p hp' hprobe)

def Precedes (cycle : CycleInput) (r q : ServiceTarget × ProbeRule) : Prop :=
  [r, q].Sublist (candidates cycle.snapshot)

theorem probed_iff (h : cycle.Uncancelled registry) {q : ServiceTarget × ProbeRule}
    (hq : q ∈ cycle.due s) :
    q ∈ (cycle.run s).probed ↔ cycle.now.isZero = false ∧
      ∀ r, cycle.Precedes r q → s.dueAt cycle.now r = true → cycle.answers.observed r = true := by
  cases hnow : cycle.now.isZero with
  | true =>
    refine iff_of_false (fun hprobed => ?_) (fun hcond => Bool.noConfusion hcond.1)
    rw [run, runCycle, if_pos hnow] at hprobed
    cases hprobed
  | false =>
    rw [run, (runCycle_spec h.registered h.ctx hnow).1,
      mem_throughFailure h.registered.nodup_dueRules, ← due, and_iff_right hq, and_iff_right rfl]
    refine forall_congr' fun r => ?_
    rw [due, dueRules, pair_sublist_filter, and_iff_left (List.mem_filter.mp hq).2, and_imp]
    rfl

def Behind (cycle : CycleInput) (targetID : Bytes) (q : ServiceTarget × ProbeRule) : Prop :=
  q.1.targetID ≠ targetID ∧ ∃ r, r.1.targetID = targetID ∧ cycle.Precedes r q

end CycleInput

/-! ## Cycles one after the other -/

/-- The cycles of a run, each with the scheduler it starts from. -/
def runCycles (s : Scheduler) : List CycleInput → List (Scheduler × CycleInput)
  | [] => []
  | cycle :: rest => (s, cycle) :: runCycles (cycle.run s).scheduler rest

theorem mem_of_mem_runCycles {cycles : List CycleInput} {step : Scheduler × CycleInput}
    (hstep : step ∈ runCycles s cycles) : step.2 ∈ cycles := by
  induction cycles generalizing s with
  | nil => cases hstep
  | cons cycle rest ih =>
    rcases List.mem_cons.mp hstep with rfl | hstep
    · exact List.mem_cons_self
    · exact List.mem_cons_of_mem _ (ih hstep)

theorem not_observed_of_fails {cycle : CycleInput} {p : ServiceTarget × ProbeRule}
    (hprobe : cycle.succeeds p = false) : cycle.answers.observed p = false := by
  have hnone : cycle.answers.probe p.1 p.2 = none := by
    simpa [CycleInput.succeeds] using hprobe
  simp [Answers.observed, Answers.sampled, hnone]

/-- In every run, from any scheduler state: a cycle covers its due rules exactly if none is due, or
the clock is set, every due rule but the last gives an observation, and every due rule whose probe
succeeds does. A target whose probes fail in every cycle keeps no due rule behind it from being
probed exactly if, whenever such a rule is due, the clock is set, none of the target's rules in
front of it is due, and the other due rules in front give an observation. -/
theorem cycle_covers_iff {registry : Target.Registry} {cycles : List CycleInput}
    (hcycles : ∀ cycle ∈ cycles, cycle.Uncancelled registry) (s : Scheduler) :
    (∀ step ∈ runCycles s cycles, step.2.Covers step.1 ↔
      step.2.due step.1 = [] ∨ step.2.now.isZero = false ∧
        (∀ p ∈ (step.2.due step.1).dropLast, step.2.answers.observed p = true) ∧
        ∀ p ∈ step.2.due step.1, step.2.succeeds p = true → step.2.answers.observed p = true) ∧
    ∀ targetID, (∀ cycle ∈ cycles, ∀ p ∈ candidates cycle.snapshot,
        p.1.targetID = targetID → cycle.succeeds p = false) →
      ((∀ step ∈ runCycles s cycles, ∀ q ∈ step.2.due step.1, step.2.Behind targetID q →
        q ∈ (step.2.run step.1).probed) ↔
      ∀ step ∈ runCycles s cycles, ∀ q ∈ step.2.due step.1, step.2.Behind targetID q →
        step.2.now.isZero = false ∧
        ∀ r, step.2.Precedes r q → step.1.dueAt step.2.now r = true →
          r.1.targetID ≠ targetID ∧ step.2.answers.observed r = true) := by
  constructor
  · intro step hstep
    exact CycleInput.covers_iff (hcycles _ (mem_of_mem_runCycles hstep))
  · intro targetID hfails
    refine forall₂_congr fun step hstep => forall₂_congr fun q hq => ?_
    have hcycle := mem_of_mem_runCycles hstep
    refine imp_congr_right fun _ => ?_
    rw [CycleInput.probed_iff (hcycles _ hcycle) hq]
    refine and_congr_right fun _ => forall_congr' fun r => ?_
    refine imp_congr_right fun hbefore => imp_congr_right fun _ => ?_
    refine ⟨fun hobserved => ⟨fun htarget => ?_, hobserved⟩, And.right⟩
    -- a rule of the failing target gives no observation
    have hfailed := hfails _ hcycle r (hbefore.subset List.mem_cons_self) htarget
    rw [not_observed_of_fails hfailed] at hobserved
    cases hobserved

def threeTargets : Target.Snapshot where
  version := 3
  targets := [sampleTarget (lit "api"),
    { sampleTarget (lit "web") with
      probeRules := some [{ sampleRule (lit "up") with interval := 300000000000 }] },
    sampleTarget (lit "db")]

def threeRegistry : Target.Registry :=
  ⟨[(lit "api", lit "docker"), (lit "web", lit "docker"), (lit "db", lit "docker")], 3, 1024, {}⟩

theorem registered_threeTargets : Registered threeRegistry threeTargets :=
  ⟨by decide +kernel, by decide +kernel⟩

def webDown (now : Time) : CycleInput where
  answers :=
    { probe candidate _ := if candidate.targetID = lit "web" then none
        else some ((∅ : Values).insert (lit "availability") .zero)
      newID _ _ := .ok (lit "o") }
  snapshot := threeTargets
  now

def webHasRun : Scheduler :=
  { lastRun := Function.update (fun _ => 0) (ruleKey (lit "web") (lit "up")) 40000000000 }

theorem webDown_covered :
    (∀ step ∈ runCycles webHasRun [webDown 100000000000, webDown 160000000000],
      step.2.Covers step.1 ∧
      ∀ q ∈ step.2.due step.1, step.2.Behind (lit "web") q → q ∈ (step.2.run step.1).probed) ∧
    (runCycles webHasRun [webDown 100000000000, webDown 160000000000]).map
      (fun step => (step.2.due step.1).map idsOf) =
        [[(lit "api", lit "up"), (lit "db", lit "up")],
          [(lit "api", lit "up"), (lit "db", lit "up")]] ∧
    (webDown 100000000000).Behind (lit "web") (sampleTarget (lit "db"), sampleRule (lit "up")) := by
  have hruns : ∀ cycle ∈ [webDown 100000000000, webDown 160000000000],
      cycle.Uncancelled threeRegistry := by
    intro cycle hcycle
    rcases List.mem_pair.mp hcycle with rfl | rfl <;>
      exact ⟨registered_threeTargets, fun _ _ => rfl⟩
  obtain ⟨hcovers, hbehind⟩ := cycle_covers_iff hruns webHasRun
  refine ⟨fun step hstep => ⟨(hcovers step hstep).mpr (.inr ?_), ?_⟩, by decide +kernel, ?_⟩
  · revert step
    decide +kernel
  · refine (hbehind (lit "web") (by decide +kernel)).mpr ?_ step hstep
    intro step hstep q _ _
    have hfront : ∀ step ∈ runCycles webHasRun [webDown 100000000000, webDown 160000000000],
        step.2.now.isZero = false ∧ ∀ r ∈ step.2.due step.1, r.1.targetID ≠ lit "web" ∧
          step.2.answers.observed r = true := by
      decide +kernel
    refine ⟨(hfront step hstep).1, fun r hr hdue => (hfront step hstep).2 r ?_⟩
    exact List.mem_filter.mpr ⟨hr.subset List.mem_cons_self, hdue⟩
  · refine ⟨by decide +kernel, ({ sampleTarget (lit "web") with
      probeRules := some [{ sampleRule (lit "up") with interval := 300000000000 }] },
      { sampleRule (lit "up") with interval := 300000000000 }), rfl, ?_⟩
    exact List.sublist_cons_self _ _

def oneDown : Answers where
  probe candidate _ :=
    if candidate.targetID = lit "web" then some ((∅ : Values).insert (lit "availability") .zero)
    else none
  newID _ _ := .ok (lit "o")

/-- The failing target in front keeps the other from being probed, in a first cycle and, an interval
later, in a second. -/
theorem failing_target_hides_next :
    let snapshot : Target.Snapshot :=
      { version := 2, targets := [sampleTarget (lit "api"), sampleTarget (lit "web")] }
    let first := runCycle oneDown snapshot 100000000000 {}
    let second := runCycle oneDown snapshot 160000000000 first.scheduler
    (∀ target ∈ snapshot.targets, sampleRegistry.validateTarget target = .ok ()) ∧
    (first.probed, first.observations.map Observation.ids) =
      ([(sampleTarget (lit "api"), sampleRule (lit "up"))], []) ∧
    (second.probed, second.observations.map Observation.ids) =
      ([(sampleTarget (lit "api"), sampleRule (lit "up"))], []) ∧
    first.scheduler.due (lit "web") (sampleRule (lit "up")) 160000000000 = true ∧
    oneDown.sampled (sampleTarget (lit "web"), sampleRule (lit "up")) = true := by
  decide +kernel

end

end PulseAgent.Observer
