import PulseAgent.Observer.Cycle

/-!
# Concurrent cycles

The locked steps of different calls of `RunCycle` interleave freely. A rule is in flight from the
step that claims it to `finish`; the running flag makes it the rule of one call, and the last run
makes the next claim wait.
-/

namespace PulseAgent.Observer

open Go Contract

/-! ## The interleaving -/

/-- How far the call has got with the rule it has claimed. -/
inductive Stage where
  | probing
  | evaluated
  | numbered
deriving DecidableEq

structure Probe where
  targetID : Bytes
  rule : ProbeRule
  now : Time

def Probe.key (probe : Probe) : Bytes := ruleKey probe.targetID probe.rule.ruleID

/-- A call of `RunCycle`: the rule in flight, if any, and the rules after it. -/
structure Cycle where
  now : Time
  todo : List (ServiceTarget × ProbeRule)
  flight : Option (Probe × Stage) := none

/-- The scheduler, the calls on it, the probes claimed and the samples evaluated so far. -/
structure System where
  scheduler : Scheduler := {}
  cycles : Nat → Option Cycle := fun _ => none
  starts : List Probe := []
  samples : List Probe := []

namespace System

def setCycle (s : System) (i : Nat) (cycle : Option Cycle) : System :=
  { s with cycles := Function.update s.cycles i cycle }

def next (s : System) (i : Nat) (now : Time) (rest : List (ServiceTarget × ProbeRule)) : System :=
  s.setCycle i (some ⟨now, rest, none⟩)

/-- The steps of the calls; a registry accepts the targets they go through. -/
inductive Step (registry : Target.Registry) (s : System) : System → Prop
  | enter (i : Nat) (snapshot : Target.Snapshot) (now : Time) (hfree : s.cycles i = none)
      (hnow : now.isZero = false)
      (hvalid : ∀ target ∈ snapshot.targets, registry.validateTarget target = .ok ()) :
      Step registry s (s.next i now (candidates snapshot))
  | skip (i : Nat) {now : Time} {candidate : ServiceTarget} {rule : ProbeRule}
      {rest : List (ServiceTarget × ProbeRule)}
      (hcycle : s.cycles i = some ⟨now, (candidate, rule) :: rest, none⟩)
      (hdue : (s.scheduler.startDue candidate.targetID rule now).1 = false) :
      Step registry s (s.next i now rest)
  | start (i : Nat) {now : Time} {candidate : ServiceTarget} {rule : ProbeRule}
      {rest : List (ServiceTarget × ProbeRule)}
      (hcycle : s.cycles i = some ⟨now, (candidate, rule) :: rest, none⟩)
      (hdue : (s.scheduler.startDue candidate.targetID rule now).1 = true) :
      Step registry s
        { s.setCycle i (some ⟨now, rest, some (⟨candidate.targetID, rule, now⟩, .probing)⟩) with
          scheduler := (s.scheduler.startDue candidate.targetID rule now).2
          starts := s.starts ++ [⟨candidate.targetID, rule, now⟩] }
  | evaluate (i : Nat) {now : Time} {probe : Probe} {rest : List (ServiceTarget × ProbeRule)}
      (failed : Bool) (hcycle : s.cycles i = some ⟨now, rest, some (probe, .probing)⟩) :
      Step registry s
        { s.setCycle i (some ⟨now, rest, some (probe, .evaluated)⟩) with
          scheduler := (s.scheduler.evaluate probe.targetID probe.rule now failed).2
          samples := s.samples ++ [probe] }
  | number (i : Nat) {now : Time} {probe : Probe} {rest : List (ServiceTarget × ProbeRule)}
      (hcycle : s.cycles i = some ⟨now, rest, some (probe, .evaluated)⟩) :
      Step registry s
        { s.setCycle i (some ⟨now, rest, some (probe, .numbered)⟩) with
          scheduler := { s.scheduler with sequence := s.scheduler.sequence + 1 } }
  -- a call that has not numbered its observation returns the error
  | finish (i : Nat) {now : Time} {probe : Probe} {stage : Stage}
      {rest : List (ServiceTarget × ProbeRule)}
      (hcycle : s.cycles i = some ⟨now, rest, some (probe, stage)⟩) :
      Step registry s
        { s.setCycle i (if stage = .numbered then some ⟨now, rest, none⟩ else none) with
          scheduler := s.scheduler.finish probe.targetID probe.rule.ruleID now }
  -- the end of the loop, or a cancelled context
  | leave (i : Nat) {now : Time} {rest : List (ServiceTarget × ProbeRule)}
      (hcycle : s.cycles i = some ⟨now, rest, none⟩) :
      Step registry s (s.setCycle i none)

def Reachable (registry : Target.Registry) (s : System) : Prop :=
  Relation.ReflTransGen (Step registry) {} s

def flights (s : System) (i : Nat) : Option (Probe × Stage) := (s.cycles i).bind Cycle.flight

theorem flights_setCycle (s : System) (i : Nat) (cycle : Option Cycle) :
    (s.setCycle i cycle).flights = Function.update s.flights i (cycle.bind Cycle.flight) := by
  funext j
  by_cases h : j = i
  · subst h
    simp [flights, setCycle]
  · simp [flights, setCycle, h]

end System

/-! ## What the maps say about the probes -/

/-- The two maps of the scheduler against the probes in flight and those made so far. -/
structure Ledger (s : Scheduler) (flights : Nat → Option (Probe × Stage))
    (starts samples : List Probe) : Prop where
  running : ∀ {i f}, flights i = some f → s.running f.1.key = true
  unique : ∀ {i j f g}, flights i = some f → flights j = some g → f.1.key = g.1.key → i = j
  claimed : ∀ {i f}, flights i = some f → f.1 ∈ starts
  latest : ∀ {i f}, flights i = some f → ∀ p ∈ starts, p.key = f.1.key → p.now ≤ f.1.now
  -- a rule that is not running has run at its latest start
  ended : ∀ p ∈ starts, s.running p.key = false → s.lastRun p.key ≠ 0 ∧ p.now ≤ s.lastRun p.key
  sampled : ∀ x ∈ samples, x ∈ starts
  fresh : ∀ {i probe}, flights i = some (probe, .probing) →
    ∀ x ∈ samples, x.key = probe.key → x.now < probe.now
  spaced : starts.Pairwise fun a b => a.key = b.key → b.rule.interval.toInt ≤ b.now - a.now
  increasing : samples.Pairwise fun a b => a.key = b.key → a.now < b.now

namespace Ledger

variable {s : Scheduler} {flights : Nat → Option (Probe × Stage)} {starts samples : List Probe}
  {i : Nat} {probe : Probe}

theorem empty : Ledger {} (fun _ => none) [] [] where
  running := nofun
  unique := nofun
  claimed := nofun
  latest := nofun
  ended := nofun
  sampled := nofun
  fresh := nofun
  spaced := .nil
  increasing := .nil

theorem interval_le (h : Ledger s flights starts samples) (hrule : Target.ValidRule probe.rule)
    (hdue : s.due probe.targetID probe.rule probe.now = true) {p : Probe} (hp : p ∈ starts)
    (hkey : p.key = probe.key) : probe.rule.interval.toInt ≤ probe.now - p.now := by
  obtain ⟨hidle, hlast⟩ := (Scheduler.due_iff hrule).mp hdue
  change s.running probe.key = false at hidle
  change s.lastRun probe.key = 0 ∨ _ ≤ probe.now - s.lastRun probe.key at hlast
  obtain ⟨hrun, hle⟩ := h.ended p hp (by rw [hkey, hidle])
  rw [hkey] at hrun hle
  exact (hlast.resolve_left hrun).trans (Int.sub_le_sub_left hle _)

theorem start (h : Ledger s flights starts samples) (hrule : Target.ValidRule probe.rule)
    (hdue : s.due probe.targetID probe.rule probe.now = true) :
    Ledger { s with running := Function.update s.running probe.key true }
      (Function.update flights i (some (probe, .probing))) (starts ++ [probe]) samples := by
  have hidle : s.running probe.key = false := ((Scheduler.due_iff hrule).mp hdue).1
  have hother : ∀ {j f}, flights j = some f → f.1.key ≠ probe.key := by
    intro j f hf hkey
    have hrunning := h.running hf
    rw [hkey, hidle] at hrunning
    cases hrunning
  have hbefore : ∀ p ∈ starts, p.key = probe.key → p.now < probe.now := fun p hp hkey =>
    Int.lt_of_sub_pos ((Scheduler.interval_pos hrule).trans_le (h.interval_le hrule hdue hp hkey))
  refine ⟨?_, ?_, ?_, ?_, ?_, ?_, ?_, ?_, h.increasing⟩
  case refine_1 =>
    intro j f hf
    change Function.update s.running probe.key true f.1.key = true
    by_cases hkey : f.1.key = probe.key
    · rw [hkey, Function.update_self]
    · rw [Function.update_of_ne hkey]
      rw [Function.update_apply] at hf
      split_ifs at hf with hj
      · cases hf
        exact absurd rfl hkey
      · exact h.running hf
  case refine_2 =>
    intro j k f g hf hg hkey
    rw [Function.update_apply] at hf hg
    split_ifs at hf hg with hj hk hk
    · rw [hj, hk]
    · cases hf
      exact absurd hkey.symm (hother hg)
    · cases hg
      exact absurd hkey (hother hf)
    · exact h.unique hf hg hkey
  case refine_3 =>
    intro j f hf
    rw [Function.update_apply] at hf
    split_ifs at hf with hj
    · cases hf
      exact List.mem_concat_self
    · exact List.mem_append_left _ (h.claimed hf)
  case refine_4 =>
    intro j f hf p hp hkey
    rw [Function.update_apply] at hf
    rcases List.mem_append.mp hp with hp | hp
    · split_ifs at hf with hj
      · cases hf
        exact (hbefore p hp hkey).le
      · exact h.latest hf p hp hkey
    · obtain rfl := List.mem_singleton.mp hp
      split_ifs at hf with hj
      · cases hf
        exact Int.le_refl _
      · exact absurd hkey.symm (hother hf)
  case refine_5 =>
    intro p hp hrunning
    change Function.update s.running probe.key true p.key = false at hrunning
    rw [Function.update_apply] at hrunning
    split_ifs at hrunning with hkey
    rcases List.mem_append.mp hp with hp | hp
    · exact h.ended p hp hrunning
    · rw [List.mem_singleton.mp hp] at hkey
      exact absurd rfl hkey
  case refine_6 => exact fun x hx => List.mem_append_left _ (h.sampled x hx)
  case refine_7 =>
    intro j probe' hf x hx hkey
    rw [Function.update_apply] at hf
    split_ifs at hf with hj
    · cases hf
      exact hbefore x (h.sampled x hx) hkey
    · exact h.fresh hf x hx hkey
  case refine_8 =>
    refine List.pairwise_append.mpr ⟨h.spaced, List.pairwise_singleton _ _, ?_⟩
    intro p hp b hb hkey
    obtain rfl := List.mem_singleton.mp hb
    exact h.interval_le hrule hdue hp hkey

theorem advance (h : Ledger s flights starts samples) {stage stage' : Stage}
    (hflight : flights i = some (probe, stage)) (hstage : stage' ≠ .probing) {s' : Scheduler}
    (hrunning : s'.running = s.running) (hlast : s'.lastRun = s.lastRun) :
    Ledger s' (Function.update flights i (some (probe, stage'))) starts samples := by
  -- every flight is, up to its stage, one there was before
  have hold : ∀ {j f}, Function.update flights i (some (probe, stage')) j = some f →
      ∃ g, flights j = some g ∧ g.1 = f.1 := by
    intro j f hf
    rw [Function.update_apply] at hf
    split_ifs at hf with hj
    · cases hf
      exact ⟨(probe, stage), hj ▸ hflight, rfl⟩
    · exact ⟨f, hf, rfl⟩
  refine ⟨?_, ?_, ?_, ?_, ?_, h.sampled, ?_, h.spaced, h.increasing⟩
  case refine_1 =>
    intro j f hf
    obtain ⟨g, hg, heq⟩ := hold hf
    rw [hrunning, ← heq, h.running hg]
  case refine_2 =>
    intro j k f f' hf hf' hkey
    obtain ⟨g, hg, heq⟩ := hold hf
    obtain ⟨g', hg', heq'⟩ := hold hf'
    exact h.unique hg hg' (by rw [heq, heq', hkey])
  case refine_3 =>
    intro j f hf
    obtain ⟨g, hg, heq⟩ := hold hf
    exact heq ▸ h.claimed hg
  case refine_4 =>
    intro j f hf
    obtain ⟨g, hg, heq⟩ := hold hf
    exact heq ▸ h.latest hg
  case refine_5 =>
    rw [hrunning, hlast]
    exact h.ended
  case refine_6 =>
    intro j probe' hf
    rw [Function.update_apply] at hf
    split_ifs at hf with hj
    · exact absurd (Prod.mk.inj (Option.some.inj hf)).2 hstage
    · exact h.fresh hf

theorem evaluate (h : Ledger s flights starts samples)
    (hflight : flights i = some (probe, .probing)) {s' : Scheduler}
    (hrunning : s'.running = s.running) (hlast : s'.lastRun = s.lastRun) :
    Ledger s' (Function.update flights i (some (probe, .evaluated))) starts
      (samples ++ [probe]) := by
  have hadvanced : Ledger s' (Function.update flights i (some (probe, .evaluated)))
    starts samples :=
    h.advance hflight (by decide) hrunning hlast
  refine { hadvanced with sampled := ?_, fresh := ?_, increasing := ?_ }
  · refine List.forall_mem_append.mpr ⟨h.sampled, List.forall_mem_singleton.mpr (h.claimed hflight)⟩
  · intro j probe' hf x hx hkey
    rcases List.mem_append.mp hx with hx | hx
    · exact hadvanced.fresh hf x hx hkey
    · obtain rfl := List.mem_singleton.mp hx
      rw [Function.update_apply] at hf
      split_ifs at hf with hj
      · cases hf
      · exact absurd (h.unique hf hflight hkey.symm) hj
  · refine List.pairwise_append.mpr ⟨h.increasing, List.pairwise_singleton _ _, ?_⟩
    intro x hx b hb hkey
    obtain rfl := List.mem_singleton.mp hb
    exact h.fresh hflight x hx hkey

theorem finish (h : Ledger s flights starts samples) {stage : Stage}
    (hflight : flights i = some (probe, stage)) (hnow : probe.now ≠ 0) :
    Ledger (s.finish probe.targetID probe.rule.ruleID probe.now) (Function.update flights i none)
      starts samples := by
  have hold : ∀ {j f}, Function.update flights i none j = some f →
      flights j = some f ∧ f.1.key ≠ probe.key := by
    intro j f hf
    rw [Function.update_apply] at hf
    split_ifs at hf with hj
    exact ⟨hf, fun hkey => hj (h.unique hf hflight hkey)⟩
  refine ⟨?_, ?_, ?_, ?_, ?_, h.sampled, ?_, h.spaced, h.increasing⟩
  case refine_1 =>
    intro j f hf
    obtain ⟨hf, hkey⟩ := hold hf
    exact (Function.update_of_ne hkey _ _).trans (h.running hf)
  case refine_2 => exact fun hf hg => h.unique (hold hf).1 (hold hg).1
  case refine_3 => exact fun hf => h.claimed (hold hf).1
  case refine_4 => exact fun hf => h.latest (hold hf).1
  case refine_5 =>
    intro p hp hrunning
    by_cases hkey : p.key = probe.key
    · have hlastRun : (s.finish probe.targetID probe.rule.ruleID probe.now).lastRun p.key =
          probe.now := by
        rw [hkey]
        exact Function.update_self _ _ _
      rw [hlastRun]
      exact ⟨hnow, h.latest hflight p hp hkey⟩
    · have hlastRun : (s.finish probe.targetID probe.rule.ruleID probe.now).lastRun p.key =
          s.lastRun p.key := Function.update_of_ne hkey _ _
      have hidle : s.running p.key = false := (Function.update_of_ne hkey _ _).symm.trans hrunning
      rw [hlastRun]
      exact h.ended p hp hidle
  case refine_6 => exact fun hf => h.fresh (hold hf).1

end Ledger

/-! ## Every interleaving -/

/-- A call has a time, checked rules, and stamps its probe with its time. -/
structure Cycle.WellFormed (cycle : Cycle) : Prop where
  nonzero : cycle.now ≠ 0
  rules : ∀ p ∈ cycle.todo, Target.ValidRule p.2
  stamped : ∀ f ∈ cycle.flight, f.1.now = cycle.now

namespace System

structure Invariant (s : System) : Prop where
  cycles : ∀ i, ∀ cycle ∈ s.cycles i, cycle.WellFormed
  ledger : Ledger s.scheduler s.flights s.starts s.samples

theorem wellFormed_setCycle {s : System} (h : ∀ i, ∀ cycle ∈ s.cycles i, cycle.WellFormed) {i : Nat}
    {cycle : Option Cycle} (hcycle : ∀ c ∈ cycle, c.WellFormed) :
    ∀ j, ∀ c ∈ (s.setCycle i cycle).cycles j, c.WellFormed := by
  intro j c hc
  by_cases hj : j = i
  · subst hj
    exact hcycle c (by simpa [setCycle] using hc)
  · exact h j c (by simpa [setCycle, hj] using hc)

theorem Invariant.setCycle {s : System} (h : s.Invariant) {i : Nat} {cycle : Option Cycle}
    (hidle : s.flights i = none) (hnone : cycle.bind Cycle.flight = none)
    (hcycle : ∀ c ∈ cycle, c.WellFormed) : (s.setCycle i cycle).Invariant := by
  refine ⟨wellFormed_setCycle h.cycles hcycle, ?_⟩
  have hflights : (s.setCycle i cycle).flights = s.flights := by
    rw [flights_setCycle, hnone, ← hidle, Function.update_eq_self]
  rw [hflights]
  exact h.ledger

theorem wellFormed_restage {now : Time} {rest : List (ServiceTarget × ProbeRule)} {probe : Probe}
    {stage stage' : Stage} (h : Cycle.WellFormed ⟨now, rest, some (probe, stage)⟩) :
    ∀ c ∈ some (⟨now, rest, some (probe, stage')⟩ : Cycle), c.WellFormed := by
  rintro _ ⟨⟩
  refine ⟨h.nonzero, h.rules, ?_⟩
  rintro _ ⟨⟩
  exact h.stamped (probe, stage) rfl

theorem validRule_of_candidates {registry : Target.Registry} {snapshot : Target.Snapshot}
    (hvalid : ∀ target ∈ snapshot.targets, registry.validateTarget target = .ok ()) :
    ∀ p ∈ candidates snapshot, Target.ValidRule p.2 := by
  intro p hp
  obtain ⟨target, htarget, hp⟩ := List.mem_flatMap.mp hp
  split_ifs at hp
  · obtain ⟨rule, hrule, rfl⟩ := List.mem_map.mp hp
    exact (Target.valid_of_validateTarget (hvalid target htarget)).rules rule hrule
  · cases hp

theorem Step.invariant {registry : Target.Registry} {s s' : System} (hstep : Step registry s s')
    (h : s.Invariant) : s'.Invariant := by
  cases hstep with
  | enter i snapshot now hfree hnow hvalid =>
    refine h.setCycle (by rw [flights, hfree, Option.bind_none]) rfl ?_
    rintro _ ⟨⟩
    exact ⟨by simpa [Time.isZero] using hnow, validRule_of_candidates hvalid, nofun⟩
  | @skip i now candidate rule rest hcycle hdue =>
    have hformed := h.cycles i _ hcycle
    refine h.setCycle (by rw [flights, hcycle, Option.bind_some]) rfl ?_
    rintro _ ⟨⟩
    exact ⟨hformed.nonzero, (List.forall_mem_cons.mp hformed.rules).2, nofun⟩
  | @start i now candidate rule rest hcycle hdue =>
    have hformed := h.cycles i _ hcycle
    obtain ⟨hrule, hrest⟩ := List.forall_mem_cons.mp hformed.rules
    obtain ⟨hdue, hstarted⟩ := Scheduler.startDue_true hdue
    refine ⟨wellFormed_setCycle h.cycles ?_, ?_⟩
    · rintro _ ⟨⟩
      exact ⟨hformed.nonzero, hrest, by rintro _ ⟨⟩; rfl⟩
    · have hledger := @Ledger.start _ _ _ _ i ⟨candidate.targetID, rule, now⟩ h.ledger hrule hdue
      change Ledger _ (s.setCycle i _).flights _ _
      rw [flights_setCycle, hstarted]
      exact hledger
  | @evaluate i now probe rest failed hcycle =>
    have hflight : s.flights i = some (probe, .probing) := by rw [flights, hcycle]; rfl
    refine ⟨wellFormed_setCycle h.cycles (wellFormed_restage (h.cycles i _ hcycle)), ?_⟩
    change Ledger _ (s.setCycle i _).flights _ _
    rw [flights_setCycle]
    exact h.ledger.evaluate hflight rfl rfl
  | @number i now probe rest hcycle =>
    have hflight : s.flights i = some (probe, .evaluated) := by rw [flights, hcycle]; rfl
    refine ⟨wellFormed_setCycle h.cycles (wellFormed_restage (h.cycles i _ hcycle)), ?_⟩
    change Ledger _ (s.setCycle i _).flights _ _
    rw [flights_setCycle]
    exact h.ledger.advance hflight (by decide) rfl rfl
  | @finish i now probe stage rest hcycle =>
    have hflight : s.flights i = some (probe, stage) := by rw [flights, hcycle]; rfl
    have hformed := h.cycles i _ hcycle
    obtain rfl : probe.now = now := hformed.stamped (probe, stage) rfl
    refine ⟨wellFormed_setCycle h.cycles ?_, ?_⟩
    · intro c hc
      split_ifs at hc
      · cases hc
        exact ⟨hformed.nonzero, hformed.rules, nofun⟩
      · cases hc
    · have hnone : (if stage = .numbered then some (⟨probe.now, rest, none⟩ : Cycle)
          else none).bind Cycle.flight = none := by split_ifs <;> rfl
      change Ledger _ (s.setCycle i _).flights _ _
      rw [flights_setCycle, hnone]
      exact h.ledger.finish hflight hformed.nonzero
  | @leave i now rest hcycle =>
    exact h.setCycle (by rw [flights, hcycle, Option.bind_some]) rfl nofun

theorem Reachable.invariant {registry : Target.Registry} {s : System}
    (h : Reachable registry s) : s.Invariant := by
  induction h with
  | refl => exact ⟨nofun, Ledger.empty⟩
  | tail _ hstep ih => exact hstep.invariant ih

def SameRule (a b : Probe) : Prop := a.targetID = b.targetID ∧ a.rule.ruleID = b.rule.ruleID

theorem SameRule.key_eq {a b : Probe} (h : SameRule a b) : a.key = b.key := by
  rw [Probe.key, Probe.key, h.1, h.2]

/-- However the calls interleave, a rule is in flight at most once, its probes are an interval
apart, and its samples are evaluated in the order of time. -/
theorem probes_spaced_and_exclusive {registry : Target.Registry} {s : System}
    (h : Reachable registry s) :
    (∀ i j f g, s.flights i = some f → s.flights j = some g → SameRule f.1 g.1 → i = j) ∧
    (s.starts.Pairwise fun a b => SameRule a b → b.rule.interval.toInt ≤ b.now - a.now) ∧
    (s.samples.Pairwise fun a b => SameRule a b → a.now < b.now) ∧
    -- every evaluated sample belongs to a probe that was started
    ∀ x ∈ s.samples, x ∈ s.starts := by
  obtain ⟨-, hledger⟩ := h.invariant
  refine ⟨fun i j f g hf hg hsame => hledger.unique hf hg hsame.key_eq, ?_, ?_, hledger.sampled⟩
  · exact hledger.spaced.imp fun hspaced hsame => hspaced hsame.key_eq
  · exact hledger.increasing.imp fun hlt hsame => hlt hsame.key_eq

theorem probes_spaced_and_exclusive_two_calls : ∃ s, Reachable sampleRegistry s ∧
    s.starts.map Probe.now = [100000000000, 160000000000] ∧
    s.starts.Pairwise fun a b => SameRule a b → b.rule.interval.toInt ≤ b.now - a.now := by
  let snapshot : Target.Snapshot := { version := 1, targets := [sampleTarget (lit "api")] }
  have hvalid : ∀ target ∈ snapshot.targets, sampleRegistry.validateTarget target = .ok () :=
    List.forall_mem_singleton.mpr (by decide +kernel)
  have first : Relation.ReflTransGen (Step sampleRegistry) {} _ :=
    .single (.enter 0 snapshot 100000000000 rfl rfl hvalid)
  have claimed := first.tail (.start 0 rfl (by decide +kernel))
  have sampled := claimed.tail (.evaluate 0 true rfl)
  have released := sampled.tail (.finish 0 rfl)
  have second := released.tail (.enter 1 snapshot 160000000000 rfl rfl hvalid)
  have again := second.tail (.start 1 rfl (by decide +kernel))
  exact ⟨_, again, rfl, (probes_spaced_and_exclusive again).2.1⟩

end System

end PulseAgent.Observer
