import PulseAgent.Observer.Debounce

/-!
# Scheduler cycles

A rule is claimed by `startDue`, probed, evaluated and released by `finish`. What the probe, the
identifier source and the context answer is given by `Answers`.
-/

namespace PulseAgent.Observer

open Go Contract

def errInvalidOptions : Error := .new "invalid observer options"
def errProbeFailed : Error := .new "probe failed"

/-- The rules a cycle goes through: the two loops over the targets and their rules. -/
def candidates (snapshot : Target.Snapshot) : List (ServiceTarget × ProbeRule) :=
  snapshot.targets.flatMap fun candidate =>
    if candidate.enabled then (elems candidate.probeRules).map (candidate, ·) else []

namespace Scheduler

/-- Neither running nor run less than the interval ago. -/
def due (s : Scheduler) (targetID : Bytes) (rule : ProbeRule) (now : Time) : Bool :=
  let key := ruleKey targetID rule.ruleID
  if s.running key then false
  else !(!(s.lastRun key).isZero && now.sub (s.lastRun key) < rule.interval)

def startDue (s : Scheduler) (targetID : Bytes) (rule : ProbeRule) (now : Time) :
    Bool × Scheduler :=
  if s.due targetID rule now then
    (true, { s with running := Function.update s.running (ruleKey targetID rule.ruleID) true })
  else (false, s)

def finish (s : Scheduler) (targetID ruleID : Bytes) (now : Time) : Scheduler :=
  { s with
    running := Function.update s.running (ruleKey targetID ruleID) false
    lastRun := Function.update s.lastRun (ruleKey targetID ruleID) now }

end Scheduler

/-! ## One call of `RunCycle` -/

/-- `contract.HealthObservation`, with the map of values as it is in memory; it holds no evidence
references. -/
structure Observation where
  schemaVersion : Bytes
  observationID : Bytes
  targetID : Bytes
  ruleID : Bytes
  targetSnapshotVersion : UInt64
  observedAt : Time
  normalizedState : NormalizedState
  boundedValues : Values
  sequence : UInt64

/-- What the dependencies answer during a cycle, by rule: the context before the rule is started and
after its probe failed, the probe, and the identifier source. -/
structure Answers where
  ctxErr : ServiceTarget → ProbeRule → Option Error := fun _ _ => none
  probe : ServiceTarget → ProbeRule → Option Values
  probeCtxErr : ServiceTarget → ProbeRule → Option Error := fun _ _ => none
  newID : ServiceTarget → ProbeRule → Except Error Bytes

def observe (answers : Answers) (candidate : ServiceTarget) (rule : ProbeRule)
    (snapshotVersion : UInt64) (now : Time) (s : Scheduler) :
      Except Error Observation × Scheduler :=
  match answers.probe candidate rule with
  | none => (.error ((answers.probeCtxErr candidate rule).getD errProbeFailed), s)
  | some values =>
    let bounded := boundedValues values
    match failedSample rule bounded with
    | none => (.error errProbeFailed, s)
    | some failed =>
      let (state, s) := s.evaluate candidate.targetID rule now failed
      match answers.newID candidate rule with
      | .error e => (.error e, s)
      | .ok id =>
        let sequence := s.sequence + 1
        (.ok
          { schemaVersion := schemaVersionV1
            observationID := id
            targetID := candidate.targetID
            ruleID := rule.ruleID
            targetSnapshotVersion := snapshotVersion
            observedAt := now
            normalizedState := state
            boundedValues := bounded
            sequence },
         { s with sequence })

/-- The result of a cycle, with the rules it has probed. -/
structure CycleResult where
  observations : List Observation
  err : Option Error
  scheduler : Scheduler
  probed : List (ServiceTarget × ProbeRule)

/-- The loop of `RunCycle` from its state `r`. -/
def runRules (answers : Answers) (snapshotVersion : UInt64) (now : Time) (r : CycleResult) :
    List (ServiceTarget × ProbeRule) → CycleResult
  | [] => r
  | (candidate, rule) :: rest =>
    match answers.ctxErr candidate rule with
    | some e => { r with err := some e }
    | none =>
      match r.scheduler.startDue candidate.targetID rule now with
      | (false, s) => runRules answers snapshotVersion now { r with scheduler := s } rest
      | (true, s) =>
        match observe answers candidate rule snapshotVersion now s with
        | (.error e, s) =>
          { r with
            err := some e
            scheduler := s.finish candidate.targetID rule.ruleID now
            probed := r.probed ++ [(candidate, rule)] }
        | (.ok observation, s) =>
          runRules answers snapshotVersion now
            { r with
              observations := r.observations ++ [observation]
              scheduler := s.finish candidate.targetID rule.ruleID now
              probed := r.probed ++ [(candidate, rule)] } rest

def runCycle (answers : Answers) (snapshot : Target.Snapshot) (now : Time) (s : Scheduler) :
    CycleResult :=
  if now.isZero then ⟨[], some errInvalidOptions, s, []⟩
  else runRules answers snapshot.version now ⟨[], none, s, []⟩ (candidates snapshot)

/-! ## When a rule is due -/

namespace Scheduler

variable {s : Scheduler} {targetID : Bytes} {rule : ProbeRule} {now : Time}

theorem interval_pos (hrule : Target.ValidRule rule) : 0 < rule.interval.toInt := by
  have hpos : 0 < rule.interval := Int64.lt_of_lt_of_le (by decide) hrule.interval.1
  exact Int64.lt_iff_toInt_lt.mp hpos

theorem due_iff (hrule : Target.ValidRule rule) :
    s.due targetID rule now = true ↔
      s.running (ruleKey targetID rule.ruleID) = false ∧
        (s.lastRun (ruleKey targetID rule.ruleID) = 0 ∨
          rule.interval.toInt ≤ now - s.lastRun (ruleKey targetID rule.ruleID)) := by
  have hmin : Int64.minValue < rule.interval := Int64.lt_of_lt_of_le (by decide) hrule.interval.1
  unfold due Time.isZero
  cases hrunning : s.running (ruleKey targetID rule.ruleID) with
  | true => simp [hrunning]
  | false =>
    simp only [hrunning, Bool.false_eq_true, if_false, Bool.not_eq_true', Bool.and_eq_false_iff,
      Bool.not_eq_false', beq_iff_eq, decide_eq_false_iff_not, Time.sub_lt_iff _ _ hmin, Int.not_lt,
      true_and]

theorem startDue_true (h : (s.startDue targetID rule now).1 = true) :
    s.due targetID rule now = true ∧ (s.startDue targetID rule now).2 =
      { s with running := Function.update s.running (ruleKey targetID rule.ruleID) true } := by
  unfold startDue at h ⊢
  split_ifs at h ⊢ with hdue
  exact ⟨hdue, rfl⟩

end Scheduler

/-! ## Sample targets -/

def sampleTarget (targetID : Bytes) : ServiceTarget :=
  { schemaVersion := schemaVersionV1
    targetID
    adapterType := lit "docker"
    selector := lit "container:" ++ targetID
    enabled := true
    probeRules := some [sampleRule (lit "up")]
    evidencePolicy := { redactionProfile := lit "default", maxBytes := 1024 }
    stabilizationPolicy := { recoverySamples := 1, window := 60000000000 } }

def sampleRegistry : Target.Registry :=
  ⟨[(lit "api", lit "docker"), (lit "web", lit "docker")], 2, 1024, {}⟩

end PulseAgent.Observer
