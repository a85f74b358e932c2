import PulseAgent.Go.FloatOrder
import PulseAgent.Go.TimeOrder
import PulseAgent.Target.Document

/-!
# Evaluating samples

Two counters hold the length of the current run, and a gap of more than the window starts a new one.
-/

namespace PulseAgent.Observer

open Go Contract

def maxValues : Nat := 16
def maxValue : Dec := .normalize false 1000000 0
def minValue : Dec := .normalize true 1000000 0
def maxSamples : Nat := 256

/-! ## Measured values -/

abbrev Values := Std.ExtTreeMap Bytes Float64

def failedSample (rule : ProbeRule) (values : Values) : Option Bool :=
  match values[rule.signalType]? with
  | none => none
  | some value =>
    if rule.signalType = lit "availability" then some (value.lt rule.threshold)
    else some (rule.threshold.lt value)

def clamp (value : Float64) : Float64 :=
  let value := if Float64.lt (.finite maxValue) value then .finite maxValue else value
  if value.lt (.finite minValue) then .finite minValue else value

/-- The loop over the sorted keys, which ends once the map is full. -/
def bound (bounded : Values) : List (Bytes × Float64) → Values
  | [] => bounded
  | (key, value) :: entries =>
    if bounded.size = maxValues then bounded
    else if value.isFinite then bound (bounded.insert key (clamp value)) entries
    else bound bounded entries

def boundedValues (values : Values) : Values := bound ∅ values.toList

/-! ## Samples -/

structure Sample where
  observedAt : Time
  failed : Bool
deriving DecidableEq

structure RuleState where
  failures : Int64 := 0
  recoveries : Int64 := 0
  samples : List Sample := []
deriving DecidableEq

/-- Drops the samples before the cutoff and then all but the last ones. -/
def trim (cutoff : Time) (samples : List Sample) : List Sample :=
  let kept := samples.dropWhile fun sample => sample.observedAt < cutoff
  kept.drop (kept.length - maxSamples)

/-- The counters after a gap of more than the window. -/
def resetGap (state : RuleState) (rule : ProbeRule) (now : Time) : RuleState :=
  match state.samples.getLast? with
  | none => state
  | some last =>
    if rule.sloWindow < now.sub last.observedAt then { state with failures := 0, recoveries := 0 }
    else state

def RuleState.next (state : RuleState) (rule : ProbeRule) (now : Time)
    (failed : Bool) : RuleState :=
  let state := resetGap state rule now
  { failures := if failed then state.failures + 1 else 0
    recoveries := if failed then 0 else state.recoveries + 1
    samples := trim (now.add (-rule.sloWindow)) (state.samples ++ [⟨now, failed⟩]) }

def RuleState.verdict (state : RuleState) (rule : ProbeRule) : NormalizedState :=
  if rule.consecutiveFailures ≤ state.failures then .unhealthy
  else if rule.recoverySamples ≤ state.recoveries then .healthy
  else .unknown

/-! ## The scheduler's state -/

/-- A missing entry of a map is the zero value of its type. -/
structure Scheduler where
  lastRun : Bytes → Time := fun _ => 0
  running : Bytes → Bool := fun _ => false
  states : Bytes → RuleState := fun _ => {}
  sequence : UInt64 := 0

def ruleKey (targetID ruleID : Bytes) : Bytes := targetID ++ 47 :: ruleID

def Scheduler.evaluate (s : Scheduler) (targetID : Bytes) (rule : ProbeRule) (now : Time)
    (failed : Bool) : NormalizedState × Scheduler :=
  let key := ruleKey targetID rule.ruleID
  let state := (s.states key).next rule now failed
  (state.verdict rule, { s with states := Function.update s.states key state })

end PulseAgent.Observer
