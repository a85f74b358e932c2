import Mathlib.Logic.Relation
import PulseAgent.Go.Errors

/-!
# Draining a service

The channel `drained` is closed by the call that stops the service or by the completion of its last
unit, whichever comes second. Every method holds the mutex; the completion functions go through a
`sync.Once` before they take it.
-/

namespace PulseAgent.Standalone

open Go

def errAlreadyStarted : Error := .new "standalone service already started"

/-- The panic of a second `close`. -/
def panicClosed : Error := .new "close of closed channel"

/-- `drained` says whether the channel is closed. -/
structure Service where
  started : Bool := false
  accepting : Bool := false
  active : Int64 := 0
  drained : Bool := false
deriving DecidableEq

namespace Service

def close (s : Service) : Except Error Service :=
  if s.drained then .error panicClosed else .ok { s with drained := true }

/-- Whether a unit is admitted, and the service after it. -/
def beginWork (s : Service) : Bool × Service :=
  if !s.accepting then (false, s) else (true, { s with active := s.active + 1 })

def start (s : Service) : Except Error Service :=
  if s.started then .error errAlreadyStarted
  else .ok { s with started := true, accepting := true }

def stopAccepting (s : Service) : Except Error Service :=
  let s := { s with accepting := false }
  if s.active = 0 then s.close else .ok s

def completeWork (s : Service) : Except Error Service :=
  let s := { s with active := s.active - 1 }
  if !s.accepting && s.active = 0 then s.close else .ok s

end Service

/-! ## Interleavings -/

/-- The `sync.Once` of a completion function. -/
inductive Once where
  | unused
  | running
  | done
deriving DecidableEq

/-- How far the run of the service is. -/
inductive Phase where
  | created
  | serving
  | stopped
deriving DecidableEq

/-- The service with one `Once` for each unit admitted so far. -/
structure System where
  service : Service := {}
  units : List Once := []
  phase : Phase := .created

namespace System

/-- The units that are not complete. -/
def outstanding (s : System) : Nat := s.units.countP (· ≠ .done)

/-- One step of some goroutine. A run starts the service once and stops it once, in this order; a
second run is turned away. Fewer than 2^63 units are open at any time. -/
inductive Step : System → System → Prop where
  | start {s : System} {service : Service} (hphase : s.phase = .created)
    (hstart : s.service.start = .ok service) :
    Step s { s with service := service, phase := .serving }
  | startAgain {s : System} {e : Error} (hstart : s.service.start = .error e) : Step s s
  | begin {s : System} {service : Service} (hbegin : s.service.beginWork = (true, service))
    (hroom : s.outstanding + 1 < 2 ^ 63) :
    Step s { s with service := service, units := s.units ++ [.unused] }
  | refuse {s : System} {service : Service} (hbegin : s.service.beginWork = (false, service)) :
    Step s { s with service := service }
  | complete {s : System} {i : Nat} (hunit : s.units[i]? = some .unused) :
    Step s { s with units := s.units.set i .running }
  | completeAgain {s : System} {i : Nat} {once : Once} (hunit : s.units[i]? = some once)
    (hused : once ≠ .unused) : Step s s
  | completeWork {s : System} {i : Nat} {service : Service} (hunit : s.units[i]? = some .running)
    (hwork : s.service.completeWork = .ok service) :
    Step s { s with service := service, units := s.units.set i .done }
  | stopAccepting {s : System} {service : Service} (hphase : s.phase = .serving)
    (hstop : s.service.stopAccepting = .ok service) :
    Step s { s with service := service, phase := .stopped }

abbrev Steps : System → System → Prop := Relation.ReflTransGen Step

def Reachable (s : System) : Prop := Steps {} s

/-! ## The invariant -/

structure Invariant (s : System) : Prop where
  active : s.service.active.toInt = s.outstanding
  started : s.service.started = true ↔ s.phase ≠ .created
  accepting : s.service.accepting = true ↔ s.phase = .serving
  drained : s.service.drained = true ↔ s.phase = .stopped ∧ s.service.active = 0
  created : s.phase = .created → s.units = []

theorem outstanding_begin (s : System) (service : Service) :
    outstanding { s with service := service, units := s.units ++ [.unused] } =
      s.outstanding + 1 := by
  simp [outstanding]

theorem outstanding_set {s : System} {i : Nat} {old : Once} (hunit : s.units[i]? = some old)
    (new : Once) :
    (s.units.set i new).countP (· ≠ .done) + (if old ≠ .done then 1 else 0) =
      s.outstanding + if new ≠ .done then 1 else 0 := by
  obtain ⟨hi, rfl⟩ := List.getElem?_eq_some_iff.mp hunit
  have hsplit : s.units = s.units.take i ++ s.units[i] :: s.units.drop (i + 1) := by
    rw [List.getElem_cons_drop, List.take_append_drop]
  rw [outstanding, List.set_eq_take_append_cons_drop, if_pos hi]
  conv_rhs => rw [hsplit]
  simp only [List.countP_append, List.countP_cons, decide_eq_true_eq]
  omega

theorem outstanding_pos {s : System} {i : Nat} (hunit : s.units[i]? = some .running) :
    0 < s.outstanding :=
  List.countP_pos_iff.mpr ⟨.running, List.mem_of_getElem? hunit, by decide⟩

theorem toInt_add_one {a : Int64} {n : Nat} (ha : a.toInt = n) (hroom : n + 1 < 2 ^ 63) :
    (a + 1).toInt = n + 1 := by
  rw [Int64.toInt_add, ha, Int64.toInt_one]
  exact Int.bmod_eq_of_le (by omega) (by omega)

theorem toInt_sub_one {a : Int64} {n : Nat} (ha : a.toInt = n) (hpos : 0 < n) :
    (a - 1).toInt = n - 1 := by
  have hlt := a.toInt_lt
  rw [Int64.toInt_sub, ha, Int64.toInt_one]
  exact Int.bmod_eq_of_le (by omega) (by omega)

theorem sub_one_eq_zero {a : Int64} : a - 1 = 0 ↔ a = 1 := by
  rw [← Int64.sub_self (a := 1), Int64.sub_left_inj]

namespace Invariant

variable {s : System}

theorem active_eq_iff (h : Invariant s) {a : Int64} :
    s.service.active = a ↔ (s.outstanding : Int) = a.toInt := by
  rw [← Int64.toInt_inj, h.active]

theorem not_drained (h : Invariant s) (hopen : ¬(s.phase = .stopped ∧ s.service.active = 0)) :
    s.service.drained = false :=
  Bool.eq_false_iff.mpr fun hclosed => hopen (h.drained.mp hclosed)

theorem stopAccepting (h : Invariant s) (hphase : s.phase = .serving) :
    s.service.stopAccepting = .ok
      { s.service with accepting := false, drained := decide (s.service.active = 0) } := by
  have hdrained := h.not_drained (by simp [hphase])
  unfold Service.stopAccepting
  by_cases hzero : s.service.active = 0
  · simp [hzero, Service.close, hdrained]
  · simp [hzero, hdrained]

theorem completeWork (h : Invariant s) {i : Nat} (hunit : s.units[i]? = some .running) :
    s.service.completeWork = .ok
      { s.service with
        active := s.service.active - 1
        drained := decide (s.phase = .stopped ∧ s.service.active = 1) } := by
  have hpos := outstanding_pos hunit
  have hopen : s.service.active ≠ 0 := fun hzero => by
    have hnone : (s.outstanding : Int) = 0 := h.active_eq_iff.mp hzero
    omega
  have hdrained := h.not_drained fun hclosed => hopen hclosed.2
  unfold Service.completeWork
  cases hphase : s.phase with
  | created =>
    rw [h.created hphase] at hunit
    cases hunit
  | serving =>
    have haccepting := h.accepting.mpr hphase
    simp [haccepting, hdrained]
  | stopped =>
    have haccepting : s.service.accepting = false :=
      Bool.eq_false_iff.mpr fun haccepting => by simpa [hphase] using h.accepting.mp haccepting
    by_cases hone : s.service.active = 1
    · simp [haccepting, hone, Service.close, hdrained]
    · have hrest : s.service.active - 1 ≠ 0 := fun hzero => hone (sub_one_eq_zero.mp hzero)
      simp [haccepting, hdrained, hone, hrest]

theorem step (h : Invariant s) {s' : System} (hstep : Step s s') : Invariant s' := by
  obtain ⟨hactive, hstarted, haccepting, hdrained, hcreated⟩ := h
  have h : Invariant s := ⟨hactive, hstarted, haccepting, hdrained, hcreated⟩
  cases hstep with
  | @start service hphase hstart =>
    simp only [Service.start] at hstart
    split at hstart
    case isTrue => cases hstart
    case isFalse =>
      cases hstart
      refine ⟨hactive, by simp, by simp, ?_, by simp⟩
      rw [hdrained, hphase]
      simp
  | startAgain hstart => exact h
  | @begin service hbegin hroom =>
    simp only [Service.beginWork] at hbegin
    split at hbegin
    case isTrue => cases hbegin
    case isFalse haccepts =>
      cases hbegin
      have hphase : s.phase = .serving := haccepting.mp (by simpa using haccepts)
      refine ⟨?_, hstarted, haccepting, ?_, by simp [hphase]⟩
      · rw [outstanding_begin, Nat.cast_add]
        exact toInt_add_one hactive hroom
      · rw [hdrained]
        simp [hphase]
  | @refuse service hbegin =>
    simp only [Service.beginWork] at hbegin
    split at hbegin
    case isTrue =>
      cases hbegin
      exact h
    case isFalse => cases hbegin
  | @complete i hunit =>
    have hcount := outstanding_set hunit .running
    simp only [ne_eq, reduceCtorEq, not_false_eq_true, if_true, Nat.add_right_cancel_iff] at hcount
    refine ⟨?_, hstarted, haccepting, hdrained, ?_⟩
    · rw [hactive]
      exact congrArg Nat.cast hcount.symm
    · intro hphase
      rw [hcreated hphase] at hunit
      cases hunit
  | completeAgain hunit hused => exact h
  | @completeWork i service hunit hwork =>
    cases (h.completeWork hunit).symm.trans hwork
    have hcount := outstanding_set hunit .done
    simp only [ne_eq, reduceCtorEq, not_false_eq_true, if_true, not_true_eq_false, if_false,
      Nat.add_zero] at hcount
    refine ⟨?_, hstarted, haccepting, ?_, ?_⟩
    · refine (toInt_sub_one hactive (outstanding_pos hunit)).trans ?_
      rw [← hcount]
      simp [outstanding]
    · simp only [decide_eq_true_eq, sub_one_eq_zero]
    · intro hphase
      rw [hcreated hphase] at hunit
      cases hunit
  | @stopAccepting service hphase hstop =>
    cases (h.stopAccepting hphase).symm.trans hstop
    refine ⟨hactive, ?_, by simp, by simp, by simp⟩
    rw [hstarted, hphase]
    simp

theorem initial : Invariant {} := ⟨rfl, by simp, by simp, by simp, by simp⟩

theorem steps {s' : System} (h : Invariant s) (hsteps : Steps s s') : Invariant s' := by
  induction hsteps with
  | refl => exact h
  | tail _ hstep ih => exact ih.step hstep

end Invariant

/-- Once the channel is closed it stays closed, and nothing more is admitted. -/
theorem closed_of_steps {s s' : System} (h : Invariant s) (hdrained : s.service.drained = true)
    (hsteps : Steps s s') :
    s'.service.drained = true ∧ s'.units.length = s.units.length ∧
      s'.service.beginWork = (false, s'.service) := by
  have hrefused : ∀ {t : System}, Invariant t → t.service.drained = true →
      t.service.beginWork = (false, t.service) := by
    intro t ht hclosed
    have hphase := (ht.drained.mp hclosed).1
    have haccepting : t.service.accepting = false :=
      Bool.eq_false_iff.mpr fun haccepting => by simpa [hphase] using ht.accepting.mp haccepting
    simp [Service.beginWork, haccepting]
  induction hsteps with
  | refl => exact ⟨hdrained, rfl, hrefused h hdrained⟩
  | @tail t u hto hstep ih =>
    obtain ⟨hclosed, hlength, hbegins⟩ := ih
    have ht := h.steps hto
    have hphase := (ht.drained.mp hclosed).1
    have hkeeps : u.service.drained = true ∧ u.units.length = t.units.length := by
      cases hstep with
      | start hother => rw [hother] at hphase; cases hphase
      | startAgain hstart => exact ⟨hclosed, rfl⟩
      | begin hbegin hroom => rw [hbegins] at hbegin; cases hbegin
      | refuse hbegin =>
        rw [hbegins] at hbegin
        cases hbegin
        exact ⟨hclosed, rfl⟩
      | complete hunit => exact ⟨hclosed, List.length_set⟩
      | completeAgain hunit hused => exact ⟨hclosed, rfl⟩
      | completeWork hunit hwork =>
        -- every unit is complete
        have hpos := outstanding_pos hunit
        have hzero : (t.outstanding : Int) = 0 := ht.active_eq_iff.mp (ht.drained.mp hclosed).2
        omega
      | stopAccepting hother => rw [hother] at hphase; cases hphase
    exact ⟨hkeeps.1, hkeeps.2.trans hlength, hrefused (ht.step hstep) hkeeps.1⟩

/-- In every interleaving the counter is the number of units that are not complete, no call closes
the channel twice, the channel is closed exactly when the service has stopped and the counter is
zero, and nothing is admitted after that. -/
theorem drain_exact (s : System) (h : Reachable s) :
    s.service.active.toInt = s.outstanding ∧ 0 ≤ s.service.active ∧
    (s.phase = .serving → ∃ service, s.service.stopAccepting = .ok service) ∧
    (∀ i : Nat, s.units[i]? = some .running → ∃ service, s.service.completeWork = .ok service) ∧
    (s.service.drained = true ↔ s.phase = .stopped ∧ s.service.active = 0) ∧
    (s.service.drained = true → ∀ later, Steps s later → later.service.drained = true ∧
      later.units.length = s.units.length ∧
      later.service.beginWork = (false, later.service)) := by
  have hinvariant := Invariant.initial.steps h
  refine ⟨hinvariant.active, ?_, fun hphase => ⟨_, hinvariant.stopAccepting hphase⟩,
    fun i hunit => ⟨_, hinvariant.completeWork hunit⟩, hinvariant.drained,
    fun hdrained later hlater => closed_of_steps hinvariant hdrained hlater⟩
  rw [Int64.le_iff_toInt_le, hinvariant.active]
  exact Int.natCast_nonneg _

theorem reachable_drained :
    Reachable ⟨⟨true, false, 0, true⟩, [.done, .done], .stopped⟩ := by
  have hstart : Reachable ⟨⟨true, true, 0, false⟩, [], .serving⟩ := .tail .refl (.start rfl rfl)
  have hone : Reachable ⟨⟨true, true, 1, false⟩, [.unused], .serving⟩ :=
    .tail hstart (.begin rfl (by decide))
  have htwo : Reachable ⟨⟨true, true, 2, false⟩, [.unused, .unused], .serving⟩ :=
    .tail hone (.begin rfl (by decide))
  have hfirst : Reachable ⟨⟨true, true, 2, false⟩, [.running, .unused], .serving⟩ :=
    .tail htwo (.complete (i := 0) rfl)
  have hfirstDone : Reachable ⟨⟨true, true, 1, false⟩, [.done, .unused], .serving⟩ :=
    .tail hfirst (.completeWork (i := 0) rfl rfl)
  have hstop : Reachable ⟨⟨true, false, 1, false⟩, [.done, .unused], .stopped⟩ :=
    .tail hfirstDone (.stopAccepting rfl rfl)
  have hsecond : Reachable ⟨⟨true, false, 1, false⟩, [.done, .running], .stopped⟩ :=
    .tail hstop (.complete (i := 1) rfl)
  exact .tail hsecond (.completeWork (i := 1) rfl rfl)

theorem drain_exact_two_units :
    Reachable ⟨⟨true, false, 0, true⟩, [.done, .done], .stopped⟩ ∧
    ∀ later, Steps ⟨⟨true, false, 0, true⟩, [.done, .done], .stopped⟩ later →
      later.service.drained = true ∧ later.units.length = 2 ∧
        later.service.beginWork = (false, later.service) :=
  ⟨reachable_drained, (drain_exact _ reachable_drained).2.2.2.2.2 rfl⟩

end System

end PulseAgent.Standalone
