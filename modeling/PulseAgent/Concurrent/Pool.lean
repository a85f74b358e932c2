import Mathlib.Data.List.Induction
import Mathlib.Data.List.Pairwise
import PulseAgent.Concurrent.Program

/-!
# Interleaved runs of calls on one state

A run starts calls, lets one of them make its next call on the shared state, crashes, or lets the
rest of the system move the state. A crash loses every call in flight. The log has one event for
each call that took place, the latest first.

Rules carry facts about single steps to whole runs: `related_of_run`, `related_of_between`,
`sat_of_run` for what a program guarantees along its own history, and `pairwise_of_preceded` for
effects that each need a commit of their own.
-/

namespace Concurrent

structure System (σ : Type) where
  interface : Interface σ
  Call : Type
  Out : Type
  program : Call → Prog interface Out
  Move : Type
  move : Move → σ → σ

structure Event {σ : Type} (I : Interface σ) extends Occurrence I where
  thread : Nat

structure World {σ : Type} (S : System σ) where
  state : σ
  /-- Each call started, with what is left of it; `none` after a crash. -/
  threads : List (S.Call × Option (Prog S.interface S.Out)) := []
  log : List (Event S.interface) := []

inductive Action {σ : Type} (S : System σ) where
  | spawn (call : S.Call)
  | step (thread : Nat) (answers : ∀ o, S.interface.Answer o)
  | crash
  | move (m : S.Move)

variable {σ : Type} {S : System σ}

def World.act (w : World S) : Action S → World S
  | .spawn call => { w with threads := w.threads ++ [(call, some (S.program call))] }
  | .step thread answers =>
    match w.threads[thread]? with
    | some (call, some (.op o next)) =>
      let r := S.interface.perform o (answers o) w.state
      { state := r.2
        threads := w.threads.set thread (call, some (next r.1))
        log := ⟨⟨o, answers o, w.state⟩, thread⟩ :: w.log }
    | _ => w
  | .crash => { w with threads := w.threads.map fun thread => (thread.1, none) }
  | .move m => { w with state := S.move m w.state }

def run (s : σ) (actions : List (Action S)) : World S := actions.foldl World.act ⟨s, [], []⟩

theorem run_append (s : σ) (actions : List (Action S)) (a : Action S) :
    run s (actions ++ [a]) = (run s actions).act a := by
  simp only [run, List.foldl_append, List.foldl_cons, List.foldl_nil]

theorem World.act_step (w : World S) (thread : Nat) (answers : ∀ o, S.interface.Answer o) :
    w.act (.step thread answers) = w ∨
      ∃ call o next, w.threads[thread]? = some (call, some (.op o next)) ∧
        w.act (.step thread answers) =
          { state := (S.interface.perform o (answers o) w.state).2
            threads := w.threads.set thread
              (call, some (next (S.interface.perform o (answers o) w.state).1))
            log := ⟨⟨o, answers o, w.state⟩, thread⟩ :: w.log } := by
  simp only [World.act]
  split
  case h_1 call o next h => exact .inr ⟨call, o, next, h, rfl⟩
  case h_2 => exact .inl rfl

theorem World.act_log (w : World S) (a : Action S) :
    (w.act a).log = w.log ∨ ∃ e, (w.act a).log = e :: w.log ∧ e.before = w.state ∧
      (w.act a).state = e.after := by
  cases a with
  | spawn call => exact .inl rfl
  | crash => exact .inl rfl
  | move m => exact .inl rfl
  | step thread answers =>
    obtain heq | ⟨call, o, next, -, heq⟩ := w.act_step thread answers
    · exact .inl (by rw [heq])
    · rw [heq]
      exact .inr ⟨_, rfl, rfl, rfl⟩

theorem mem_log_act {w : World S} {e : Event S.interface} (he : e ∈ w.log) (a : Action S) :
    e ∈ (w.act a).log := by
  obtain hlog | ⟨x, hlog, -⟩ := w.act_log a
  · rw [hlog]
    exact he
  · rw [hlog]
    exact List.mem_cons_of_mem x he

/-! ## Relations that every step respects -/

section Related

variable {R : σ → σ → Prop} (hrefl : ∀ s, R s s) (htrans : ∀ {a b c}, R a b → R b c → R a c)
  (hperform : ∀ o answer s, R s (S.interface.perform o answer s).2)
  (hmove : ∀ m s, R s (S.move m s))
include hrefl hmove

include hperform in
theorem World.act_related (w : World S) (a : Action S) : R w.state (w.act a).state := by
  cases a with
  | spawn call => exact hrefl _
  | crash => exact hrefl _
  | move m => exact hmove m _
  | step thread answers =>
    obtain heq | ⟨call, o, next, -, heq⟩ := w.act_step thread answers
    · rw [heq]
      exact hrefl _
    · rw [heq]
      exact hperform o (answers o) w.state

include htrans

/-- A preorder that the steps of one run respect relates any two points of it. -/
theorem related_of_events (s : σ) (actions rest : List (Action S))
    (hevents : ∀ e ∈ (run s (actions ++ rest)).log, R e.before e.after) :
    R (run s actions).state (run s (actions ++ rest)).state := by
  induction rest using List.reverseRecOn with
  | nil =>
    rw [List.append_nil]
    exact hrefl _
  | append_singleton rest a ih =>
    rw [← List.append_assoc, run_append] at hevents ⊢
    refine htrans (ih fun e he => hevents e (mem_log_act he a)) ?_
    cases a with
    | spawn call => exact hrefl _
    | crash => exact hrefl _
    | move m => exact hmove m _
    | step thread answers =>
      obtain heq | ⟨call, o, next, -, heq⟩ := (run s (actions ++ rest)).act_step thread answers
      · rw [heq]
        exact hrefl _
      · rw [heq] at hevents ⊢
        exact hevents _ List.mem_cons_self

theorem ordered_of_events (s : σ) (actions : List (Action S))
    (hevents : ∀ e ∈ (run s actions).log, R e.before e.after) :
    (∀ e ∈ (run s actions).log, R s e.before ∧ R e.after (run s actions).state) ∧
      (run s actions).log.Pairwise fun later earlier => R earlier.after later.before := by
  induction actions using List.reverseRecOn with
  | nil => exact ⟨by simp [run], List.Pairwise.nil⟩
  | append_singleton actions a ih =>
    have hold : ∀ e ∈ (run s actions).log, R e.before e.after := by
      intro e he
      refine hevents e ?_
      rw [run_append]
      exact mem_log_act he a
    obtain ⟨hbefore, hpairs⟩ := ih hold
    have hstate : R s (run s actions).state :=
      related_of_events hrefl htrans hmove s [] actions hold
    have hnext := related_of_events hrefl htrans hmove s actions [a] hevents
    rw [run_append] at hnext ⊢
    have hkept : ∀ e ∈ (run s actions).log,
        R s e.before ∧ R e.after ((run s actions).act a).state :=
      fun e he => ⟨(hbefore e he).1, htrans (hbefore e he).2 hnext⟩
    cases a with
    | spawn call => exact ⟨hkept, hpairs⟩
    | crash => exact ⟨hkept, hpairs⟩
    | move m => exact ⟨hkept, hpairs⟩
    | step thread answers =>
      obtain heq | ⟨call, o, next, -, heq⟩ := (run s actions).act_step thread answers
      · rw [heq]
        exact ⟨hbefore, hpairs⟩
      · rw [heq] at hkept ⊢
        refine ⟨?_, List.Pairwise.cons (fun e he => (hbefore e he).2) hpairs⟩
        intro e he
        rcases List.mem_cons.mp he with rfl | he
        · exact ⟨hstate, hrefl _⟩
        · exact hkept e he

include hperform in
theorem related_of_append (s : σ) (actions rest : List (Action S)) :
    R (run s actions).state (run s (actions ++ rest)).state :=
  related_of_events hrefl htrans hmove s actions rest fun e _ => hperform e.op e.answer e.before

include hperform in
theorem related_of_run (s : σ) (actions : List (Action S)) :
    (∀ e ∈ (run s actions).log, R s e.before ∧ R e.after (run s actions).state) ∧
      (run s actions).log.Pairwise fun later earlier => R earlier.after later.before :=
  ordered_of_events hrefl htrans hmove s actions fun e _ => hperform e.op e.answer e.before

end Related

theorem answer_of_run {s : σ} {actions : List (Action S)} {e : Event S.interface}
    (he : e ∈ (run s actions).log) :
    ∃ answers, Action.step e.thread answers ∈ actions ∧ answers e.op = e.answer := by
  induction actions using List.reverseRecOn with
  | nil => cases he
  | append_singleton actions a ih =>
    rw [run_append] at he
    have hold : e ∈ (run s actions).log → ∃ answers,
        Action.step e.thread answers ∈ actions ++ [a] ∧ answers e.op = e.answer := by
      intro hmem
      obtain ⟨answers, hstep, hanswer⟩ := ih hmem
      exact ⟨answers, List.mem_append_left _ hstep, hanswer⟩
    cases a with
    | spawn call => exact hold he
    | crash => exact hold he
    | move m => exact hold he
    | step thread answers =>
      obtain heq | ⟨call, o, next, -, heq⟩ := (run s actions).act_step thread answers
      · rw [heq] at he
        exact hold he
      · rw [heq] at he
        rcases List.mem_cons.mp he with rfl | he
        · exact ⟨answers, by simp, rfl⟩
        · exact hold he

theorem invariant_of_events (Inv : σ → Prop) {s : σ} (hs : Inv s) (actions : List (Action S))
    (hevents : ∀ e ∈ (run s actions).log, Inv e.before → Inv e.after)
    (hmove : ∀ m s, Inv s → Inv (S.move m s)) :
    Inv (run s actions).state ∧ ∀ e ∈ (run s actions).log, Inv e.before ∧ Inv e.after := by
  induction actions using List.reverseRecOn with
  | nil => exact ⟨hs, by simp [run]⟩
  | append_singleton actions a ih =>
    rw [run_append] at hevents ⊢
    obtain ⟨hstate, hkept⟩ := ih fun e he => hevents e (mem_log_act he a)
    cases a with
    | spawn call => exact ⟨hstate, hkept⟩
    | crash => exact ⟨hstate, hkept⟩
    | move m => exact ⟨hmove m _ hstate, hkept⟩
    | step thread answers =>
      obtain heq | ⟨call, o, next, -, heq⟩ := (run s actions).act_step thread answers
      · rw [heq]
        exact ⟨hstate, hkept⟩
      · rw [heq] at hevents ⊢
        have hnext := hevents _ List.mem_cons_self hstate
        refine ⟨hnext, fun e he => ?_⟩
        rcases List.mem_cons.mp he with rfl | he
        · exact ⟨hstate, hnext⟩
        · exact hkept e he

/-- What every step keeps holds throughout a run that starts with it. -/
theorem invariant_of_run {Inv : σ → Prop}
    (hperform : ∀ o answer s, Inv s → Inv (S.interface.perform o answer s).2)
    (hmove : ∀ m s, Inv s → Inv (S.move m s)) {s : σ} (hs : Inv s) (actions : List (Action S)) :
    Inv (run s actions).state ∧ ∀ e ∈ (run s actions).log, Inv e.before ∧ Inv e.after :=
  invariant_of_events Inv hs actions (fun e _ => hperform e.op e.answer e.before) hmove

/-! ## The order of events -/

theorem related_of_earlier {I : Interface σ} {R : σ → σ → Prop} {log later earlier : List (Event I)}
    {e x : Event I}
    (hpairs : log.Pairwise fun later earlier => R earlier.after later.before)
    (hlog : log = later ++ e :: earlier) (hx : x ∈ earlier) : R x.after e.before := by
  rw [hlog] at hpairs
  exact List.rel_of_pairwise_cons (List.pairwise_append.mp hpairs).2.1 hx

theorem related_or_eq {I : Interface σ} {R : σ → σ → Prop} {log : List (Event I)} {a b : Event I}
    (hpairs : log.Pairwise fun later earlier => R earlier.after later.before) (ha : a ∈ log)
    (hb : b ∈ log) : a = b ∨ R a.after b.before ∨ R b.after a.before := by
  by_cases hab : a = b
  · exact .inl hab
  · have : Std.Symm fun a b : Event I => R a.after b.before ∨ R b.after a.before :=
      ⟨fun _ _ h => h.symm⟩
    exact .inr ((hpairs.imp (S := fun a b => R a.after b.before ∨ R b.after a.before)
      fun h => .inr h).forall ha hb hab)

section Between

section Relation

variable {R : σ → σ → Prop} (hrefl : ∀ s, R s s) (htrans : ∀ {a b c}, R a b → R b c → R a c)
  (hmove : ∀ m s, R s (S.move m s))
include hrefl htrans hmove

theorem related_of_adjacent (s : σ) (actions : List (Action S)) :
    (∀ x rest, (run s actions).log = x :: rest → R x.after (run s actions).state) ∧
      ∀ later e x rest, (run s actions).log = later ++ e :: x :: rest → R x.after e.before := by
  induction actions using List.reverseRecOn with
  | nil => exact ⟨by simp [run], by simp [run]⟩
  | append_singleton actions a ih =>
    obtain ⟨hhead, hpairs⟩ := ih
    rw [run_append]
    cases a with
    | spawn call => exact ⟨hhead, hpairs⟩
    | crash => exact ⟨hhead, hpairs⟩
    | move m => exact ⟨fun x rest hlog => htrans (hhead x rest hlog) (hmove m _), hpairs⟩
    | step thread answers =>
      obtain heq | ⟨call, o, next, -, heq⟩ := (run s actions).act_step thread answers
      · rw [heq]
        exact ⟨hhead, hpairs⟩
      · rw [heq]
        refine ⟨fun x rest hlog => ?_, fun later e x rest hlog => ?_⟩
        · obtain ⟨rfl, -⟩ := List.cons.inj hlog
          exact hrefl _
        · cases later with
          | nil =>
            obtain ⟨rfl, htail⟩ := List.cons.inj hlog
            exact hhead x rest htail
          | cons y later => exact hpairs later e x rest (List.cons.inj hlog).2

theorem related_of_between {s : σ} {actions : List (Action S)}
    {later middle rest : List (Event S.interface)} {e x : Event S.interface}
    (hlog : (run s actions).log = later ++ e :: (middle ++ x :: rest))
    (hmiddle : ∀ y ∈ middle, R y.before y.after) : R x.after e.before := by
  have hadjacent := (related_of_adjacent hrefl htrans hmove s actions).2
  induction middle generalizing later e with
  | nil => exact hadjacent later e x rest hlog
  | cons y middle ih =>
    have hafter : (run s actions).log = later ++ [e] ++ y :: (middle ++ x :: rest) := by
      rw [hlog]
      simp
    have hy := ih hafter fun z hz => hmiddle z (List.mem_cons_of_mem y hz)
    refine htrans hy (htrans (hmiddle y List.mem_cons_self) ?_)
    exact hadjacent later e y (middle ++ x :: rest) (by rw [hlog]; simp)

end Relation

variable {β : Type} (f : σ → β) (hmove : ∀ m s, f (S.move m s) = f s)
include hmove

theorem eq_of_between {s : σ} {actions : List (Action S)}
    {later middle rest : List (Event S.interface)}
    {e x : Event S.interface} (hlog : (run s actions).log = later ++ e :: (middle ++ x :: rest))
    (hmiddle : ∀ y ∈ middle, f y.after = f y.before) : f e.before = f x.after :=
  related_of_between (R := fun a b => f b = f a) (fun _ => rfl) (fun h h' => h'.trans h) hmove hlog
    hmiddle

end Between

/-! ## What a program guarantees along its own history -/

/-- The calls one thread made, the latest first. -/
def history {I : Interface σ} (thread : Nat) (log : List (Event I)) : List (Occurrence I) :=
  (log.filter fun e => e.thread == thread).map Event.toOccurrence

theorem history_cons_self {I : Interface σ} (e : Event I) (log : List (Event I)) :
    history e.thread (e :: log) = e.toOccurrence :: history e.thread log := by
  simp [history]

theorem history_cons_of_ne {I : Interface σ} {e : Event I} {thread : Nat} (h : e.thread ≠ thread)
    (log : List (Event I)) : history thread (e :: log) = history thread log := by
  simp [history, h]

theorem history_eq_nil {I : Interface σ} {log : List (Event I)} {n : Nat}
    (h : ∀ e ∈ log, e.thread < n) : history n log = [] := by
  simp only [history, List.map_eq_nil_iff, List.filter_eq_nil_iff, beq_iff_eq]
  exact fun e he heq => absurd (h e he) (by omega)

theorem mem_history {I : Interface σ} {e : Event I} {log : List (Event I)} (h : e ∈ log) :
    e.toOccurrence ∈ history e.thread log :=
  List.mem_map_of_mem (List.mem_filter.mpr ⟨h, beq_self_eq_true e.thread⟩)

theorem mem_of_mem_history {I : Interface σ} {thread : Nat} {log : List (Event I)}
    {c : Occurrence I} (h : c ∈ history thread log) :
    ∃ e ∈ log, e.toOccurrence = c ∧ e.thread = thread := by
  obtain ⟨e, he, hc⟩ := List.mem_map.mp h
  obtain ⟨hmem, hthread⟩ := List.mem_filter.mp he
  exact ⟨e, hmem, hc, by simpa using hthread⟩

section Programs

variable {P : List (Occurrence S.interface) → S.interface.Op → Prop}
  {Q : S.Call → List (Occurrence S.interface) → S.Out → Prop}

/-- Every call in flight still meets its guarantees, and every event met them. -/
structure Guaranteed (P : List (Occurrence S.interface) → S.interface.Op → Prop)
    (Q : S.Call → List (Occurrence S.interface) → S.Out → Prop) (w : World S) : Prop where
  events : ∀ later e earlier, w.log = later ++ e :: earlier → P (history e.thread earlier) e.op
  threads : ∀ (t : Nat) (call : S.Call) (p : Prog S.interface S.Out),
    w.threads[t]? = some (call, some p) →
    p.Sat P (Q call) (history t w.log)
  named : ∀ e ∈ w.log, e.thread < w.threads.length

theorem Guaranteed.spawn {w : World S} (h : Guaranteed P Q w) {call : S.Call}
    (hcall : (S.program call).Sat P (Q call) []) : Guaranteed P Q (w.act (.spawn call)) where
  events := h.events
  threads t call' p ht := by
    simp only [World.act] at ht ⊢
    by_cases hlt : t < w.threads.length
    · rw [List.getElem?_append_left hlt] at ht
      exact h.threads t call' p ht
    · rw [List.getElem?_append_right (by omega)] at ht
      obtain ⟨hz, hp⟩ := List.getElem?_eq_some_iff.mp ht
      rw [List.length_singleton] at hz
      have ht' : t = w.threads.length := by omega
      subst ht'
      simp only [Nat.sub_self, List.getElem_singleton, Prod.mk.injEq, Option.some.injEq] at hp
      obtain ⟨rfl, rfl⟩ := hp
      rw [history_eq_nil h.named]
      exact hcall
  named e he := by
    simp only [World.act, List.length_append, List.length_singleton] at he ⊢
    have := h.named e he
    omega

theorem Guaranteed.crash {w : World S} (h : Guaranteed P Q w) : Guaranteed P Q (w.act .crash) where
  events := h.events
  threads t call p ht := by
    simp only [World.act, List.getElem?_map, Option.map_eq_some_iff, Prod.mk.injEq, reduceCtorEq,
      and_false, exists_false] at ht
  named e he := by
    simp only [World.act, List.length_map] at he ⊢
    exact h.named e he

theorem Guaranteed.step {w : World S} (h : Guaranteed P Q w) {thread : Nat} {call : S.Call}
    {o : S.interface.Op} {next : S.interface.Res o → Prog S.interface S.Out}
    (hthread : w.threads[thread]? = some (call, some (.op o next)))
    (answer : S.interface.Answer o) :
    Guaranteed P Q
      { state := (S.interface.perform o answer w.state).2
        threads := w.threads.set thread
          (call, some (next (S.interface.perform o answer w.state).1))
        log := ⟨⟨o, answer, w.state⟩, thread⟩ :: w.log } where
  events later e earlier heq := by
    cases later with
    | nil =>
      obtain ⟨rfl, rfl⟩ := List.cons.inj heq
      exact (h.threads thread call _ hthread).1
    | cons x later => exact h.events later e earlier (List.cons.inj heq).2
  threads t call' p ht := by
    obtain ⟨hlt, -⟩ := List.getElem?_eq_some_iff.mp hthread
    by_cases hne : thread = t
    · subst hne
      rw [List.getElem?_set_self hlt] at ht
      obtain ⟨rfl, hp⟩ := Prod.mk.inj (Option.some.inj ht)
      obtain rfl := Option.some.inj hp
      rw [history_cons_self ⟨⟨o, answer, w.state⟩, thread⟩]
      exact (h.threads thread call _ hthread).2 answer w.state
    · rw [List.getElem?_set_ne hne] at ht
      rw [history_cons_of_ne hne]
      exact h.threads t call' p ht
  named e he := by
    obtain ⟨hlt, -⟩ := List.getElem?_eq_some_iff.mp hthread
    rw [List.length_set]
    rcases List.mem_cons.mp he with rfl | he
    · exact hlt
    · exact h.named e he

theorem sat_of_run (s : σ) (actions : List (Action S))
    (hsat : ∀ call, Action.spawn call ∈ actions → (S.program call).Sat P (Q call) []) :
    Guaranteed P Q (run s actions) := by
  induction actions using List.reverseRecOn with
  | nil => exact ⟨by simp [run], by simp [run], by simp [run]⟩
  | append_singleton actions a ih =>
    have hw := ih fun call h => hsat call (by simp [h])
    rw [run_append]
    cases a with
    | spawn call => exact hw.spawn (hsat call (by simp))
    | crash => exact hw.crash
    | move m => exact ⟨hw.events, hw.threads, hw.named⟩
    | step thread answers =>
      obtain heq | ⟨call, o, next, hthread, heq⟩ := (run s actions).act_step thread answers
      · rw [heq]
        exact hw
      · rw [heq]
        exact hw.step hthread (answers o)

end Programs

/-! ## Effects and the commits before them -/

section Effects

variable {I : Interface σ} {κ : Type} {effect : I.Op → Option κ}

theorem mem_of_head_history {thread : Nat} {log : List (Event I)} {c : Occurrence I}
    (h : (history thread log).head? = some c) :
    ∃ x earlier later, log = later ++ x :: earlier ∧ x.toOccurrence = c ∧ x.thread = thread ∧
      ∀ y ∈ later, y.thread ≠ thread := by
  induction log with
  | nil => cases h
  | cons x log ih =>
    by_cases hx : x.thread = thread
    · subst hx
      rw [history_cons_self] at h
      exact ⟨x, log, [], rfl, Option.some.inj h, rfl, by simp⟩
    · rw [history_cons_of_ne hx] at h
      obtain ⟨y, earlier, later, rfl, hy, ht, hlater⟩ := ih h
      refine ⟨y, earlier, x :: later, rfl, hy, ht, fun z hz => ?_⟩
      rcases List.mem_cons.mp hz with rfl | hz
      · exact hx
      · exact hlater z hz

theorem history_append_of_ne {thread : Nat} {between log : List (Event I)}
    (h : ∀ x ∈ between, x.thread ≠ thread) :
      history thread (between ++ log) = history thread log := by
  induction between with
  | nil => rfl
  | cons x between ih =>
    rw [List.cons_append, history_cons_of_ne (h x List.mem_cons_self)]
    exact ih fun y hy => h y (List.mem_cons_of_mem x hy)

/-- If no call goes on after a bad call, a bad event is the last one of its thread. -/
theorem last_of_bad {bad : Occurrence I → Prop} {log : List (Event I)}
    (hguard : ∀ later e earlier, log = later ++ e :: earlier →
      Prog.Unspoiled bad (history e.thread earlier))
    {later between earlier : List (Event I)} {e : Event I}
    (hlog : log = later ++ (between ++ e :: earlier)) (hbad : bad e.toOccurrence)
    (hbetween : ∀ x ∈ between, x.thread ≠ e.thread) : ∀ x ∈ later, x.thread ≠ e.thread := by
  -- the events nearest to `e` are excluded first
  induction later using List.reverseRecOn generalizing between with
  | nil => simp
  | append_singleton later y ih =>
    have hy : y.thread ≠ e.thread := by
      intro hthread
      refine hguard later y (between ++ e :: earlier) (by rw [hlog]; simp) e.toOccurrence ?_ hbad
      rw [hthread, history_append_of_ne hbetween, history_cons_self]
      rfl
    have hlog' : log = later ++ (y :: between ++ e :: earlier) := by
      rw [hlog]
      simp
    have hrest := ih hlog' fun x hx => by
      rcases List.mem_cons.mp hx with rfl | hx
      · exact hy
      · exact hbetween x hx
    intro x hx
    rcases List.mem_append.mp hx with hx | hx
    · exact hrest x hx
    · rw [List.mem_singleton.mp hx]
      exact hy

theorem eq_of_pairwise {α : Type} {f : α → Option κ} {l : List α}
    (h : l.Pairwise fun a b => ∀ k, f a = some k → f b ≠ some k) {a b : α} {k : κ} (ha : a ∈ l)
    (hb : b ∈ l) (hak : f a = some k) (hbk : f b = some k) : a = b := by
  by_contra hne
  have : Std.Symm fun a b => ∀ k, f a = some k → f b ≠ some k := ⟨fun _ _ h k hb ha => h k ha hb⟩
  exact h.forall ha hb hne k hak hbk

/-- If every effect comes right after a commit for the same key in its own thread and no key is
committed twice, then no key has two effects. -/
theorem pairwise_of_preceded (commit : Occurrence I → Option κ) {log : List (Event I)}
    (hcommit : log.Pairwise fun a b => ∀ k, commit a.toOccurrence = some k →
      commit b.toOccurrence ≠ some k)
    (hdisjoint : ∀ e ∈ log, ∀ k, effect e.op = some k → commit e.toOccurrence = none)
    (hpreceded : ∀ later e earlier, log = later ++ e :: earlier → ∀ k, effect e.op = some k →
      ∃ c, (history e.thread earlier).head? = some c ∧ commit c = some k) :
    log.Pairwise fun a b => ∀ k, effect a.op = some k → effect b.op ≠ some k := by
  induction log with
  | nil => exact List.Pairwise.nil
  | cons e log ih =>
    have htail := ih (List.pairwise_cons.mp hcommit).2 (fun x hx => hdisjoint x (by simp [hx]))
      fun later x earlier h => hpreceded (e :: later) x earlier (by rw [h]; rfl)
    refine List.Pairwise.cons (fun b hb k he hb' => ?_) htail
    have hunique := (List.pairwise_cons.mp hcommit).2
    obtain ⟨c, hc, hck⟩ := hpreceded [] e log rfl k he
    obtain ⟨x, xearlier, xlater, rfl, rfl, hxt, hxlater⟩ := mem_of_head_history hc
    -- `x` is the only commit of `k`, so the one before the other effect `b` is no other event
    have hnone : ∀ y, y ∈ xlater ∨ y ∈ xearlier → commit y.toOccurrence ≠ some k := by
      have happ := List.pairwise_append.mp hunique
      rintro y (hy | hy) hyk
      · exact happ.2.2 y hy x (by simp) k hyk hck
      · exact (List.pairwise_cons.mp happ.2.1).1 y hy k hck hyk
    rcases List.mem_append.mp hb with hb | hb
    · obtain ⟨p, q, rfl⟩ := List.append_of_mem hb
      obtain ⟨c', hc', hck'⟩ := hpreceded (e :: p) b (q ++ x :: xearlier) (by simp) k hb'
      obtain ⟨y, yearlier, ylater, hy, rfl, hyt, -⟩ := mem_of_head_history hc'
      have hmem : y ∈ q ++ x :: xearlier := by simp [hy]
      rcases List.mem_append.mp hmem with hq | hx
      · exact hnone y (.inl (by simp [hq])) hck'
      · rcases List.mem_cons.mp hx with rfl | hx
        · exact hxlater b (by simp) (hyt.symm.trans hxt)
        · exact hnone y (.inr hx) hck'
    · rcases List.mem_cons.mp hb with rfl | hb
      · rw [hdisjoint b (by simp) k hb'] at hck
        cases hck
      · obtain ⟨p, q, rfl⟩ := List.append_of_mem hb
        obtain ⟨c', hc', hck'⟩ := hpreceded (e :: xlater ++ x :: p) b q (by simp) k hb'
        obtain ⟨y, yearlier, ylater, rfl, rfl, -, -⟩ := mem_of_head_history hc'
        exact hnone y (.inr (by simp)) hck'

end Effects
end Concurrent
