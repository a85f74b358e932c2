import PulseAgent.Concurrent.Pool

/-!
# Programs that run alone

The answers to the calls are a stream, of which each call takes one.
-/

namespace Concurrent

variable {σ : Type} {I : Interface σ} {α β : Type}

abbrev Answers (I : Interface σ) := Nat → (o : I.Op) → I.Answer o

/-- The answers that are left after the first `n`. -/
def Answers.drop (answers : Answers I) (n : Nat) : Answers I := fun i => answers (i + n)

structure Executed (I : Interface σ) (α : Type) where
  value : α
  state : σ
  /-- The calls that took place, the earliest first. -/
  trace : List (Occurrence I)

namespace Prog

def exec : Prog I α → Answers I → σ → Executed I α
  | .pure a, _, s => ⟨a, s, []⟩
  | .op o next, answers, s =>
    let r := I.perform o (answers 0 o) s
    let rest := (next r.1).exec (answers.drop 1) r.2
    ⟨rest.value, rest.state, ⟨o, answers 0 o, s⟩ :: rest.trace⟩

theorem exec_call_bind (o : I.Op) (f : I.Res o → Prog I α) (answers : Answers I) (s : σ) :
    (call o >>= f).exec answers s =
      let rest := (f (I.perform o (answers 0 o) s).1).exec (answers.drop 1)
        (I.perform o (answers 0 o) s).2
      ⟨rest.value, rest.state, ⟨o, answers 0 o, s⟩ :: rest.trace⟩ := rfl

theorem exec_call_of {o : I.Op} {f : I.Res o → Prog I α} {answers : Answers I} {s s' s'' : σ}
    {r : I.Res o} (h : I.perform o (answers 0 o) s = (r, s')) {a : α} {trace : List (Occurrence I)}
    (hrest : (f r).exec (answers.drop 1) s' = ⟨a, s'', trace⟩) : (call o >>= f).exec answers s =
      ⟨a, s'', ⟨o, answers 0 o, s⟩ :: trace⟩ := by
  rw [exec_call_bind, h, hrest]

theorem exec_bind (p : Prog I α) (f : α → Prog I β) (answers : Answers I) (s : σ) :
    (p >>= f).exec answers s =
      let first := p.exec answers s
      let rest := (f first.value).exec (answers.drop first.trace.length) first.state
      ⟨rest.value, rest.state, first.trace ++ rest.trace⟩ := by
  induction p generalizing answers s with
  | pure a => rfl
  | op o next ih =>
    have h := ih (I.perform o (answers 0 o) s).1 (answers.drop 1) (I.perform o (answers 0 o) s).2
    rw [bind_op]
    simp only [exec, h, List.length_cons, List.cons_append]
    have hdrop : ∀ n, (answers.drop 1).drop n = answers.drop (n + 1) := fun n => by
      funext i
      exact congrArg answers (Nat.add_assoc i n 1)
    rw [hdrop]

theorem exec_bind_of {p : Prog I α} {f : α → Prog I β} {answers : Answers I} {s s' : σ} {a : α}
    {trace : List (Occurrence I)} (h : p.exec answers s = ⟨a, s', trace⟩) :
    ((p >>= f).exec answers s).value = ((f a).exec (answers.drop trace.length) s').value ∧
      ((p >>= f).exec answers s).state = ((f a).exec (answers.drop trace.length) s').state := by
  rw [exec_bind, h]
  exact ⟨rfl, rfl⟩

theorem exec_bind_eq {p : Prog I α} {f : α → Prog I β} {answers : Answers I} {s s' s'' : σ} {a : α}
    {b : β} {trace trace' : List (Occurrence I)} (h : p.exec answers s = ⟨a, s', trace⟩)
    (hrest : (f a).exec (answers.drop trace.length) s' = ⟨b, s'', trace'⟩) :
    (p >>= f).exec answers s = ⟨b, s'', trace ++ trace'⟩ := by
  rw [exec_bind, h]
  simp only [hrest]

/-- What a program guarantees along its history it guarantees of its execution alone. -/
theorem Sat.exec {P : List (Occurrence I) → I.Op → Prop} {Q : List (Occurrence I) → α → Prop}
    {p : Prog I α} {h : List (Occurrence I)} (hp : p.Sat P Q h) (answers : Answers I) (s : σ) :
    (∀ c ∈ (p.exec answers s).trace, ∃ h', P h' c.op) ∧
      Q ((p.exec answers s).trace.reverse ++ h) (p.exec answers s).value := by
  induction p generalizing h answers s with
  | pure a => exact ⟨by simp [Prog.exec], hp⟩
  | op o next ih =>
    obtain ⟨htrace, hvalue⟩ := ih _ (hp.2 (answers 0 o) s) (answers.drop 1)
      (I.perform o (answers 0 o) s).2
    refine ⟨?_, ?_⟩
    · intro c hc
      rcases List.mem_cons.mp hc with rfl | hc
      · exact ⟨h, hp.1⟩
      · exact htrace c hc
    · simp only [Prog.exec, List.reverse_cons, List.append_assoc, List.singleton_append]
      exact hvalue

/-! ### Postconditions

What a program ends with when it runs alone and its calls are answered in a certain way. -/

def Ends (fine : (o : I.Op) → I.Answer o → Prop) (Q : α → σ → Prop) : Prog I α → σ → Prop
  | .pure a, s => Q a s
  | .op o next, s => ∀ answer, fine o answer →
    (next (I.perform o answer s).1).Ends fine Q (I.perform o answer s).2

def anyhow (I : Interface σ) : (o : I.Op) → I.Answer o → Prop := fun _ _ => True

namespace Ends

variable {fine : (o : I.Op) → I.Answer o → Prop}

theorem mono {Q Q' : α → σ → Prop} {p : Prog I α} {s : σ} (h : p.Ends fine Q s)
    (hQ : ∀ a s', Q a s' → Q' a s') : p.Ends fine Q' s := by
  induction p generalizing s with
  | pure a => exact hQ a s h
  | op o next ih => exact fun answer hfine => ih _ (h answer hfine)

theorem any (p : Prog I α) (s : σ) : p.Ends fine (fun _ _ => True) s := by
  induction p generalizing s with
  | pure a => trivial
  | op o next ih => exact fun answer _ => ih _ _

theorem bind {Q : α → σ → Prop} {Q' : β → σ → Prop} {p : Prog I α} {f : α → Prog I β} {s : σ}
    (h : p.Ends fine Q s) (hf : ∀ a s', Q a s' → (f a).Ends fine Q' s') :
      (p >>= f).Ends fine Q' s := by
  induction p generalizing s with
  | pure a => exact hf a s h
  | op o next ih => exact fun answer hfine => ih _ (h answer hfine)

theorem call_bind {Q : α → σ → Prop} {o : I.Op} {f : I.Res o → Prog I α} {s : σ}
    (hf : ∀ answer, fine o answer →
      (f (I.perform o answer s).1).Ends fine Q (I.perform o answer s).2) :
    (call o >>= f).Ends fine Q s := hf

theorem exec {Q : α → σ → Prop} {p : Prog I α} {s : σ} (h : p.Ends fine Q s) {answers : Answers I}
    (hanswers : ∀ i o, fine o (answers i o)) :
      Q (p.exec answers s).value (p.exec answers s).state := by
  induction p generalizing s answers with
  | pure a => exact h
  | op o next ih => exact ih _ (h (answers 0 o) (hanswers 0 o)) fun i => hanswers (i + 1)

theorem and {Q Q' : α → σ → Prop} {p : Prog I α} {s : σ} (h : p.Ends fine Q s)
    (h' : p.Ends fine Q' s) :
    p.Ends fine (fun a s' => Q a s' ∧ Q' a s') s := by
  induction p generalizing s with
  | pure a => exact ⟨h, h'⟩
  | op o next ih => exact fun answer hfine => ih _ (h answer hfine) (h' answer hfine)

end Ends

section Invariant

variable {P : List (Occurrence I) → I.Op → Prop} {Q : List (Occurrence I) → α → Prop}
    {Inv : σ → Prop}
  (hstep : ∀ h o answer s, P h o → Inv s → Inv (I.perform o answer s).2)
  {p : Prog I α} {h : List (Occurrence I)} (hp : p.Sat P Q h)
include hstep hp

theorem Sat.ends (fine : (o : I.Op) → I.Answer o → Prop) {s : σ} (hs : Inv s) :
    p.Ends fine (fun _ s' => Inv s') s := by
  induction p generalizing h s with
  | pure a => exact hs
  | op o next ih => exact fun answer _ => ih _ (hp.2 answer s) (hstep h o answer s hp.1 hs)

theorem Sat.exec_state (answers : Answers I) {s : σ} (hs : Inv s) : Inv (p.exec answers s).state :=
  (hp.ends hstep (anyhow I) hs).exec fun _ _ => trivial

end Invariant

end Prog

/-! ### Steps of one call -/

variable {S : System σ}

/-- The steps of one call, with nobody else at work, execute its program. -/
theorem run_of_exec {p : Prog S.interface S.Out} (answers : Answers S.interface) {s : σ}
    {before : List (Action S)} {thread : Nat} {call : S.Call}
    (hthread : (run s before).threads[thread]? = some (call, some p)) :
    ∃ steps : List (Action S), (∀ c, Action.spawn c ∉ steps) ∧ run s (before ++ steps) =
      { state := (p.exec answers (run s before).state).state
        threads := (run s before).threads.set thread
          (call, some (.pure (p.exec answers (run s before).state).value))
        log := ((p.exec answers (run s before).state).trace.reverse.map fun x => ⟨x, thread⟩) ++
          (run s before).log } := by
  obtain ⟨hlt, hget⟩ := List.getElem?_eq_some_iff.mp hthread
  induction p generalizing answers before with
  | pure a =>
    refine ⟨[], by simp, ?_⟩
    rw [List.append_nil, Prog.exec, ← hget, List.set_getElem_self]
    rfl
  | op o next ih =>
    let r := S.interface.perform o (answers 0 o) (run s before).state
    have hact : run s (before ++ [.step thread (answers 0)]) =
        { state := r.2
          threads := (run s before).threads.set thread (call, some (next r.1))
          log := ⟨⟨o, answers 0 o, (run s before).state⟩, thread⟩ :: (run s before).log } := by
      rw [run_append]
      simp only [World.act, hthread]
      rfl
    have hnext : (run s (before ++ [.step thread (answers 0)])).threads[thread]? =
        some (call, some (next r.1)) := by
      rw [hact]
      exact List.getElem?_set_self hlt
    obtain ⟨hlt', hget'⟩ := List.getElem?_eq_some_iff.mp hnext
    obtain ⟨steps, hsteps, hrun⟩ := ih r.1 (answers.drop 1) hnext hlt' hget'
    rw [List.append_assoc, List.singleton_append, hact] at hrun
    refine ⟨.step thread (answers 0) :: steps, ?_, hrun.trans ?_⟩
    · intro c hc
      rcases List.mem_cons.mp hc with hc | hc
      · cases hc
      · exact hsteps c hc
    · simp only [Prog.exec, List.set_set, List.reverse_cons, List.map_append, List.map_singleton,
        List.append_assoc, List.singleton_append]
      rfl

theorem run_of_call (answers : Answers S.interface) {s s' : σ} {actions : List (Action S)}
    {call : S.Call} {a : S.Out} {trace : List (Occurrence S.interface)}
    (h : (S.program call).exec answers (run s actions).state = ⟨a, s', trace⟩) :
    ∃ steps : List (Action S), (∀ c, Action.spawn c ∉ steps) ∧
      run s (actions ++ [.spawn call] ++ steps) =
        { state := s'
          threads := (run s actions).threads ++ [(call, some (.pure a))]
          log := (trace.reverse.map fun x => ⟨x, (run s actions).threads.length⟩) ++
            (run s actions).log } := by
  have hspawn : run s (actions ++ [.spawn call]) =
      { state := (run s actions).state
        threads := (run s actions).threads ++ [(call, some (S.program call))]
        log := (run s actions).log } := run_append s actions _
  have hthread : (run s (actions ++ [.spawn call])).threads[(run s actions).threads.length]? =
      some (call, some (S.program call)) := by
    rw [hspawn]
    exact List.getElem?_concat_length
  obtain ⟨steps, hsteps, hrun⟩ := run_of_exec answers hthread
  refine ⟨steps, hsteps, hrun.trans ?_⟩
  simp only [hspawn, h, List.set_append_right _ _ (Nat.le_refl _), Nat.sub_self, List.set_cons_zero]

end Concurrent
