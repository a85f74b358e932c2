import Mathlib.Logic.Basic

/-!
# Programs over a shared state

An `Interface` lists the operations on a state shared with others; what each one does is a function
of the state and of an answer of the environment. `Prog.Sat P p Q h` says, of `p` started after the
calls `h`, that every call it makes is one `P` allows at that point of its own history and that its
result meets `Q`, whatever the answers are and whatever others do in between.
-/

namespace Concurrent

structure Interface (σ : Type) where
  Op : Type
  Res : Op → Type
  Answer : Op → Type
  perform : (o : Op) → Answer o → σ → Res o × σ

variable {σ : Type} {I : Interface σ} {α β : Type}

inductive Prog (I : Interface σ) (α : Type) : Type where
  | pure (a : α) : Prog I α
  | op (o : I.Op) (next : I.Res o → Prog I α) : Prog I α

namespace Prog

def bind : Prog I α → (α → Prog I β) → Prog I β
  | .pure a, f => f a
  | .op o next, f => .op o fun r => (next r).bind f

instance : Monad (Prog I) where
  pure := .pure
  bind := .bind

def call (o : I.Op) : Prog I (I.Res o) := .op o .pure

theorem bind_op (o : I.Op) (next : I.Res o → Prog I α) (f : α → Prog I β) :
    .op o next >>= f = .op o fun r => next r >>= f := rfl

end Prog

/-- One call as it took place: the state it found and the answer it was given. -/
structure Occurrence (I : Interface σ) where
  op : I.Op
  answer : I.Answer op
  before : σ

namespace Occurrence

def after (e : Occurrence I) : σ := (I.perform e.op e.answer e.before).2

end Occurrence

namespace Prog

variable {P : List (Occurrence I) → I.Op → Prop}

/-- Histories have the latest call first. -/
def Sat (P : List (Occurrence I) → I.Op → Prop) :
    Prog I α → (List (Occurrence I) → α → Prop) → List (Occurrence I) → Prop
  | .pure a, Q, h => Q h a
  | .op o next, Q, h =>
    P h o ∧ ∀ answer before,
      (next (I.perform o answer before).1).Sat P Q (⟨o, answer, before⟩ :: h)

theorem Sat.mono {p : Prog I α} {Q Q' : List (Occurrence I) → α → Prop}
    {h : List (Occurrence I)} (hp : p.Sat P Q h) (hQ : ∀ h a, Q h a → Q' h a) : p.Sat P Q' h := by
  induction p generalizing h with
  | pure a => exact hQ h a hp
  | op o next ih => exact ⟨hp.1, fun answer before => ih _ (hp.2 answer before)⟩

theorem Sat.bind {p : Prog I α} {f : α → Prog I β} {Q : List (Occurrence I) → α → Prop}
    {Q' : List (Occurrence I) → β → Prop} {h : List (Occurrence I)} (hp : p.Sat P Q h)
    (hf : ∀ h a, Q h a → (f a).Sat P Q' h) : (p >>= f).Sat P Q' h := by
  induction p generalizing h with
  | pure a => exact hf h a hp
  | op o next ih => exact ⟨hp.1, fun answer before => ih _ (hp.2 answer before)⟩

theorem Sat.extends {p : Prog I α} {Q : List (Occurrence I) → α → Prop} {h : List (Occurrence I)}
    (hp : p.Sat P Q h) : p.Sat P (fun h' a => Q h' a ∧ h <:+ h') h := by
  have hadd : ∀ {h' : List (Occurrence I)}, h <:+ h' → p.Sat P Q h' →
      p.Sat P (fun h' a => Q h' a ∧ h <:+ h') h' := by
    clear hp
    induction p with
    | pure a => exact fun hsuffix hp => ⟨hp, hsuffix⟩
    | op o next ih =>
      exact fun hsuffix hp => ⟨hp.1, fun answer before =>
        ih _ (hsuffix.trans (List.suffix_cons _ _)) (hp.2 answer before)⟩
  exact hadd List.suffix_rfl hp

theorem Sat.call_bind {o : I.Op} {f : I.Res o → Prog I α} {Q : List (Occurrence I) → α → Prop}
    {h : List (Occurrence I)} (hP : P h o)
    (hf : ∀ answer before, (f (I.perform o answer before).1).Sat P Q (⟨o, answer, before⟩ :: h)) :
    (call o >>= f).Sat P Q h := ⟨hP, hf⟩

theorem Sat.ite {c : Prop} [Decidable c] {p q : Prog I α} {Q : List (Occurrence I) → α → Prop}
    {h : List (Occurrence I)} (hp : c → p.Sat P Q h) (hq : ¬c → q.Sat P Q h) :
    (if c then p else q).Sat P Q h := by
  by_cases hc : c
  · rw [if_pos hc]
    exact hp hc
  · rw [if_neg hc]
    exact hq hc

theorem sat_true (p : Prog I α) (h : List (Occurrence I)) :
    p.Sat (fun _ _ => True) (fun _ _ => True) h := by
  induction p generalizing h with
  | pure a => trivial
  | op o next ih => exact ⟨trivial, fun answer before => ih _ _⟩

/-- The last call did not turn out bad. -/
def Unspoiled (bad : Occurrence I → Prop) (h : List (Occurrence I)) : Prop :=
  ∀ c, h.head? = some c → ¬bad c

theorem Sat.guard {p : Prog I α} {Q : List (Occurrence I) → α → Prop} {h : List (Occurrence I)}
    {bad : Occurrence I → Prop} (hp : p.Sat P Q h)
    (hbad : ∀ h o answer before, P h o → ¬bad ⟨o, answer, before⟩) (hstart : Unspoiled bad h) :
    p.Sat (fun h _ => Unspoiled bad h) (fun h a => Q h a ∧ Unspoiled bad h) h := by
  induction p generalizing h with
  | pure a => exact ⟨hp, hstart⟩
  | op o next ih =>
    refine ⟨hstart, fun answer before => ih _ (hp.2 answer before) fun c hc => ?_⟩
    obtain rfl := Option.some.inj hc
    exact hbad h o answer before hp.1

end Prog
end Concurrent
