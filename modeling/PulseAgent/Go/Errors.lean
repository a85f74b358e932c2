import PulseAgent.Go.Utf8

/-!
# Error values

A sentinel made by `errors.New`, or what `fmt.Errorf` wraps around one error or two with `%w`.
-/

namespace Go

inductive Error where
  | new (text : String)
  | wrap (before : String) (cause : Error) (after : String)
  | both (first : Error) (between : String) (second : Error)
deriving DecidableEq, Repr

/-- `errors.Is`. -/
def Error.is (e target : Error) : Bool :=
  e = target ||
    match e with
    | .new _ => false
    | .wrap _ cause _ => cause.is target
    | .both first _ second => first.is target || second.is target

theorem except_bind_ok {ε α β : Type} {x : Except ε α} {f : α → Except ε β} {b : β} :
    x >>= f = .ok b ↔ ∃ a, x = .ok a ∧ f a = .ok b := by
  cases x <;> simp [bind, Except.bind]

theorem exists_of_isOk {ε α : Type} {x : Except ε α} (h : x.isOk = true) : ∃ a, x = .ok a := by
  cases x with
  | error e => cases h
  | ok a => exact ⟨a, rfl⟩

def errorOf {ε α : Type} : Except ε α → Option ε
  | .error e => some e
  | .ok _ => none

theorem eq_error_of_errorOf {ε α : Type} {x : Except ε α} {e : ε} (h : errorOf x = some e) :
    x = .error e := by
  cases x with
  | error e' => rw [Option.some.inj h]
  | ok a => cases h

end Go
