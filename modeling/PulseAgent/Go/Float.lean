import PulseAgent.Go.JsonCodec

/-!
# Floats by their shortest decimal

A finite `float64` is represented by the decimal number its shortest text spells, in lowest terms.
`encoding/json` writes exactly that number, so reading it back needs no rounding.
-/

namespace Go

/-- `(-1) ^ neg * mantissa * 10 ^ exp`. -/
structure Dec where
  neg : Bool
  mantissa : Nat
  exp : Int
  lowest : mantissa % 10 ≠ 0 ∨ (mantissa = 0 ∧ exp = 0)
deriving DecidableEq

inductive Float64 where
  | finite (x : Dec)
  | inf (neg : Bool)
  | nan
deriving DecidableEq

namespace Dec

def zero : Dec := ⟨false, 0, 0, .inr ⟨rfl, rfl⟩⟩

/-- Moves trailing zeros of a positive mantissa into the exponent. -/
def strip : Nat → Nat → Int → Nat × Int
  | 0, m, e => (m, e)
  | fuel + 1, m, e => if m % 10 = 0 then strip fuel (m / 10) (e + 1) else (m, e)

theorem strip_lowest : ∀ (fuel m : Nat) (e : Int), m ≠ 0 → m ≤ fuel → (strip fuel m e).1 % 10 ≠ 0
  | 0, m, e, h0, hle => absurd (Nat.le_zero.mp hle) h0
  | fuel + 1, m, e, h0, hle => by
    unfold strip
    split
    case isTrue h => exact strip_lowest fuel (m / 10) (e + 1) (by omega) (by omega)
    case isFalse h => exact h

def normalize (neg : Bool) (m : Nat) (e : Int) : Dec :=
  if h : m = 0 then ⟨neg, 0, 0, .inr ⟨rfl, rfl⟩⟩
  else ⟨neg, (strip m m e).1, (strip m m e).2, .inl (strip_lowest m m e h (Nat.le_refl m))⟩

theorem strip_mul_pow {m : Nat} (h : m % 10 ≠ 0) : ∀ (k fuel : Nat) (e : Int), k ≤ fuel →
    strip fuel (m * 10 ^ k) e = (m, e + k)
  | 0, fuel, e, _ => by
    cases fuel with
    | zero => simp [strip]
    | succ fuel => simp [strip, h]
  | k + 1, 0, e, hle => by omega
  | k + 1, fuel + 1, e, hle => by
    have hmul : m * 10 ^ (k + 1) = m * 10 ^ k * 10 := by rw [pow_succ, Nat.mul_assoc]
    rw [hmul, strip, if_pos (Nat.mul_mod_left _ _), Nat.mul_div_cancel _ (by decide),
      strip_mul_pow h k fuel (e + 1) (by omega)]
    congr 1
    push_cast
    omega

theorem normalize_mul_pow (x : Dec) (k : Nat) (h0 : x.mantissa ≠ 0) :
    normalize x.neg (x.mantissa * 10 ^ k) (x.exp - k) = x := by
  have hlow : x.mantissa % 10 ≠ 0 := by
    rcases x.lowest with h | h
    · exact h
    · exact absurd h.1 h0
  have hfuel : k ≤ x.mantissa * 10 ^ k :=
    le_trans (Nat.lt_pow_self (by decide : 1 < 10)).le
      (Nat.le_mul_of_pos_left _ (Nat.pos_of_ne_zero h0))
  have hne : x.mantissa * 10 ^ k ≠ 0 := Nat.mul_ne_zero h0 (by positivity)
  have hstrip := strip_mul_pow hlow k (x.mantissa * 10 ^ k) (x.exp - k) hfuel
  unfold normalize
  rw [dif_neg hne]
  cases x
  simp only [mk.injEq, true_and]
  simp only at hstrip
  rw [hstrip]
  exact ⟨rfl, by simp⟩

/-- The exponent of the leading digit. -/
def leading (x : Dec) : Int := x.exp + Nat.log 10 x.mantissa

def fracDigits : Nat → Nat → List (Fin 10)
  | 0, _ => []
  | k + 1, n => fracDigits k (n / 10) ++ [⟨n % 10, Nat.mod_lt n (by decide)⟩]

def fracValue (ds : List (Fin 10)) : Nat := ds.foldl (fun acc d => 10 * acc + d.val) 0

@[simp] theorem fracDigits_length (k n : Nat) : (fracDigits k n).length = k := by
  induction k generalizing n with
  | zero => rfl
  | succ k ih => simp [fracDigits, ih]

theorem fracValue_fracDigits (k n : Nat) : fracValue (fracDigits k n) = n % 10 ^ k := by
  induction k generalizing n with
  | zero => simp [fracDigits, fracValue, Nat.mod_one]
  | succ k ih =>
    have hsnoc : ∀ (ds : List (Fin 10)) d, fracValue (ds ++ [d]) = 10 * fracValue ds + d.val := by
      intro ds d
      simp [fracValue, List.foldl_append]
    rw [fracDigits, hsnoc, ih, pow_succ, Nat.mul_comm (10 ^ k) 10, Nat.mod_mul]
    simp only
    omega

/-- The literal of a number below `1e-6` or from `1e21` on has an exponent, others have none. -/
def toNumber (x : Dec) : Json.Number :=
  if x.mantissa = 0 then ⟨x.neg, 0, [], none⟩
  else if x.leading < -6 ∨ 21 ≤ x.leading then
    let k := Nat.log 10 x.mantissa
    ⟨x.neg, x.mantissa / 10 ^ k, fracDigits k (x.mantissa % 10 ^ k), some x.leading⟩
  else if 0 ≤ x.exp then ⟨x.neg, x.mantissa * 10 ^ x.exp.toNat, [], none⟩
  else
    let k := (-x.exp).toNat
    ⟨x.neg, x.mantissa / 10 ^ k, fracDigits k (x.mantissa % 10 ^ k), none⟩

def ofNumber (n : Json.Number) : Dec :=
  normalize n.neg (n.int * 10 ^ n.frac.length + fracValue n.frac) (n.exp.getD 0 - n.frac.length)

theorem ofNumber_split (x : Dec) (k : Nat) (e : Option Int) (he : e.getD 0 = x.exp + k)
    (h0 : x.mantissa ≠ 0) :
    ofNumber ⟨x.neg, x.mantissa / 10 ^ k, fracDigits k (x.mantissa % 10 ^ k), e⟩ = x := by
  simp only [ofNumber, fracDigits_length, fracValue_fracDigits, Nat.mod_mod, Nat.div_add_mod', he]
  have h := normalize_mul_pow x 0 h0
  simpa using h

theorem ofNumber_toNumber (x : Dec) : ofNumber x.toNumber = x := by
  unfold toNumber
  split_ifs with h0 hexp hpos
  · obtain ⟨neg, m, e, hlow⟩ := x
    simp only at h0
    subst h0
    obtain ⟨-, rfl⟩ := hlow.resolve_left (by simp)
    rfl
  · exact ofNumber_split x _ _ (by simp [leading]) h0
  · have h := normalize_mul_pow x x.exp.toNat h0
    rw [Int.toNat_of_nonneg hpos, sub_self] at h
    simpa [ofNumber, fracValue] using h
  · refine ofNumber_split x _ _ ?_ h0
    rw [Option.getD_none, Int.toNat_of_nonneg (by omega)]
    omega

/-- Numerator and denominator of a decimal as integers, both scaled by a common power of ten. -/
def scaled (x : Dec) (shift : Nat) : Int :=
  let m : Int := x.mantissa * 10 ^ (x.exp + shift).toNat
  if x.neg then -m else m

def lt (x y : Dec) : Bool :=
  let shift := max (-x.exp).toNat (-y.exp).toNat
  x.scaled shift < y.scaled shift

end Dec

namespace Float64

def zero : Float64 := .finite Dec.zero

/-- `<` on floats: false as soon as a NaN takes part. -/
def lt : Float64 → Float64 → Bool
  | .nan, _ => false
  | _, .nan => false
  | .inf true, .inf true => false
  | .inf true, _ => true
  | _, .inf true => false
  | .inf false, _ => false
  | _, .inf false => true
  | .finite x, .finite y => x.lt y

def isFinite : Float64 → Bool
  | .finite _ => true
  | _ => false

end Float64

/-- Infinities and NaN cannot be written. -/
def Json.Codec.float64 : Json.Codec Float64 where
  zero := .zero
  encode
    | .finite x => some (.num x.toNumber)
    | _ => none
  decode _ v cur :=
    match v with
    | .num n => some (.finite (Dec.ofNumber n), none)
    | .null => some (cur, none)
    | _ => some (cur, some .mismatch)
  norm := id
  sound := by
    intro _ x v h
    cases x with
    | finite x =>
      cases h
      simp only [Json.Value.clean, Dec.ofNumber_toNumber, id_eq]
    | inf _ => cases h
    | nan => cases h
  distinct := by
    intro x v h
    cases x with
    | finite x =>
      cases h
      simp only [Json.Value.clean, Json.Value.distinct]
    | inf _ => cases h
    | nan => cases h

end Go
