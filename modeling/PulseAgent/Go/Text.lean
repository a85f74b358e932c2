import Mathlib.Data.Nat.Log
import Mathlib.Tactic.Positivity
import Mathlib.Tactic.Ring
import PulseAgent.Go.Utf8

/-!
# The parts of `strings`, `strconv` and `encoding/hex` the program uses

White space is Unicode's, spelled as UTF-8 encodings, so trimming works on raw bytes as Go's does.
-/

namespace Go

namespace Strings

/-- UTF-8 encodings of the runes `unicode.IsSpace` accepts. -/
def spaceRunes : List Bytes :=
  [[0x09], [0x0A], [0x0B], [0x0C], [0x0D], [0x20], [0xC2, 0x85], [0xC2, 0xA0],
   [0xE1, 0x9A, 0x80],
   [0xE2, 0x80, 0x80], [0xE2, 0x80, 0x81], [0xE2, 0x80, 0x82], [0xE2, 0x80, 0x83],
   [0xE2, 0x80, 0x84], [0xE2, 0x80, 0x85], [0xE2, 0x80, 0x86], [0xE2, 0x80, 0x87],
   [0xE2, 0x80, 0x88], [0xE2, 0x80, 0x89], [0xE2, 0x80, 0x8A],
   [0xE2, 0x80, 0xA8], [0xE2, 0x80, 0xA9], [0xE2, 0x80, 0xAF], [0xE2, 0x81, 0x9F],
   [0xE3, 0x80, 0x80]]

/-- Drops encodings of `runes` from the front, at most `fuel` of them. -/
def dropRunes (runes : List Bytes) : Nat → Bytes → Bytes
  | 0, s => s
  | fuel + 1, s =>
    match runes.find? (·.isPrefixOf s) with
    | some rune => dropRunes runes fuel (s.drop rune.length)
    | none => s

def trimLeftSpace (s : Bytes) : Bytes := dropRunes spaceRunes s.length s

def trimRightSpace (s : Bytes) : Bytes :=
  (dropRunes (spaceRunes.map List.reverse) s.length s.reverse).reverse

/-- `strings.TrimSpace`. -/
def trimSpace (s : Bytes) : Bytes := trimRightSpace (trimLeftSpace s)

/-- `strings.Join`. -/
def join (sep : Bytes) : List Bytes → Bytes
  | [] => []
  | [s] => s
  | s :: rest => s ++ sep ++ join sep rest

theorem append_sep_inj {α : Type} {sep : α} {x y r r' : List α} (hx : sep ∉ x) (hy : sep ∉ y)
    (h : x ++ sep :: r = y ++ sep :: r') : x = y ∧ r = r' := by
  induction x generalizing y with
  | nil =>
    cases y with
    | nil => exact ⟨rfl, (List.cons.inj h).2⟩
    | cons b y =>
      obtain ⟨rfl, -⟩ := List.cons.inj h
      exact absurd List.mem_cons_self hy
  | cons a x ih =>
    cases y with
    | nil =>
      obtain ⟨rfl, -⟩ := List.cons.inj h
      exact absurd List.mem_cons_self hx
    | cons b y =>
      obtain ⟨rfl, htail⟩ := List.cons.inj h
      obtain ⟨rfl, hr⟩ := ih (fun hm => hx (List.mem_cons_of_mem a hm))
        (fun hm => hy (List.mem_cons_of_mem a hm)) htail
      exact ⟨rfl, hr⟩

theorem join_sep_inj {sep : UInt8} {xs ys : List Bytes} (hlength : xs.length = ys.length)
    (hxs : ∀ x ∈ xs, sep ∉ x) (hys : ∀ y ∈ ys, sep ∉ y)
    (h : join [sep] xs ++ [sep] = join [sep] ys ++ [sep]) : xs = ys := by
  induction xs generalizing ys with
  | nil =>
    cases ys with
    | nil => rfl
    | cons => cases hlength
  | cons x xs ih =>
    cases ys with
    | nil => cases hlength
    | cons y ys =>
      have hx := hxs x List.mem_cons_self
      have hy := hys y List.mem_cons_self
      cases xs with
      | nil =>
        cases ys with
        | nil => rw [(append_sep_inj hx hy h).1]
        | cons => simp at hlength
      | cons x' xs =>
        cases ys with
        | nil => simp at hlength
        | cons y' ys =>
          simp only [join, List.append_assoc, List.singleton_append] at h
          obtain ⟨rfl, hrest⟩ := append_sep_inj hx hy h
          rw [ih (Nat.succ.inj hlength) (fun z hz => hxs z (List.mem_cons_of_mem x hz))
            (fun z hz => hys z (List.mem_cons_of_mem x hz)) hrest]

end Strings

namespace Hex

def digit (n : Nat) : UInt8 := if n < 10 then UInt8.ofNat (48 + n) else UInt8.ofNat (87 + n)

/-- `hex.EncodeToString`. -/
def encode (s : Bytes) : Bytes := s.flatMap fun b => [digit (b.toNat / 16), digit (b.toNat % 16)]

def isDigit (b : UInt8) : Bool :=
  (48 ≤ b && b ≤ 57) || (97 ≤ b && b ≤ 102) || (65 ≤ b && b ≤ 70)

/-- Whether `hex.DecodeString` succeeds. -/
def decodable (s : Bytes) : Bool := s.length % 2 == 0 && s.all isDigit

theorem digit_injective : ∀ m, m < 16 → ∀ n, n < 16 → digit m = digit n → m = n := by decide

theorem encode_injective {s t : Bytes} (h : encode s = encode t) : s = t := by
  induction s generalizing t with
  | nil =>
    cases t with
    | nil => rfl
    | cons => cases h
  | cons b s ih =>
    cases t with
    | nil => cases h
    | cons c t =>
      simp only [encode, List.flatMap_cons, List.cons_append, List.nil_append, List.cons.injEq] at h
      obtain ⟨hhigh, hlow, htail⟩ := h
      have hb := b.toNat_lt
      have hc := c.toNat_lt
      have hquot := digit_injective _ (by omega) _ (by omega) hhigh
      have hrem := digit_injective _ (by omega) _ (by omega) hlow
      have heq : b = c := UInt8.toNat_inj.mp (by omega)
      rw [heq, ih htail]

theorem encode_length (s : Bytes) : (encode s).length = 2 * s.length := by
  induction s with
  | nil => rfl
  | cons b s ih =>
    simp only [encode, List.flatMap_cons, List.length_append, List.length_cons,
      List.length_nil] at ih ⊢
    omega

theorem isDigit_digit : ∀ n, n < 16 → isDigit (digit n) = true := by decide

theorem encode_isDigit (s : Bytes) : ∀ b ∈ encode s, isDigit b = true := by
  intro b hb
  obtain ⟨c, _, hc⟩ := List.mem_flatMap.mp hb
  have hlt : c.toNat < 256 := c.toNat_lt
  simp only [List.mem_cons, List.not_mem_nil, or_false] at hc
  rcases hc with rfl | rfl
  · exact isDigit_digit _ (by omega)
  · exact isDigit_digit _ (by omega)

theorem validString_encode (s : Bytes) : Utf8.validString (encode s) = true := by
  refine Utf8.validString_ascii fun b hb => ?_
  have h := encode_isDigit s b hb
  simp only [isDigit, Bool.or_eq_true, Bool.and_eq_true, decide_eq_true_eq] at h
  rcases h with (h | h) | h <;> exact UInt8.lt_of_le_of_lt h.2 (by decide)

theorem decodable_encode (s : Bytes) : decodable (encode s) = true := by
  have hlen : (encode s).length % 2 = 0 := by rw [encode_length]; omega
  simp only [decodable, hlen, beq_self_eq_true, Bool.true_and]
  exact List.all_eq_true.mpr (encode_isDigit s)

end Hex

namespace Decimal

def digit (d : Nat) : UInt8 := UInt8.ofNat (48 + d)

def isDigit (b : UInt8) : Bool := 48 ≤ b && b ≤ 57

def digitVal (b : UInt8) : Nat := b.toNat - 48

/-- The last `w` decimal digits of a number. -/
def pad : Nat → Nat → Bytes
  | 0, _ => []
  | w + 1, n => pad w (n / 10) ++ [digit (n % 10)]

def value (s : Bytes) : Nat := s.foldl (fun acc b => 10 * acc + digitVal b) 0

/-- Drops the trailing zeros of a fraction. -/
def stripZeros (s : Bytes) : Bytes := (s.reverse.dropWhile (· == 48)).reverse

/-- `strconv.Itoa` on natural numbers. -/
def formatNat (n : Nat) : Bytes := pad (Nat.log 10 n + 1) n

/-- `strconv.Itoa`. -/
def formatInt (i : Int) : Bytes :=
  if i < 0 then 45 :: formatNat i.natAbs else formatNat i.natAbs

theorem digitVal_digit : ∀ d, d < 10 → digitVal (digit d) = d := by decide

theorem isDigit_digit : ∀ d, d < 10 → isDigit (digit d) = true := by decide

@[simp] theorem pad_length (w n : Nat) : (pad w n).length = w := by
  induction w generalizing n with
  | zero => rfl
  | succ w ih => simp [pad, ih]

theorem pad_isDigit (w n : Nat) : ∀ b ∈ pad w n, isDigit b = true := by
  induction w generalizing n with
  | zero => simp [pad]
  | succ w ih =>
    intro b hb
    rcases List.mem_append.mp hb with hb | hb
    · exact ih _ b hb
    · rw [List.mem_singleton.mp hb]
      exact isDigit_digit _ (Nat.mod_lt _ (by decide))

theorem validString_digits {s : Bytes} (h : ∀ b ∈ s, isDigit b = true) :
    Utf8.validString s = true := by
  refine Utf8.validString_ascii fun b hb => ?_
  have hdigit := h b hb
  simp only [isDigit, Bool.and_eq_true, decide_eq_true_eq] at hdigit
  exact UInt8.lt_of_le_of_lt hdigit.2 (by decide)

theorem value_append (s t : Bytes) : value (s ++ t) = value s * 10 ^ t.length + value t := by
  induction t using List.reverseRecOn with
  | nil => simp [value]
  | append_singleton t b ih =>
    rw [← List.append_assoc]
    simp only [value, List.foldl_append, List.foldl_cons, List.foldl_nil, List.length_append,
      List.length_cons, List.length_nil] at ih ⊢
    rw [ih, pow_succ]
    ring

theorem value_pad (w n : Nat) : value (pad w n) = n % 10 ^ w := by
  induction w generalizing n with
  | zero => simp [pad, value, Nat.mod_one]
  | succ w ih =>
    have hd : value [digit (n % 10)] = n % 10 := by
      simpa [value] using digitVal_digit (n % 10) (Nat.mod_lt _ (by decide))
    rw [pad, value_append, ih, hd, List.length_singleton, pow_one, pow_succ,
      Nat.mul_comm (10 ^ w) 10,
      Nat.mod_mul]
    omega

theorem value_pad_of_lt {w n : Nat} (h : n < 10 ^ w) : value (pad w n) = n := by
  rw [value_pad, Nat.mod_eq_of_lt h]

theorem value_formatNat (n : Nat) : value (formatNat n) = n :=
  value_pad_of_lt (Nat.lt_pow_succ_log_self (by decide) n)

theorem formatNat_isDigit (n : Nat) : ∀ b ∈ formatNat n, isDigit b = true := pad_isDigit _ n

theorem formatNat_length (n : Nat) : (formatNat n).length = Nat.log 10 n + 1 := pad_length _ n

theorem formatNat_ne_nil (n : Nat) : formatNat n ≠ [] := by
  intro h
  have := formatNat_length n
  simp [h] at this

theorem formatNat_injective {m n : Nat} (h : formatNat m = formatNat n) : m = n := by
  rw [← value_formatNat m, ← value_formatNat n, h]

theorem formatNat_head_ne (n : Nat) {b : UInt8} {rest : Bytes} (h : formatNat n = b :: rest) :
    b ≠ 45 := by
  have hdigit := formatNat_isDigit n b (by rw [h]; exact List.mem_cons_self)
  intro hb
  rw [hb] at hdigit
  cases hdigit

theorem formatInt_injective {i j : Int} (h : formatInt i = formatInt j) : i = j := by
  unfold formatInt at h
  split at h
  case isTrue hi =>
    split at h
    case isTrue hj =>
      have habs := formatNat_injective (List.cons.inj h).2
      omega
    case isFalse => exact absurd rfl (formatNat_head_ne _ h.symm)
  case isFalse hi =>
    split at h
    case isTrue => exact absurd rfl (formatNat_head_ne _ h)
    case isFalse hj =>
      have habs := formatNat_injective h
      omega

theorem mem_formatInt {i : Int} {b : UInt8} (h : b ∈ formatInt i) : b = 45 ∨ isDigit b = true := by
  unfold formatInt at h
  split at h
  case isTrue =>
    rcases List.mem_cons.mp h with h | h
    · exact .inl h
    · exact .inr (formatNat_isDigit _ _ h)
  case isFalse => exact .inr (formatNat_isDigit _ _ h)

theorem zero_not_mem_formatInt (i : Int) : (0 : UInt8) ∉ formatInt i := by
  intro h
  rcases mem_formatInt h with h | h <;> cases h

theorem slash_not_mem_formatInt (i : Int) : (47 : UInt8) ∉ formatInt i := by
  intro h
  rcases mem_formatInt h with h | h <;> cases h

theorem validString_formatInt (i : Int) : Utf8.validString (formatInt i) = true := by
  refine Utf8.validString_ascii fun b hb => ?_
  rcases mem_formatInt hb with rfl | h
  · decide
  · simp only [isDigit, Bool.and_eq_true, decide_eq_true_eq] at h
    exact UInt8.lt_of_le_of_lt h.2 (by decide)

theorem pad_succ_head (w n : Nat) : pad (w + 1) n = digit (n / 10 ^ w % 10) :: pad w n := by
  induction w generalizing n with
  | zero => simp [pad]
  | succ w ih => rw [pad, ih, pad, Nat.div_div_eq_div_mul, ← pow_succ', List.cons_append]

theorem formatNat_head (n : Nat) (h : n ≠ 0) :
    ∃ d rest, formatNat n = digit d :: rest ∧ 0 < d ∧ d < 10 ∧ rest.all isDigit = true := by
  have hlt := Nat.lt_pow_succ_log_self (b := 10) (by decide) n
  have hle := Nat.pow_log_le_self 10 h
  have hdigit : n / 10 ^ Nat.log 10 n < 10 := by
    rw [Nat.div_lt_iff_lt_mul (by positivity), ← pow_succ']
    exact hlt
  refine ⟨n / 10 ^ Nat.log 10 n, pad (Nat.log 10 n) n, ?_, ?_, hdigit, ?_⟩
  · rw [formatNat, pad_succ_head, Nat.mod_eq_of_lt hdigit]
  · exact Nat.div_pos hle (by positivity)
  · exact List.all_eq_true.mpr (pad_isDigit _ n)

theorem stripZeros_append (s : Bytes) :
    s = stripZeros s ++ List.replicate (s.length - (stripZeros s).length) 48 := by
  induction s using List.reverseRecOn with
  | nil => rfl
  | append_singleton s b ih =>
    by_cases hb : b = 48
    · subst hb
      have hstrip : stripZeros (s ++ [48]) = stripZeros s := by simp [stripZeros]
      have hle : (stripZeros s).length ≤ s.length := by
        have := congrArg List.length ih
        simp only [List.length_append, List.length_replicate] at this
        omega
      rw [hstrip]
      nth_rewrite 1 [ih]
      rw [List.append_assoc, List.length_append, List.length_singleton, Nat.succ_sub hle,
        List.replicate_succ']
    · simp [stripZeros, hb]

theorem value_replicate_zero (k : Nat) : value (List.replicate k 48) = 0 := by
  induction k with
  | zero => rfl
  | succ k ih =>
    rw [List.replicate_succ', value_append, ih]
    rfl

/-- A fraction without its trailing zeros is still a fraction, of the same value. -/
theorem stripZeros_pad {w n : Nat} (h : n < 10 ^ w) (h0 : n ≠ 0) :
    stripZeros (pad w n) ≠ [] ∧ (∀ b ∈ stripZeros (pad w n), isDigit b = true) ∧
      (stripZeros (pad w n)).length ≤ w ∧
      value (stripZeros (pad w n)) * 10 ^ (w - (stripZeros (pad w n)).length) = n := by
  have happ := stripZeros_append (pad w n)
  have hvalue := congrArg value happ
  rw [value_pad_of_lt h, value_append, value_replicate_zero, List.length_replicate, pad_length,
    Nat.add_zero] at hvalue
  have hlen := congrArg List.length happ
  simp only [pad_length, List.length_append, List.length_replicate] at hlen
  refine ⟨fun hnil => ?_, fun b hb => ?_, by omega, hvalue.symm⟩
  · rw [hnil] at hvalue
    exact h0 (by simpa [value] using hvalue)
  · refine pad_isDigit w n b ?_
    rw [happ]
    exact List.mem_append_left _ hb

end Decimal
end Go
