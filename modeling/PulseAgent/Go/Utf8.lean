import Mathlib.Data.List.Basic
import Mathlib.Data.UInt

/-!
# Byte strings and UTF-8

`pieces` is the segmentation of a string by `utf8.DecodeRune`, which treats every byte that starts
no well-formed rune as an invalid rune of width one; `toValidUTF8` replaces such bytes by U+FFFD, as
`encoding/json` does on both sides.
-/

namespace Go

abbrev Bytes := List UInt8

instance instLawfulBEqBytes : LawfulBEq Bytes := inferInstance

/-- The bytes of a string literal. -/
def lit (s : String) : Bytes := s.toUTF8.data.toList

namespace Utf8

def cont (b : UInt8) : Bool := 0x80 ≤ b && b ≤ 0xBF

/-- The second byte of a three-byte rune: no overlong form after E0, no surrogate after ED. -/
def second3 (b0 b1 : UInt8) : Bool :=
  if b0 = 0xE0 then 0xA0 ≤ b1 && b1 ≤ 0xBF
  else if b0 = 0xED then 0x80 ≤ b1 && b1 ≤ 0x9F
  else cont b1

/-- The second byte of a four-byte rune: no overlong form after F0, at most U+10FFFF after F4. -/
def second4 (b0 b1 : UInt8) : Bool :=
  if b0 = 0xF0 then 0x90 ≤ b1 && b1 ≤ 0xBF
  else if b0 = 0xF4 then 0x80 ≤ b1 && b1 ≤ 0x8F
  else cont b1

/-- One test for each byte that must follow a lead byte, `none` when the byte leads no rune. -/
def following (b0 : UInt8) : Option (List (UInt8 → Bool)) :=
  if b0 < 0x80 then some []
  else if b0 < 0xC2 then none
  else if b0 < 0xE0 then some [cont]
  else if b0 < 0xF0 then some [second3 b0, cont]
  else if b0 < 0xF5 then some [second4 b0, cont, cont]
  else none

def passes : List (UInt8 → Bool) → Bytes → Bool
  | [], _ => true
  | _ :: _, [] => false
  | p :: ps, b :: s => p b && passes ps s

/-- Width of the well-formed rune at the front, `0` when there is none. -/
def runeWidth : Bytes → Nat
  | [] => 0
  | b0 :: rest =>
    match following b0 with
    | none => 0
    | some tests => if passes tests rest then tests.length + 1 else 0

inductive Piece where
  | rune (bytes : Bytes)
  | bad (b : UInt8)
  deriving DecidableEq, Repr

def piecesAux : Nat → Bytes → List Piece
  | 0, _ => []
  | _ + 1, [] => []
  | n + 1, b :: rest =>
    match runeWidth (b :: rest) with
    | 0 => .bad b :: piecesAux n rest
    | w + 1 => .rune (b :: rest.take w) :: piecesAux n (rest.drop w)

/-- The runes and stray bytes of a string, from left to right. -/
def pieces (s : Bytes) : List Piece := piecesAux s.length s

/-- UTF-8 encoding of U+FFFD. -/
def replacement : Bytes := [0xEF, 0xBF, 0xBD]

def Piece.clean : Piece → Bytes
  | .rune bytes => bytes
  | .bad _ => replacement

def toValidUTF8 (s : Bytes) : Bytes := (pieces s).flatMap Piece.clean

def Piece.isRune : Piece → Bool
  | .rune _ => true
  | .bad _ => false

/-- `utf8.ValidString`. -/
def validString (s : Bytes) : Bool := (pieces s).all Piece.isRune

theorem passes_append {ps : List (UInt8 → Bool)} {s : Bytes} (h : passes ps s = true) (t : Bytes) :
    passes ps (s ++ t) = true := by
  induction ps generalizing s with
  | nil => rfl
  | cons p ps ih =>
    cases s with
    | nil => simp [passes] at h
    | cons b s =>
      simp only [passes, Bool.and_eq_true, List.cons_append] at h ⊢
      exact ⟨h.1, ih h.2⟩

theorem passes_take {ps : List (UInt8 → Bool)} {s : Bytes} (h : passes ps s = true) :
    passes ps (s.take ps.length) = true := by
  induction ps generalizing s with
  | nil => rfl
  | cons p ps ih =>
    cases s with
    | nil => simp [passes] at h
    | cons b s =>
      simp only [passes, Bool.and_eq_true, List.length_cons, List.take_succ_cons] at h ⊢
      exact ⟨h.1, ih h.2⟩

theorem passes_length {ps : List (UInt8 → Bool)} {s : Bytes} (h : passes ps s = true) :
    ps.length ≤ s.length := by
  induction ps generalizing s with
  | nil => simp
  | cons p ps ih =>
    cases s with
    | nil => simp [passes] at h
    | cons b s =>
      simp only [passes, Bool.and_eq_true] at h
      simpa using ih h.2

theorem runeWidth_succ {b : UInt8} {rest : Bytes} {w : Nat} (h : runeWidth (b :: rest) = w + 1) :
    ∃ tests, following b = some tests ∧ passes tests rest = true ∧ w = tests.length := by
  simp only [runeWidth] at h
  cases hf : following b with
  | none => simp [hf] at h
  | some tests =>
    by_cases hp : passes tests rest = true
    · refine ⟨tests, rfl, hp, ?_⟩
      simp only [hf, hp, if_true] at h
      omega
    · simp [hf, hp] at h

theorem runeWidth_of_passes {b : UInt8} {rest : Bytes} {tests : List (UInt8 → Bool)}
    (hf : following b = some tests) (hp : passes tests rest = true) :
    runeWidth (b :: rest) = tests.length + 1 := by
  simp [runeWidth, hf, hp]

theorem runeWidth_le_length (s : Bytes) : runeWidth s ≤ s.length := by
  cases s with
  | nil => simp [runeWidth]
  | cons b rest =>
    cases hw : runeWidth (b :: rest) with
    | zero => simp
    | succ w =>
      obtain ⟨tests, _, hp, rfl⟩ := runeWidth_succ hw
      have := passes_length hp
      simpa using this

/-- The width is decided by the rune alone, whatever follows it. -/
theorem runeWidth_rune_append {b : UInt8} {rest : Bytes} {w : Nat}
    (h : runeWidth (b :: rest) = w + 1) (t : Bytes) :
    runeWidth (b :: (rest.take w ++ t)) = w + 1 := by
  obtain ⟨tests, hf, hp, rfl⟩ := runeWidth_succ h
  exact runeWidth_of_passes hf (passes_append (passes_take hp) t)

theorem piecesAux_eq {n m : Nat} {s : Bytes} (hn : s.length ≤ n) (hm : s.length ≤ m) :
    piecesAux n s = piecesAux m s := by
  induction n generalizing m s with
  | zero =>
    have : s = [] := List.length_eq_zero_iff.mp (by omega)
    subst this
    cases m <;> rfl
  | succ n ih =>
    cases s with
    | nil => cases m <;> rfl
    | cons b rest =>
      cases m with
      | zero => simp at hm
      | succ m =>
        simp only [List.length_cons] at hn hm
        simp only [piecesAux]
        split
        · rw [ih (m := m) (by omega) (by omega)]
        · rename_i w _
          rw [ih (m := m) (by rw [List.length_drop]; omega) (by rw [List.length_drop]; omega)]

@[simp] theorem pieces_nil : pieces [] = [] := rfl

theorem pieces_bad {b : UInt8} {rest : Bytes} (h : runeWidth (b :: rest) = 0) :
    pieces (b :: rest) = .bad b :: pieces rest := by
  simp only [pieces, List.length_cons, piecesAux, h]

theorem pieces_rune {b : UInt8} {rest : Bytes} {w : Nat} (h : runeWidth (b :: rest) = w + 1) :
    pieces (b :: rest) = .rune (b :: rest.take w) :: pieces (rest.drop w) := by
  simp only [pieces, List.length_cons, piecesAux, h]
  rw [piecesAux_eq (by rw [List.length_drop]; omega) (Nat.le_refl _)]

/-- Reading a string piece by piece: the induction behind every fact about whole strings. -/
theorem pieces_induction {P : Bytes → Prop} (nil : P [])
    (bad : ∀ b rest, runeWidth (b :: rest) = 0 → P rest → P (b :: rest))
    (rune : ∀ b rest w, runeWidth (b :: rest) = w + 1 → P (rest.drop w) → P (b :: rest))
    (s : Bytes) : P s := by
  induction hn : s.length using Nat.strong_induction_on generalizing s with
  | _ n ih =>
    subst hn
    cases s with
    | nil => exact nil
    | cons b rest =>
      cases hw : runeWidth (b :: rest) with
      | zero => exact bad b rest hw (ih rest.length (by simp) rest rfl)
      | succ w =>
        exact rune b rest w hw (ih _ (by rw [List.length_drop, List.length_cons]; omega) _ rfl)

theorem toValidUTF8_bad {b : UInt8} {rest : Bytes} (h : runeWidth (b :: rest) = 0) :
    toValidUTF8 (b :: rest) = replacement ++ toValidUTF8 rest := by
  simp [toValidUTF8, pieces_bad h, Piece.clean]

theorem toValidUTF8_rune {b : UInt8} {rest : Bytes} {w : Nat} (h : runeWidth (b :: rest) = w + 1) :
    toValidUTF8 (b :: rest) = b :: (rest.take w ++ toValidUTF8 (rest.drop w)) := by
  simp [toValidUTF8, pieces_rune h, Piece.clean]

theorem pieces_rune_append {b : UInt8} {rest : Bytes} {w : Nat}
    (h : runeWidth (b :: rest) = w + 1) (t : Bytes) :
    pieces (b :: (rest.take w ++ t)) = .rune (b :: rest.take w) :: pieces t := by
  have hlen : (rest.take w).length = w := by
    have := runeWidth_le_length (b :: rest)
    rw [h, List.length_cons] at this
    rw [List.length_take]
    omega
  rw [pieces_rune (runeWidth_rune_append h t), List.take_left' hlen, List.drop_left' hlen]

theorem pieces_replacement_append (t : Bytes) :
    pieces (replacement ++ t) = .rune replacement :: pieces t := by
  have h : runeWidth (0xEF :: [0xBF, 0xBD]) = 2 + 1 := by decide
  exact pieces_rune_append h t

theorem validString_toValidUTF8 (s : Bytes) : validString (toValidUTF8 s) = true := by
  induction s using pieces_induction with
  | nil => rfl
  | bad b rest h ih =>
    rw [toValidUTF8_bad h]
    simpa [validString, pieces_replacement_append, Piece.isRune] using ih
  | rune b rest w h ih =>
    rw [toValidUTF8_rune h]
    simpa [validString, pieces_rune_append h, Piece.isRune] using ih

theorem toValidUTF8_of_valid {s : Bytes} (h : validString s = true) : toValidUTF8 s = s := by
  induction s using pieces_induction with
  | nil => rfl
  | bad b rest hb _ => simp [validString, pieces_bad hb, Piece.isRune] at h
  | rune b rest w hw ih =>
    have ht : validString (rest.drop w) = true := by
      simpa [validString, pieces_rune hw, Piece.isRune] using h
    rw [toValidUTF8_rune hw, ih ht, List.take_append_drop]

theorem toValidUTF8_idem (s : Bytes) : toValidUTF8 (toValidUTF8 s) = toValidUTF8 s :=
  toValidUTF8_of_valid (validString_toValidUTF8 s)

theorem toValidUTF8_eq_self_iff (s : Bytes) : toValidUTF8 s = s ↔ validString s = true :=
  ⟨fun h => h ▸ validString_toValidUTF8 s, toValidUTF8_of_valid⟩

theorem toValidUTF8_length_le (s : Bytes) : (toValidUTF8 s).length ≤ 3 * s.length := by
  induction s using pieces_induction with
  | nil => exact Nat.le_refl _
  | bad b rest h ih =>
    rw [toValidUTF8_bad h, List.length_append, List.length_cons]
    have hreplacement : replacement.length = 3 := rfl
    omega
  | rune b rest w h ih =>
    have hsplit : (rest.take w).length + (rest.drop w).length = rest.length := by
      rw [← List.length_append, List.take_append_drop]
    rw [toValidUTF8_rune h, List.length_cons, List.length_append, List.length_cons]
    omega

theorem toValidUTF8_eq_nil_iff (s : Bytes) : toValidUTF8 s = [] ↔ s = [] := by
  cases s with
  | nil => simp [toValidUTF8]
  | cons b rest =>
    cases hw : runeWidth (b :: rest) with
    | zero => simp [toValidUTF8_bad hw, replacement]
    | succ w => simp [toValidUTF8_rune hw]

theorem validString_append {s t : Bytes} (hs : validString s = true) (ht : validString t = true) :
    validString (s ++ t) = true := by
  induction s using pieces_induction with
  | nil => exact ht
  | bad b rest hb _ => simp [validString, pieces_bad hb, Piece.isRune] at hs
  | rune b rest w hw ih =>
    have hrest : validString (rest.drop w) = true := by
      simpa [validString, pieces_rune hw, Piece.isRune] using hs
    have hsplit : b :: rest ++ t = b :: (rest.take w ++ (rest.drop w ++ t)) := by
      rw [← List.append_assoc, List.take_append_drop, List.cons_append]
    rw [hsplit]
    simpa [validString, pieces_rune_append hw, Piece.isRune] using ih hrest

theorem validString_cons {b : UInt8} {s : Bytes} (hb : b < 128) :
    validString (b :: s) = validString s := by
  have hfollowing : following b = some [] := by simp [following, hb]
  have hw : runeWidth (b :: s) = 0 + 1 := runeWidth_of_passes hfollowing rfl
  simp [validString, pieces_rune hw, Piece.isRune]

theorem validString_ascii {s : Bytes} (h : ∀ b ∈ s, b < 128) : validString s = true := by
  induction s with
  | nil => rfl
  | cons b s ih =>
    rw [validString_cons (h b (by simp))]
    exact ih fun c hc => h c (by simp [hc])

end Utf8
end Go
