import PulseAgent.Go.Utf8

/-!
# Base64

The standard alphabet with padding. `decode` skips line breaks anywhere, and the bits that padding
leaves over have to be zero.
-/

namespace Go.Base64

def alphabet : Bytes := lit "ABCDEFGHIJKLMNOPQRSTUVWXYZabcdefghijklmnopqrstuvwxyz0123456789+/"

def char (n : Nat) : UInt8 := alphabet.getD n 61

def charVal (c : UInt8) : Option Nat :=
  if 65 ≤ c ∧ c ≤ 90 then some (c.toNat - 65)
  else if 97 ≤ c ∧ c ≤ 122 then some (c.toNat - 71)
  else if 48 ≤ c ∧ c ≤ 57 then some (c.toNat + 4)
  else if c = 43 then some 62
  else if c = 47 then some 63
  else none

/-- `EncodeToString`. -/
def encode : Bytes → Bytes
  | [] => []
  | [a] => [char (a.toNat / 4), char (a.toNat % 4 * 16), 61, 61]
  | [a, b] =>
    [char (a.toNat / 4), char (a.toNat % 4 * 16 + b.toNat / 16), char (b.toNat % 16 * 4), 61]
  | a :: b :: c :: rest =>
    char (a.toNat / 4) :: char (a.toNat % 4 * 16 + b.toNat / 16) ::
      char (b.toNat % 16 * 4 + c.toNat / 64) :: char (c.toNat % 64) :: encode rest

/-- The bytes of three or four characters with these values. -/
def firstByte (a b : Nat) : UInt8 := UInt8.ofNat (a * 4 + b / 16)
def secondByte (b c : Nat) : UInt8 := UInt8.ofNat (b % 16 * 16 + c / 4)
def thirdByte (c d : Nat) : UInt8 := UInt8.ofNat (c % 4 * 64 + d)

def decodeQuanta : Bytes → Option Bytes
  | [] => some []
  | [c1, c2, 61, 61] => do
    let a ← charVal c1
    let b ← charVal c2
    if b % 16 = 0 then some [firstByte a b] else none
  | [c1, c2, c3, 61] => do
    let a ← charVal c1
    let b ← charVal c2
    let c ← charVal c3
    if c % 4 = 0 then some [firstByte a b, secondByte b c] else none
  | c1 :: c2 :: c3 :: c4 :: rest => do
    let a ← charVal c1
    let b ← charVal c2
    let c ← charVal c3
    let d ← charVal c4
    let bytes ← decodeQuanta rest
    some (firstByte a b :: secondByte b c :: thirdByte c d :: bytes)
  | _ => none

/-- `StdEncoding.Strict().DecodeString`. -/
def decode (s : Bytes) : Option Bytes :=
  decodeQuanta (s.filter fun c => c != 10 && c != 13)

theorem charVal_char : ∀ n, n < 64 → charVal (char n) = some n := by decide

theorem char_ne_pad : ∀ n, n < 64 → char n ≠ 61 := by decide

/-- A character of the alphabet or of the padding. -/
def isChar (c : UInt8) : Bool := c == 61 || (charVal c).isSome

theorem isChar_char {n : Nat} (h : n < 64) : isChar (char n) = true := by
  simp [isChar, charVal_char n h]

theorem isChar_pad : isChar 61 = true := by decide

theorem all_isChar_encode (s : Bytes) : (encode s).all isChar = true := by
  fun_induction encode s with
  | case1 => rfl
  | case2 a =>
    have ha := a.toNat_lt
    simp only [List.all_cons, isChar_char (show a.toNat / 4 < 64 by omega),
      isChar_char (show a.toNat % 4 * 16 < 64 by omega), isChar_pad, List.all_nil, Bool.and_true]
  | case3 a b =>
    have ha := a.toNat_lt
    have hb := b.toNat_lt
    simp only [List.all_cons, isChar_char (show a.toNat / 4 < 64 by omega),
      isChar_char (show a.toNat % 4 * 16 + b.toNat / 16 < 64 by omega),
      isChar_char (show b.toNat % 16 * 4 < 64 by omega), isChar_pad, List.all_nil, Bool.and_true]
  | case4 a b c rest ih =>
    have ha := a.toNat_lt
    have hb := b.toNat_lt
    have hc := c.toNat_lt
    simp only [List.all_cons, isChar_char (show a.toNat / 4 < 64 by omega),
      isChar_char (show a.toNat % 4 * 16 + b.toNat / 16 < 64 by omega),
      isChar_char (show b.toNat % 16 * 4 + c.toNat / 64 < 64 by omega),
      isChar_char (show c.toNat % 64 < 64 by omega), ih, Bool.and_true]

theorem decodeQuanta_cons {a b c d : Nat} (ha : a < 64) (hb : b < 64) (hc : c < 64) (hd : d < 64)
    (rest : Bytes) : decodeQuanta (char a :: char b :: char c :: char d :: rest) =
      (decodeQuanta rest).map fun bytes =>
        firstByte a b :: secondByte b c :: thirdByte c d :: bytes := by
  rw [decodeQuanta]
  · simp only [charVal_char a ha, charVal_char b hb, charVal_char c hc, charVal_char d hd]
    cases decodeQuanta rest <;> rfl
  · intro hpad
    exact absurd hpad (char_ne_pad c hc)
  · intro hpad
    exact absurd hpad (char_ne_pad d hd)

theorem decodeQuanta_one {a b : Nat} (ha : a < 64) (hb : b < 64) :
    decodeQuanta [char a, char b, 61, 61] =
      if b % 16 = 0 then some [firstByte a b] else none := by
  simp [decodeQuanta, charVal_char a ha, charVal_char b hb]

theorem decodeQuanta_two {a b c : Nat} (ha : a < 64) (hb : b < 64) (hc : c < 64) :
    decodeQuanta [char a, char b, char c, 61] =
      if c % 4 = 0 then some [firstByte a b, secondByte b c] else none := by
  rw [decodeQuanta]
  · simp [charVal_char a ha, charVal_char b hb, charVal_char c hc]
  · intro hpad
    exact absurd hpad (char_ne_pad c hc)

theorem firstByte_eq (a b : UInt8) :
    firstByte (a.toNat / 4) (a.toNat % 4 * 16 + b.toNat / 16) = a := by
  have hb := b.toNat_lt
  have hsum : a.toNat / 4 * 4 + (a.toNat % 4 * 16 + b.toNat / 16) / 16 = a.toNat := by omega
  rw [firstByte, hsum, UInt8.ofNat_toNat]

theorem secondByte_eq (a b c : UInt8) :
    secondByte (a.toNat % 4 * 16 + b.toNat / 16) (b.toNat % 16 * 4 + c.toNat / 64) = b := by
  have hb := b.toNat_lt
  have hc := c.toNat_lt
  have hsum : (a.toNat % 4 * 16 + b.toNat / 16) % 16 * 16 +
      (b.toNat % 16 * 4 + c.toNat / 64) / 4 = b.toNat := by omega
  rw [secondByte, hsum, UInt8.ofNat_toNat]

theorem thirdByte_eq (b c : UInt8) :
    thirdByte (b.toNat % 16 * 4 + c.toNat / 64) (c.toNat % 64) = c := by
  have hc := c.toNat_lt
  have hsum : (b.toNat % 16 * 4 + c.toNat / 64) % 4 * 64 + c.toNat % 64 = c.toNat := by omega
  rw [thirdByte, hsum, UInt8.ofNat_toNat]

theorem decodeQuanta_encode (s : Bytes) : decodeQuanta (encode s) = some s := by
  fun_induction encode s with
  | case1 => rfl
  | case2 a =>
    have ha := a.toNat_lt
    have hfirst : firstByte (a.toNat / 4) (a.toNat % 4 * 16) = a := firstByte_eq a 0
    rw [decodeQuanta_one (by omega) (by omega), if_pos (Nat.mul_mod_left _ 16), hfirst]
  | case3 a b =>
    have ha := a.toNat_lt
    have hb := b.toNat_lt
    have hsecond : secondByte (a.toNat % 4 * 16 + b.toNat / 16) (b.toNat % 16 * 4) = b :=
      secondByte_eq a b 0
    rw [decodeQuanta_two (by omega) (by omega) (by omega), if_pos (Nat.mul_mod_left _ 4),
      firstByte_eq, hsecond]
  | case4 a b c rest ih =>
    have ha := a.toNat_lt
    have hb := b.toNat_lt
    have hc := c.toNat_lt
    rw [decodeQuanta_cons (by omega) (by omega) (by omega) (by omega), ih, firstByte_eq,
      secondByte_eq, thirdByte_eq]
    rfl

theorem decode_encode (s : Bytes) : decode (encode s) = some s := by
  have hkept : (encode s).filter (fun c => c != 10 && c != 13) = encode s := by
    refine List.filter_eq_self.mpr fun c hc => ?_
    have hchar := List.all_eq_true.mp (all_isChar_encode s) c hc
    by_contra hbreak
    simp only [Bool.and_eq_true, bne_iff_ne, ne_eq, not_and_or, not_not] at hbreak
    rcases hbreak with rfl | rfl <;> exact absurd hchar (by decide)
  rw [decode, hkept, decodeQuanta_encode]

example : encode (lit "secret") = lit "c2VjcmV0" ∧ decode (lit "c2Vjcg\n==") = some (lit "secr") ∧
    decode (lit "c2Vjch==") = none := by decide +kernel

end Go.Base64
