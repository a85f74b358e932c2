import PulseAgent.Go.Text
import PulseAgent.Go.Time

/-!
# Durations and their text

`format` is `Duration.String` and `parse` is `time.ParseDuration`. Fractions are scaled exactly
here, where Go multiplies floats; the two agree on every text `format` writes.
-/

namespace Go

abbrev Duration := Int64

namespace Duration

open Decimal

def renderFraction (prec v : Nat) : Bytes :=
  if v = 0 then [] else 46 :: stripZeros (pad prec v)

/-- A number of nanoseconds in a unit of `10 ^ prec` of them. -/
def renderIn (prec u : Nat) (unit : Bytes) : Bytes :=
  formatNat (u / 10 ^ prec) ++ (renderFraction prec (u % 10 ^ prec) ++ unit)

def unitHour : Bytes := [104]
def unitMinute : Bytes := [109]
def unitSecond : Bytes := [115]
def unitMilli : Bytes := [109, 115]
def unitMicro : Bytes := [0xC2, 0xB5, 115]
def unitNano : Bytes := [110, 115]

/-- The hours and minutes before the seconds of a duration of whole seconds `s`. -/
def renderClock (s : Nat) : Bytes :=
  (if 3600 ≤ s then formatNat (s / 3600) ++ unitHour else []) ++
    (if 60 ≤ s then formatNat (s / 60 % 60) ++ unitMinute else [])

def renderAbs (u : Nat) : Bytes :=
  if u = 0 then [48, 115]
  else if u < 1000 then renderIn 0 u unitNano
  else if u < 1000000 then renderIn 3 u unitMicro
  else if u < 1000000000 then renderIn 6 u unitMilli
  else renderClock (u / 1000000000) ++ renderIn 9 (u % 60000000000) unitSecond

/-- `Duration.String`. -/
def format (d : Duration) : Bytes :=
  if d.toInt < 0 then 45 :: renderAbs d.toInt.natAbs else renderAbs d.toInt.natAbs

def unitMap (u : Bytes) : Option Nat :=
  if u = unitNano then some 1
  else if u = [117, 115] ∨ u = unitMicro ∨ u = [0xCE, 0xBC, 115] then some 1000
  else if u = unitMilli then some 1000000
  else if u = unitSecond then some 1000000000
  else if u = unitMinute then some 60000000000
  else if u = unitHour then some 3600000000000
  else none

/-- A fraction read so far, its scale, and whether it left the 64-bit range. -/
def fractionStep (acc : Nat × Nat × Bool) (c : UInt8) : Nat × Nat × Bool :=
  if acc.2.2 then acc
  else if (2 ^ 63 - 1) / 10 < acc.1 then (acc.1, acc.2.1, true)
  else if 2 ^ 63 < 10 * acc.1 + digitVal c then (acc.1, acc.2.1, true)
  else (10 * acc.1 + digitVal c, acc.2.1 * 10, false)

/-- `leadingFraction`: digits past the 64-bit range are read and ignored. -/
def leadingFraction (ds : Bytes) : Nat × Nat :=
  let r := ds.foldl fractionStep (0, 1, false)
  (r.1, r.2.1)

def isUnit (c : UInt8) : Bool := c != 46 && !isDigit c

def fractionDigits (s : Bytes) : Bytes × Bytes :=
  match s with
  | 46 :: rest => (rest.takeWhile isDigit, rest.dropWhile isDigit)
  | _ => ([], s)

/-- One number with its unit, in nanoseconds, and the text after it. -/
def segment (s : Bytes) : Option (Nat × Bytes) :=
  let ds := s.takeWhile isDigit
  let fs := (fractionDigits (s.dropWhile isDigit)).1
  let rest := (fractionDigits (s.dropWhile isDigit)).2
  if 2 ^ 63 < value ds ∨ (ds = [] ∧ fs = []) then none
  else
    match unitMap (rest.takeWhile isUnit) with
    | none => none
    | some unit =>
      let total := value ds * unit + (leadingFraction fs).1 * unit / (leadingFraction fs).2
      if 2 ^ 63 / unit < value ds ∨ 2 ^ 63 < total then none
      else some (total, rest.dropWhile isUnit)

def segments : Nat → Bytes → Nat → Option Nat
  | _, [], d => some d
  | 0, _ :: _, _ => none
  | fuel + 1, c :: s, d =>
    match segment (c :: s) with
    | none => none
    | some (v, rest) => if 2 ^ 63 < d + v then none else segments fuel rest (d + v)

def parseAbs (s : Bytes) : Option Nat :=
  if s = [48] then some 0 else if s = [] then none else segments (s.length + 1) s 0

def signed (neg : Bool) (d : Nat) : Option Duration :=
  if neg then some (Int64.ofInt (-d)) else if d < 2 ^ 63 then some (Int64.ofInt d) else none

/-- `time.ParseDuration`. -/
def parse (s : Bytes) : Option Duration :=
  match s with
  | 45 :: rest => (parseAbs rest).bind (signed true)
  | 43 :: rest => (parseAbs rest).bind (signed false)
  | _ => (parseAbs s).bind (signed false)

/-! ## Round trip -/

/-- Digit strings of up to 18 digits never meet the 64-bit bound. -/
theorem foldl_fractionStep {ds : Bytes} (hd : ∀ b ∈ ds, isDigit b = true) (h : ds.length ≤ 18) :
    ds.foldl fractionStep (0, 1, false) = (value ds, 10 ^ ds.length, false) ∧
      value ds < 10 ^ ds.length := by
  induction ds using List.reverseRecOn with
  | nil => exact ⟨rfl, by decide⟩
  | append_singleton ds b ih =>
    rw [List.length_append, List.length_singleton] at h
    obtain ⟨hf, hv⟩ := ih (fun c hc => hd c (List.mem_append_left _ hc)) (by omega)
    have hb : digitVal b < 10 := by
      have hdigit := hd b (by simp)
      simp only [isDigit, Bool.and_eq_true, decide_eq_true_eq, UInt8.le_iff_toNat_le] at hdigit
      have hle : b.toNat ≤ 57 := hdigit.2
      unfold digitVal
      omega
    have hpow : 10 ^ ds.length ≤ 10 ^ 17 := Nat.pow_le_pow_right (by decide) (by omega)
    have hval : value (ds ++ [b]) = 10 * value ds + digitVal b := by
      simp [value, List.foldl_append]
    rw [List.foldl_append, hf, List.length_append, List.length_singleton, pow_succ, hval]
    simp only [List.foldl_cons, List.foldl_nil, fractionStep, Bool.false_eq_true, if_false]
    rw [if_neg (by omega), if_neg (by omega)]
    exact ⟨rfl, by omega⟩

theorem leadingFraction_of_length_le {ds : Bytes} (hd : ∀ b ∈ ds, isDigit b = true)
    (h : ds.length ≤ 18) : leadingFraction ds = (value ds, 10 ^ ds.length) := by
  unfold leadingFraction
  rw [(foldl_fractionStep hd h).1]

/-- What may follow a segment: nothing, or the digits of the next one. -/
def SegmentEnds (rest : Bytes) : Prop := ∀ c s, rest = c :: s → isDigit c = true

theorem takeWhile_append_ends {p : UInt8 → Bool} {xs : Bytes} (rest : Bytes)
    (hx : ∀ c ∈ xs, p c = true) (hr : ∀ c s, rest = c :: s → p c = false) :
    (xs ++ rest).takeWhile p = xs ∧ (xs ++ rest).dropWhile p = rest := by
  rw [List.takeWhile_append_of_pos hx, List.dropWhile_append_of_pos hx]
  cases rest with
  | nil => simp
  | cons c s => simp [hr c s rfl]

theorem fractionDigits_render {prec v : Nat} (hv : v < 10 ^ prec) {unit : Bytes}
    (hu : ∃ c s, unit = c :: s ∧ isUnit c = true) (rest : Bytes) :
    ∃ fs, fractionDigits (renderFraction prec v ++ (unit ++ rest)) = (fs, unit ++ rest) ∧
      fs.length ≤ prec ∧ (∀ b ∈ fs, isDigit b = true) ∧ value fs * 10 ^ (prec - fs.length) = v := by
  obtain ⟨c, s, rfl, hc⟩ := hu
  simp only [isUnit, Bool.and_eq_true, bne_iff_ne, Bool.not_eq_true'] at hc
  unfold renderFraction
  by_cases h0 : v = 0
  · subst h0
    refine ⟨[], ?_, Nat.zero_le _, by simp, by simp [value]⟩
    rw [if_pos rfl, List.nil_append, List.cons_append, fractionDigits]
    intro rest h
    exact hc.1 (List.cons.inj h).1
  · obtain ⟨-, hdigits, hlen, hvalue⟩ := stripZeros_pad hv h0
    refine ⟨stripZeros (pad prec v), ?_, hlen, hdigits, hvalue⟩
    have hsplit := takeWhile_append_ends (c :: s ++ rest) hdigits
      (by rintro d t h; obtain ⟨rfl, -⟩ := List.cons.inj h; exact hc.2)
    rw [if_neg h0, List.cons_append, fractionDigits, hsplit.1, hsplit.2]

theorem segment_render (n prec v : Nat) {unit : Nat} {u rest : Bytes} (hprec : prec ≤ 18)
    (hv : v < 10 ^ prec) (hunit : unitMap u = some unit) (hpos : 0 < unit)
    (hscale : v = 0 ∨ unit = 10 ^ prec) (hu : u ≠ [] ∧ u.all isUnit = true)
    (hmax : n * unit + v ≤ 2 ^ 63) (hrest : SegmentEnds rest) :
    segment (formatNat n ++ (renderFraction prec v ++ (u ++ rest))) =
      some (n * unit + v, rest) := by
  have hhead : ∃ c s, u = c :: s ∧ isUnit c = true := by
    cases u with
    | nil => exact absurd rfl hu.1
    | cons c s => exact ⟨c, s, rfl, List.all_eq_true.mp hu.2 c (by simp)⟩
  obtain ⟨fs, hfrac, hlen, hdigits, hvalue⟩ := fractionDigits_render hv hhead rest
  obtain ⟨c, s, hcs, hc⟩ := hhead
  have hnum := takeWhile_append_ends (renderFraction prec v ++ (u ++ rest))
    (formatNat_isDigit n) (by
      intro d t h
      unfold renderFraction at h
      simp only [isUnit, Bool.and_eq_true, bne_iff_ne, Bool.not_eq_true'] at hc
      split at h
      · rw [hcs] at h
        obtain ⟨rfl, -⟩ := List.cons.inj h
        exact hc.2
      · obtain ⟨rfl, -⟩ := List.cons.inj h
        decide)
  have hunits := takeWhile_append_ends rest (List.all_eq_true.mp hu.2) (by
    intro d t h
    simp [isUnit, hrest d t h])
  have hle : n ≤ 2 ^ 63 := le_trans (Nat.le_mul_of_pos_right n hpos) (by omega)
  have hfraction : (leadingFraction fs).1 * unit / (leadingFraction fs).2 = v := by
    rw [leadingFraction_of_length_le hdigits (by omega)]
    rcases hscale with rfl | rfl
    · have h0 : value fs = 0 := by
        rcases Nat.mul_eq_zero.mp hvalue with h | h
        · exact h
        · exact absurd h (by positivity)
      simp [h0]
    · have hpow : 10 ^ prec = 10 ^ (prec - fs.length) * 10 ^ fs.length := by
        rw [← pow_add, Nat.sub_add_cancel hlen]
      rw [hpow, ← Nat.mul_assoc, Nat.mul_div_cancel _ (by positivity), hvalue]
  unfold segment
  simp only [hnum.1, hnum.2, hfrac, hunits.1, hunits.2, hunit, value_formatNat, hfraction]
  rw [if_neg, if_neg]
  · rintro (h | h)
    · have : n ≤ 2 ^ 63 / unit := (Nat.le_div_iff_mul_le hpos).mpr (by omega)
      omega
    · omega
  · rintro (h | h)
    · omega
    · exact formatNat_ne_nil n h.1

theorem segment_renderIn {prec u : Nat} {unit : Bytes} (rest : Bytes) (hprec : prec ≤ 18)
    (hunit : unitMap unit = some (10 ^ prec)) (hu : unit ≠ [] ∧ unit.all isUnit = true)
    (hmax : u ≤ 2 ^ 63) (hrest : SegmentEnds rest) :
    segment (renderIn prec u unit ++ rest) = some (u, rest) := by
  have hdiv := Nat.div_add_mod' u (10 ^ prec)
  have h := segment_render (u / 10 ^ prec) prec (u % 10 ^ prec) hprec (Nat.mod_lt u (by positivity))
    hunit (by positivity) (.inr rfl) hu (by omega) hrest
  rw [hdiv] at h
  simpa [renderIn] using h

theorem segment_whole {n unit : Nat} {u rest : Bytes} (hunit : unitMap u = some unit)
    (hpos : 0 < unit) (hu : u ≠ [] ∧ u.all isUnit = true) (hmax : n * unit ≤ 2 ^ 63)
    (hrest : SegmentEnds rest) : segment (formatNat n ++ (u ++ rest)) = some (n * unit, rest) :=
  segment_render n 0 0 (by decide) (by decide) hunit hpos (.inl rfl) hu hmax hrest

theorem segments_nil (fuel d : Nat) : segments fuel [] d = some d := by cases fuel <;> rfl

theorem segments_step {s rest : Bytes} {fuel d v : Nat} (hs : segment s = some (v, rest))
    (h : d + v ≤ 2 ^ 63) : segments (fuel + 1) s d = segments fuel rest (d + v) := by
  cases s with
  | nil => cases hs
  | cons c s =>
    simp only [segments, hs]
    rw [if_neg (by omega)]

theorem segmentEnds_formatNat (n : Nat) (rest : Bytes) : SegmentEnds (formatNat n ++ rest) := by
  intro c s h
  cases hf : formatNat n with
  | nil => exact absurd hf (formatNat_ne_nil n)
  | cons d ds =>
    rw [hf] at h
    obtain ⟨rfl, -⟩ := List.cons.inj h
    exact formatNat_isDigit n _ (by simp [hf])

theorem segments_clock {u : Nat} (hmax : u ≤ 2 ^ 63) (fuel : Nat) :
    segments (fuel + 3) (renderClock (u / 1000000000) ++
      renderIn 9 (u % 60000000000) unitSecond) 0 =
      some u := by
  have hseconds : ∀ fuel d, d + u % 60000000000 ≤ 2 ^ 63 →
      segments (fuel + 1) (renderIn 9 (u % 60000000000) unitSecond) d =
        some (d + u % 60000000000) := by
    intro fuel d hd
    have h : segment (renderIn 9 (u % 60000000000) unitSecond ++ []) =
        some (u % 60000000000, []) :=
      segment_renderIn [] (by decide) rfl (by decide) (by omega) (by rintro c s ⟨⟩)
    rw [List.append_nil] at h
    rw [segments_step h hd, segments_nil]
  have hends : SegmentEnds (renderIn 9 (u % 60000000000) unitSecond) := segmentEnds_formatNat _ _
  have hminutes : ∀ fuel d, d + u / 60000000000 % 60 * 60000000000 + u % 60000000000 ≤ 2 ^ 63 →
      segments (fuel + 2) (formatNat (u / 60000000000 % 60) ++ (unitMinute ++
        renderIn 9 (u % 60000000000) unitSecond)) d =
        some (d + u / 60000000000 % 60 * 60000000000 + u % 60000000000) := by
    intro fuel d hd
    have h := segment_whole (n := u / 60000000000 % 60)
      (u := unitMinute) rfl (by decide) (by decide)
      (by omega) hends
    rw [segments_step h (by omega), hseconds _ _ hd]
  unfold renderClock
  rw [Nat.div_div_eq_div_mul, Nat.div_div_eq_div_mul]
  split_ifs with hh hm hm
  · have h := segment_whole (n := u / 3600000000000) (u := unitHour) rfl (by decide) (by decide)
      (by omega) (segmentEnds_formatNat (u / 60000000000 % 60)
        (unitMinute ++ renderIn 9 (u % 60000000000) unitSecond))
    simp only [List.append_assoc]
    rw [segments_step h (by omega), hminutes _ _ (by omega)]
    congr 1
    omega
  · omega
  · simp only [List.nil_append, List.append_assoc]
    rw [hminutes _ _ (by omega)]
    congr 1
    omega
  · simp only [List.nil_append]
    rw [hseconds _ _ (by omega)]
    congr 1
    omega

theorem renderIn_length (prec u : Nat) (unit : Bytes) (hu : unit ≠ []) :
    2 ≤ (renderIn prec u unit).length := by
  have hpos : 0 < (formatNat (u / 10 ^ prec)).length := by rw [formatNat_length]; omega
  have hunit : 0 < unit.length := List.length_pos_iff.mpr hu
  simp only [renderIn, List.length_append]
  omega

theorem parseAbs_of_length {s : Bytes} (h : 2 ≤ s.length) :
    parseAbs s = segments (s.length + 1) s 0 := by
  rw [parseAbs, if_neg, if_neg]
  · rintro rfl
    simp at h
  · rintro rfl
    simp at h

theorem parseAbs_renderAbs {u : Nat} (hmax : u ≤ 2 ^ 63) : parseAbs (renderAbs u) = some u := by
  have hone : ∀ {prec : Nat} {unit : Bytes}, prec ≤ 18 → unitMap unit = some (10 ^ prec) →
      unit ≠ [] ∧ unit.all isUnit = true → parseAbs (renderIn prec u unit) = some u := by
    intro prec unit hprec hunit hu
    have h := segment_renderIn [] hprec hunit hu hmax (by rintro c s ⟨⟩)
    rw [List.append_nil] at h
    rw [parseAbs_of_length (renderIn_length prec u unit hu.1),
      segments_step h (by omega), segments_nil,
      Nat.zero_add]
  unfold renderAbs
  split_ifs with h0 h1 h2 h3
  · subst h0
    decide
  · exact hone (by decide) rfl (by decide)
  · exact hone (by decide) rfl (by decide)
  · exact hone (by decide) rfl (by decide)
  · have hlen : 2 ≤ (renderClock (u / 1000000000) ++
        renderIn 9 (u % 60000000000) unitSecond).length := by
      have := renderIn_length 9 (u % 60000000000) unitSecond (by decide)
      rw [List.length_append]
      omega
    obtain ⟨k, hk⟩ := Nat.exists_eq_add_of_le' hlen
    rw [parseAbs_of_length hlen, hk, segments_clock hmax]

theorem renderAbs_head (u : Nat) : ∃ c s, renderAbs u = c :: s ∧ isDigit c = true := by
  have hformat : ∀ n t, ∃ c s, formatNat n ++ t = c :: s ∧ isDigit c = true := by
    intro n t
    cases hf : formatNat n with
    | nil => exact absurd hf (formatNat_ne_nil n)
    | cons d ds => exact ⟨d, ds ++ t, rfl, formatNat_isDigit n d (by simp [hf])⟩
  have hclock : ∀ s t, ∃ c r, renderClock s ++ renderIn 9 t unitSecond = c :: r ∧
    isDigit c = true := by
    intro s t
    unfold renderClock
    split_ifs <;> simp only [List.append_assoc, List.nil_append] <;> exact hformat _ _
  unfold renderAbs
  split_ifs
  · exact ⟨48, [115], rfl, by decide⟩
  · exact hformat _ _
  · exact hformat _ _
  · exact hformat _ _
  · exact hclock _ _

theorem parse_format (d : Duration) : parse (format d) = some d := by
  have hlo := Int64.le_toInt d
  have hhi := Int64.toInt_lt d
  have habs := parseAbs_renderAbs (u := d.toInt.natAbs) (by omega)
  unfold format
  split_ifs with hneg
  · have hint : -(d.toInt.natAbs : Int) = d.toInt := by omega
    simp only [parse, habs, Option.bind_some, signed, if_true, hint, Int64.ofInt_toInt]
  · have hint : (d.toInt.natAbs : Int) = d.toInt := by omega
    obtain ⟨c, s, hs, hc⟩ := renderAbs_head d.toInt.natAbs
    have hparse : parse (renderAbs d.toInt.natAbs) =
        (parseAbs (renderAbs d.toInt.natAbs)).bind (signed false) := by
      rw [hs, parse]
      · rintro rest h
        obtain ⟨rfl, -⟩ := List.cons.inj h
        exact absurd hc (by decide)
      · rintro rest h
        obtain ⟨rfl, -⟩ := List.cons.inj h
        exact absurd hc (by decide)
    rw [hparse, habs, Option.bind_some, signed, if_neg (by decide), if_pos (by omega), hint,
      Int64.ofInt_toInt]

theorem validString_renderIn (prec u : Nat) {unit : Bytes} (hu : Utf8.validString unit = true) :
    Utf8.validString (renderIn prec u unit) = true := by
  refine Utf8.validString_append (validString_digits (formatNat_isDigit _))
    (Utf8.validString_append ?_ hu)
  unfold renderFraction
  split
  · rfl
  · rw [Utf8.validString_cons (by decide)]
    refine validString_digits fun b hb => pad_isDigit prec (u % 10 ^ prec) b ?_
    rw [stripZeros_append (pad prec (u % 10 ^ prec))]
    exact List.mem_append_left _ hb

theorem validString_renderAbs (u : Nat) : Utf8.validString (renderAbs u) = true := by
  have hclock : ∀ s, Utf8.validString (renderClock s) = true := by
    intro s
    have hpart : ∀ (c : Prop) [Decidable c] (n : Nat) (unit : Bytes), Utf8.validString unit = true →
        Utf8.validString (if c then formatNat n ++ unit else []) = true := by
      intro c _ n unit hu
      split
      · exact Utf8.validString_append (validString_digits (formatNat_isDigit n)) hu
      · rfl
    exact Utf8.validString_append (hpart _ _ _ (by decide)) (hpart _ _ _ (by decide))
  unfold renderAbs
  split_ifs
  · decide
  · exact validString_renderIn _ _ (by decide)
  · exact validString_renderIn _ _ (by decide)
  · exact validString_renderIn _ _ (by decide)
  · exact Utf8.validString_append (hclock _) (validString_renderIn _ _ (by decide))

theorem validString_format (d : Duration) : Utf8.validString (format d) = true := by
  unfold format
  split_ifs
  · rw [Utf8.validString_cons (by decide)]
    exact validString_renderAbs _
  · exact validString_renderAbs _

example : format 5400000000000 = lit "1h30m0s" := by decide +kernel

end Duration

namespace Time

/-- `Time.Add`. -/
def add (t : Time) (d : Duration) : Time := t + d.toInt

/-- `Time.Truncate`: down to a multiple of the duration since the zero time. -/
def truncate (t : Time) (d : Duration) : Time := if d ≤ 0 then t else t - t % d.toInt

/-- `Time.UnixNano`, which wraps around outside the years 1678 to 2262. -/
def unixNano (t : Time) : Int64 := Int64.ofInt (t - 62135596800000000000)

/-- `Time.Sub`, which stops at the smallest and the largest duration. -/
def sub (t u : Time) : Duration :=
  if t - u < -2 ^ 63 then Int64.minValue
  else if 2 ^ 63 ≤ t - u then Int64.maxValue
  else Int64.ofInt (t - u)

end Time
end Go
