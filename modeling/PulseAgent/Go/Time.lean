import PulseAgent.Go.Text

/-!
# UTC instants and their RFC 3339 text

An instant counts nanoseconds from Go's zero time, the start of year 1. `format` exists for the
years 0 to 9999 only; `parse` also takes zone offsets, one-digit hours and a comma before the
fraction, as `time.Parse` does.
-/

namespace Go

/-- Nanoseconds since 0001-01-01T00:00:00Z; the zero value of `time.Time` is 0. -/
abbrev Time := Int

namespace Time

def isZero (t : Time) : Bool := t == 0

def unix (t : Time) : Int := t / 1000000000 - 62135596800

/-! ## Calendar -/

/-- Days before a year, counted from the start of year 0. -/
def yearStart (y : Nat) : Nat := 365 * y + (y + 3) / 4 - (y + 99) / 100 + (y + 399) / 400

def isLeap (y : Nat) : Bool := y % 4 == 0 && (y % 100 != 0 || y % 400 == 0)

def yearLength (y : Nat) : Nat := if isLeap y then 366 else 365

/-- The mean Gregorian year estimates the year up to one. -/
def yearOf (day : Nat) : Nat :=
  let y := 400 * day / 146097
  if day < yearStart y then y - 1 else if yearStart (y + 1) ≤ day then y + 1 else y

def monthLengths (y : Nat) : List Nat :=
  [31, if isLeap y then 29 else 28, 31, 30, 31, 30, 31, 31, 30, 31, 30, 31]

/-- The block of a partition that holds a position, and the position inside it. -/
def locate : List Nat → Nat → Nat × Nat
  | [], d => (0, d)
  | len :: rest, d =>
    if d < len then (0, d) else ((locate rest (d - len)).1 + 1, (locate rest (d - len)).2)

structure Civil where
  year : Nat
  month : Nat
  day : Nat
  hour : Nat
  minute : Nat
  second : Nat
  nano : Nat
deriving DecidableEq

/-- The civil time of a number of nanoseconds since the start of year 0. -/
def civil (n : Nat) : Civil :=
  let s := n / 1000000000
  let year := yearOf (s / 86400)
  let date := locate (monthLengths year) (s / 86400 - yearStart year)
  { year := year
    month := date.1 + 1
    day := date.2 + 1
    hour := s % 86400 / 3600
    minute := s % 3600 / 60
    second := s % 60
    nano := n % 1000000000 }

namespace Civil

def monthStart (c : Civil) : Nat := ((monthLengths c.year).take (c.month - 1)).sum

def nanos (c : Civil) : Nat :=
  ((yearStart c.year + c.monthStart + (c.day - 1)) * 86400 + c.hour * 3600 + c.minute * 60
    + c.second) * 1000000000 + c.nano

def valid (c : Civil) : Bool :=
  1 ≤ c.month && c.month ≤ 12 && 1 ≤ c.day && c.day ≤ (monthLengths c.year).getD (c.month - 1) 0 &&
    c.hour < 24 && c.minute < 60 && c.second < 60

end Civil

theorem yearStart_succ (y : Nat) : yearStart (y + 1) = yearStart y + yearLength y := by
  have h4 : (y + 1 + 3) / 4 = (y + 3) / 4 + if y % 4 = 0 then 1 else 0 := by split <;> omega
  have h100 : (y + 1 + 99) / 100 = (y + 99) / 100 + if y % 100 = 0 then 1 else 0 := by
    split <;> omega
  have h400 : (y + 1 + 399) / 400 = (y + 399) / 400 + if y % 400 = 0 then 1 else 0 := by
    split <;> omega
  have hle : (y + 99) / 100 ≤ 365 * y + (y + 3) / 4 := by omega
  have hd4 : y % 100 = 0 → y % 4 = 0 := by omega
  have hd100 : y % 400 = 0 → y % 100 = 0 := by omega
  unfold yearStart
  rw [h4, h100, h400]
  generalize (y + 3) / 4 = a at *
  generalize (y + 99) / 100 = b at *
  generalize (y + 399) / 400 = c at *
  simp only [yearLength, isLeap, Bool.and_eq_true, Bool.or_eq_true, bne_iff_ne, beq_iff_eq]
  split_ifs <;> grind

theorem yearStart_mono : StrictMono yearStart := by
  refine strictMono_nat_of_lt_succ fun y => ?_
  rw [yearStart_succ, yearLength]
  split <;> omega

theorem yearOf_spec (day : Nat) : yearStart (yearOf day) ≤ day ∧
    day < yearStart (yearOf day + 1) := by
  unfold yearOf
  have hy : 400 * day / 146097 * 146097 ≤ 400 * day ∧
      400 * day < (400 * day / 146097 + 1) * 146097 := by omega
  generalize 400 * day / 146097 = y at hy
  simp only
  split_ifs with h1 h2
  · cases y with
    | zero => simp [yearStart] at h1
    | succ y =>
      simp only [Nat.add_sub_cancel]
      unfold yearStart at *
      omega
  · unfold yearStart at *
    omega
  · omega

theorem yearOf_lt (day : Nat) (h : day < 3652425) : yearOf day < 10000 := by
  have hstart : yearStart (yearOf day) < yearStart 10000 :=
    lt_of_le_of_lt (yearOf_spec day).1 (lt_of_lt_of_eq h (by decide))
  exact yearStart_mono.lt_iff_lt.mp hstart

theorem monthLengths_sum (y : Nat) : (monthLengths y).sum = yearLength y := by
  unfold monthLengths yearLength
  cases isLeap y <;> rfl

theorem locate_spec : ∀ (lens : List Nat) (d : Nat), d < lens.sum →
    (locate lens d).1 < lens.length ∧ (lens.take (locate lens d).1).sum + (locate lens d).2 = d ∧
      (locate lens d).2 < lens.getD (locate lens d).1 0
  | [], d, h => by simp at h
  | len :: rest, d, h => by
    by_cases hd : d < len
    · simp [locate, hd]
    · have hrest : d - len < rest.sum := by
        simp only [List.sum_cons] at h
        omega
      obtain ⟨h1, h2, h3⟩ := locate_spec rest (d - len) hrest
      simp only [locate, hd, if_false, List.length_cons, List.take_succ_cons, List.sum_cons,
        List.getD_cons_succ]
      exact ⟨by omega, by omega, h3⟩

theorem civil_date (n : Nat) :
    let c := civil n
    1 ≤ c.month ∧ c.month ≤ 12 ∧ 1 ≤ c.day ∧ c.day ≤ (monthLengths c.year).getD (c.month - 1) 0 ∧
      yearStart c.year + c.monthStart + (c.day - 1) = n / 1000000000 / 86400 := by
  obtain ⟨hle, hlt⟩ := yearOf_spec (n / 1000000000 / 86400)
  rw [yearStart_succ, ← monthLengths_sum] at hlt
  obtain ⟨hm, hsum, hd⟩ := locate_spec (monthLengths (yearOf (n / 1000000000 / 86400)))
    (n / 1000000000 / 86400 - yearStart (yearOf (n / 1000000000 / 86400))) (by omega)
  have hlen : (monthLengths (yearOf (n / 1000000000 / 86400))).length = 12 := rfl
  simp only [civil, Civil.monthStart, Nat.add_sub_cancel]
  refine ⟨by omega, by omega, by omega, by omega, by omega⟩

theorem nanos_civil (n : Nat) : (civil n).nanos = n := by
  obtain ⟨_, _, _, _, hday⟩ := civil_date n
  have hclock : (civil n).hour * 3600 + (civil n).minute * 60 + (civil n).second =
      n / 1000000000 % 86400 := by
    simp only [civil]
    omega
  have hnano : (civil n).nano = n % 1000000000 := rfl
  rw [Civil.nanos, hday, hnano, Nat.add_assoc, Nat.add_assoc, ← Nat.add_assoc (_ * 3600), hclock,
    Nat.div_add_mod', Nat.div_add_mod']

theorem valid_civil (n : Nat) : (civil n).valid = true := by
  obtain ⟨h1, h2, h3, h4, _⟩ := civil_date n
  have hhour : (civil n).hour < 24 := by simp only [civil]; omega
  have hminute : (civil n).minute < 60 := by simp only [civil]; omega
  have hsecond : (civil n).second < 60 := by simp only [civil]; omega
  simp only [Civil.valid, Bool.and_eq_true, decide_eq_true_eq]
  exact ⟨⟨⟨⟨⟨⟨h1, h2⟩, h3⟩, h4⟩, hhour⟩, hminute⟩, hsecond⟩

/-! ## Text -/

def renderFraction (nano : Nat) : Bytes :=
  if nano = 0 then [] else 46 :: Decimal.stripZeros (Decimal.pad 9 nano)

/-- The layout of `time.RFC3339Nano` for UTC. -/
def Civil.render (c : Civil) : Bytes :=
  Decimal.pad 4 c.year ++ 45 :: (Decimal.pad 2 c.month ++ 45 :: (Decimal.pad 2 c.day ++
    84 :: (Decimal.pad 2 c.hour ++ 58 :: (Decimal.pad 2 c.minute ++ 58 :: (Decimal.pad 2 c.second ++
      (renderFraction c.nano ++ [90]))))))

/-- Go's zero time, counted from the start of year 0. -/
def yearZero : Int := 366 * 86400 * 1000000000

def tenThousandYears : Int := 3652425 * 86400 * 1000000000

/-- The text of an instant between the years 0 and 9999. -/
def format (t : Time) : Option Bytes :=
  if 0 ≤ t + yearZero ∧ t + yearZero < tenThousandYears then
    some (civil (t + yearZero).toNat).render
  else none

/-- Four hundred years, after which the calendar repeats. -/
def era : Int := 146097 * 86400 * 1000000000

/-- `Time.Format` with the layout `time.RFC3339Nano`, in UTC: outside the four-digit years the
calendar repeats every 400 years, and years get more digits or a sign. -/
def rfc3339Nano (t : Time) : Bytes :=
  match format t with
  | some s => s
  | none =>
    let c := civil ((t + yearZero) % era).toNat
    let year := (t + yearZero) / era * 400 + c.year
    let digits := if year.natAbs < 10000 then Decimal.pad 4 year.natAbs
      else Decimal.formatNat year.natAbs
    (if year < 0 then [45] else []) ++ digits ++ c.render.drop 4

def digits (w : Nat) (s : Bytes) : Option (Nat × Bytes) :=
  if w ≤ s.length ∧ (s.take w).all Decimal.isDigit = true then
    some (Decimal.value (s.take w), s.drop w)
  else none

def byte (b : UInt8) : Bytes → Option Bytes
  | [] => none
  | c :: s => if c = b then some s else none

/-- At most nine digits of a fraction count. -/
def fraction (s : Bytes) : Nat × Bytes :=
  match s with
  | [] => (0, s)
  | c :: rest =>
    let ds := rest.takeWhile Decimal.isDigit
    if (c = 46 ∨ c = 44) ∧ ds ≠ [] then
      (Decimal.value (ds.take 9) * 10 ^ (9 - ds.length), rest.drop ds.length)
    else (0, s)

def zone (s : Bytes) : Option Int :=
  match s with
  | [] => none
  | c :: rest =>
    if c = 90 then if rest = [] then some 0 else none
    else if c = 43 ∨ c = 45 then do
      let (h, rest) ← digits 2 rest
      let rest ← byte 58 rest
      let (m, rest) ← digits 2 rest
      if rest = [] ∧ h ≤ 24 ∧ m ≤ 60 then
        some (if c = 45 then -(h * 3600 + m * 60 : Nat) else (h * 3600 + m * 60 : Nat))
      else none
    else none

def hourDigits (s : Bytes) : Option (Nat × Bytes) := (digits 2 s).or (digits 1 s)

def parse (s : Bytes) : Option Time := do
  let year ← digits 4 s
  let s ← byte 45 year.2
  let month ← digits 2 s
  let s ← byte 45 month.2
  let day ← digits 2 s
  let s ← byte 84 day.2
  let hour ← hourDigits s
  let s ← byte 58 hour.2
  let minute ← digits 2 s
  let s ← byte 58 minute.2
  let second ← digits 2 s
  let offset ← zone (fraction second.2).2
  let c : Civil :=
    ⟨year.1, month.1, day.1, hour.1, minute.1, second.1, (fraction second.2).1⟩
  if c.valid then some (c.nanos - yearZero - offset * 1000000000) else none

theorem digits_pad {w n : Nat} (h : n < 10 ^ w) (t : Bytes) :
    digits w (Decimal.pad w n ++ t) = some (n, t) := by
  have htake : (Decimal.pad w n ++ t).take w = Decimal.pad w n := by
    rw [List.take_left' (Decimal.pad_length w n)]
  have hdrop : (Decimal.pad w n ++ t).drop w = t := by
    rw [List.drop_left' (Decimal.pad_length w n)]
  have hall : (Decimal.pad w n).all Decimal.isDigit = true :=
    List.all_eq_true.mpr (Decimal.pad_isDigit w n)
  unfold digits
  rw [htake, hdrop, if_pos ⟨by simp, hall⟩, Decimal.value_pad_of_lt h]

theorem digits_bind {β : Type} {w n : Nat} (h : n < 10 ^ w) (t : Bytes)
    (f : Nat × Bytes → Option β) : (digits w (Decimal.pad w n ++ t) >>= f) = f (n, t) := by
  rw [digits_pad h]
  rfl

theorem hourDigits_bind {β : Type} {n : Nat} (h : n < 10 ^ 2) (t : Bytes)
    (f : Nat × Bytes → Option β) : (hourDigits (Decimal.pad 2 n ++ t) >>= f) = f (n, t) := by
  rw [hourDigits, digits_pad h]
  rfl

theorem byte_bind {β : Type} (b : UInt8) (t : Bytes) (f : Bytes → Option β) :
    (byte b (b :: t) >>= f) = f t := by
  simp [byte]

theorem fraction_renderFraction {nano : Nat} (h : nano < 1000000000) :
    fraction (renderFraction nano ++ [90]) = (nano, [90]) := by
  unfold renderFraction
  by_cases h0 : nano = 0
  · subst h0
    decide
  · obtain ⟨hne, hdigits, hlen, hvalue⟩ := Decimal.stripZeros_pad (w := 9) h h0
    rw [if_neg h0]
    generalize Decimal.stripZeros (Decimal.pad 9 nano) = ds at *
    have htake : (ds ++ [90]).takeWhile Decimal.isDigit = ds := by
      rw [List.takeWhile_append_of_pos hdigits]
      simp [show Decimal.isDigit 90 = false from by decide]
    simp only [fraction, List.cons_append, htake]
    rw [if_pos ⟨.inl trivial, hne⟩, List.take_of_length_le hlen, hvalue]
    simp

theorem monthLengths_le (y m : Nat) : (monthLengths y).getD m 0 ≤ 31 := by
  have hall : ∀ leap : Bool, ∀ m < 12,
      [31, if leap then 29 else 28, 31, 30, 31, 30, 31, 31, 30, 31, 30, 31].getD m 0 ≤
        31 := by decide
  by_cases hm : m < 12
  · exact hall (isLeap y) m hm
  · rw [List.getD_eq_getElem?_getD, List.getElem?_eq_none (Nat.le_of_not_lt hm)]
    exact Nat.zero_le _

theorem parse_render {n : Nat} (hyear : (civil n).year < 10 ^ 4) :
    parse (civil n).render = some ((n : Int) - yearZero) := by
  obtain ⟨_, hm, _, hd, _⟩ := civil_date n
  have hday : (civil n).day < 10 ^ 2 := by
    have := monthLengths_le (civil n).year ((civil n).month - 1)
    omega
  have hhour : (civil n).hour < 10 ^ 2 := by simp only [civil]; omega
  have hminute : (civil n).minute < 10 ^ 2 := by simp only [civil]; omega
  have hsecond : (civil n).second < 10 ^ 2 := by simp only [civil]; omega
  have hnano : (civil n).nano < 1000000000 := by simp only [civil]; omega
  have hmonth : (civil n).month < 10 ^ 2 := by omega
  unfold parse Civil.render
  rw [digits_bind hyear, byte_bind, digits_bind hmonth, byte_bind, digits_bind hday, byte_bind,
    hourDigits_bind hhour, byte_bind, digits_bind hminute, byte_bind, digits_bind hsecond,
    fraction_renderFraction hnano]
  change (if (civil n).valid then
    some (((civil n).nanos : Int) - yearZero - 0 * 1000000000) else none) = _
  rw [if_pos (valid_civil n), nanos_civil, zero_mul, sub_zero]

theorem parse_format {t : Time} {s : Bytes} (h : format t = some s) : parse s = some t := by
  unfold format at h
  split at h
  case isFalse => cases h
  case isTrue hrange =>
    obtain rfl := Option.some.inj h
    have ht := Int.toNat_of_nonneg hrange.1
    have hyear : (civil (t + yearZero).toNat).year < 10 ^ 4 := by
      refine yearOf_lt _ ?_
      have hlt : ((t + yearZero).toNat : Int) < 3652425 * 86400 * 1000000000 := by
        rw [ht]
        exact hrange.2
      omega
    rw [parse_render hyear, ht, Int.add_sub_cancel]

def Civil.rest (c : Civil) : Bytes :=
  Decimal.pad 2 c.month ++ 45 :: (Decimal.pad 2 c.day ++
    84 :: (Decimal.pad 2 c.hour ++ 58 :: (Decimal.pad 2 c.minute ++ 58 :: (Decimal.pad 2 c.second ++
      (renderFraction c.nano ++ [90])))))

theorem Civil.render_eq (c : Civil) : c.render = Decimal.pad 4 c.year ++ 45 :: c.rest := rfl

theorem validString_rest (c : Civil) : Utf8.validString c.rest = true := by
  have hpad : ∀ w n, Utf8.validString (Decimal.pad w n) = true := fun w n =>
    Decimal.validString_digits (Decimal.pad_isDigit w n)
  have hfraction : Utf8.validString (renderFraction c.nano) = true := by
    unfold renderFraction
    split
    · rfl
    · rw [Utf8.validString_cons (by decide)]
      refine Decimal.validString_digits fun b hb => Decimal.pad_isDigit 9 c.nano b ?_
      rw [Decimal.stripZeros_append (Decimal.pad 9 c.nano)]
      exact List.mem_append_left _ hb
  unfold Civil.rest
  repeat'
    first
      | exact hpad _ _
      | exact hfraction
      | apply Utf8.validString_append
      | rw [Utf8.validString_cons (by decide)]
  rfl

theorem validString_format {t : Time} {s : Bytes} (h : format t = some s) :
    Utf8.validString s = true := by
  unfold format at h
  split at h
  case isFalse => cases h
  case isTrue =>
    obtain rfl := Option.some.inj h
    rw [Civil.render_eq]
    refine Utf8.validString_append (Decimal.validString_digits (Decimal.pad_isDigit 4 _)) ?_
    rw [Utf8.validString_cons (by decide)]
    exact validString_rest _

theorem format_length_le {t : Time} {s : Bytes} (h : format t = some s) : s.length ≤ 30 := by
  unfold format at h
  split at h
  case isFalse => cases h
  case isTrue =>
    obtain rfl := Option.some.inj h
    generalize civil (t + yearZero).toNat = c
    have hfraction : (renderFraction c.nano).length ≤ 10 := by
      unfold renderFraction
      split
      · simp
      · have hlen := congrArg List.length (Decimal.stripZeros_append (Decimal.pad 9 c.nano))
        simp only [Decimal.pad_length, List.length_append, List.length_replicate] at hlen
        rw [List.length_cons]
        omega
    simp only [Civil.render, List.length_append, List.length_cons, Decimal.pad_length,
      List.length_nil]
    omega

example : format 0 = some (lit "0001-01-01T00:00:00Z") := by decide +kernel

/-! ## Instants outside the four-digit years -/

def yearText (year : Int) : Bytes :=
  (if year < 0 then [45] else []) ++
    if year.natAbs < 10000 then Decimal.pad 4 year.natAbs else Decimal.formatNat year.natAbs

theorem yearDigits_isDigit (n : Nat) :
    ∀ b ∈ (if n < 10000 then Decimal.pad 4 n else Decimal.formatNat n),
      Decimal.isDigit b = true := by
  split
  · exact Decimal.pad_isDigit 4 n
  · exact Decimal.formatNat_isDigit n

theorem value_yearDigits (n : Nat) :
    Decimal.value (if n < 10000 then Decimal.pad 4 n else Decimal.formatNat n) = n := by
  split
  case isTrue h => exact Decimal.value_pad_of_lt h
  case isFalse => exact Decimal.value_formatNat n

def yearIn (x : Int) : Int := x / era * 400 + (civil (x % era).toNat).year

theorem rfc3339Nano_of_none {t : Time} (h : format t = none) {x : Int} (hx : x = t + yearZero) :
    rfc3339Nano t = yearText (yearIn x) ++ 45 :: (civil (x % era).toNat).rest := by
  have hdrop : ∀ c : Civil, c.render.drop 4 = 45 :: c.rest := fun c => by
    rw [Civil.render_eq, List.drop_left' (Decimal.pad_length 4 c.year)]
  unfold rfc3339Nano
  rw [h, hx]
  simp only [hdrop]
  rfl

theorem civil_year_lt (x : Int) : (civil (x % era).toNat).year < 400 := by
  have hlt := Int.emod_lt_of_pos x (by decide : (0 : Int) < era)
  have hday : (x % era).toNat / 1000000000 / 86400 < 146097 := by
    unfold era at hlt ⊢
    omega
  have hstart := lt_of_le_of_lt (yearOf_spec _).1
    (lt_of_lt_of_eq hday (by decide : 146097 = yearStart 400))
  exact yearStart_mono.lt_iff_lt.mp hstart

theorem yearIn_of_none {t : Time} (h : format t = none) {x : Int} (hx : x = t + yearZero) :
    yearIn x < 0 ∨ 10000 ≤ yearIn x := by
  have hrange : ¬(0 ≤ x ∧ x < tenThousandYears) := by
    intro hrange
    rw [hx] at hrange
    rw [format, if_pos hrange] at h
    cases h
  have hyear := civil_year_lt x
  have hfuture : tenThousandYears = 25 * era := by decide
  rw [hfuture] at hrange
  unfold yearIn
  generalize (civil (x % era).toNat).year = y at *
  unfold era at *
  omega

theorem parse_eq_none_of_none {t : Time} (h : format t = none) : parse (rfc3339Nano t) = none := by
  rw [rfc3339Nano_of_none h rfl]
  have houtside := yearIn_of_none h rfl
  generalize yearIn (t + yearZero) = year at houtside
  rcases houtside with hneg | hlarge
  · -- a sign is no digit
    have hdigits : ∀ s : Bytes, digits 4 (yearText year ++ s) = none := by
      intro s
      rw [yearText, if_pos hneg, digits, if_neg]
      rintro ⟨-, hall⟩
      exact absurd (List.all_eq_true.mp hall 45 List.mem_cons_self) (by decide)
    rw [parse, hdigits]
    rfl
  · have hlength : 5 ≤ (Decimal.formatNat year.natAbs).length := by
      rw [Decimal.formatNat_length]
      have : 4 ≤ Nat.log 10 year.natAbs := Nat.le_log_of_pow_le (by decide) (by omega)
      omega
    have hdigit := Decimal.formatNat_isDigit year.natAbs
    have htext : yearText year = Decimal.formatNat year.natAbs := by
      rw [yearText, if_neg (by omega), if_neg (by omega), List.nil_append]
    rw [htext]
    -- a fifth digit stands where the month should begin
    generalize Decimal.formatNat year.natAbs = ds at *
    match ds, hlength with
    | a :: b :: c :: d :: e :: ds, _ =>
      have he : e ≠ 45 := fun h45 => by
        have := hdigit e (by simp)
        rw [h45] at this
        cases this
      have hbyte : ∀ r : Bytes, byte 45 (e :: r) = none := fun r => if_neg he
      rw [parse, digits]
      split
      · exact congrArg (Option.bind · _) (hbyte _)
      · rfl

theorem validString_rfc3339Nano (t : Time) : Utf8.validString (rfc3339Nano t) = true := by
  cases h : format t with
  | some s =>
    rw [rfc3339Nano, h]
    exact validString_format h
  | none =>
    have hyear : ∀ year, Utf8.validString (yearText year) = true := fun year => by
      refine Utf8.validString_append ?_ (Decimal.validString_digits (yearDigits_isDigit _))
      split <;> decide +kernel
    rw [rfc3339Nano_of_none h rfl]
    refine Utf8.validString_append (hyear _) ?_
    rw [Utf8.validString_cons (by decide)]
    exact validString_rest _

theorem yearText_ne_minus {y z : Int} (hy : y < 0) (hz : 0 ≤ z) (r r' : Bytes) :
    yearText y ++ r ≠ yearText z ++ r' := by
  have hdigits := yearDigits_isDigit z.natAbs
  have hvalue := value_yearDigits z.natAbs
  have hnot : ¬z < 0 := by omega
  rw [yearText, yearText, if_pos hy, if_neg hnot, List.nil_append]
  intro h
  cases hds : (if z.natAbs < 10000 then Decimal.pad 4 z.natAbs else Decimal.formatNat z.natAbs) with
  | nil =>
    split at hds
    · cases congrArg List.length hds
    · exact Decimal.formatNat_ne_nil _ hds
  | cons b ds =>
    rw [hds] at h hdigits
    have hb := hdigits b (by simp)
    have h45 : (45 : UInt8) = b := by
      simp only [List.cons_append, List.nil_append, List.cons.injEq] at h
      exact h.1
    rw [← h45] at hb
    cases hb

theorem yearText_append_inj {y z : Int} {r r' : Bytes}
    (h : yearText y ++ 45 :: r = yearText z ++ 45 :: r') : y = z ∧ r = r' := by
  have hminus : ∀ n : Nat, (45 : UInt8) ∉
      (if n < 10000 then Decimal.pad 4 n else Decimal.formatNat n) := fun n hmem => by
    cases yearDigits_isDigit n 45 hmem
  have habs : ∀ {m n : Nat} {r r' : Bytes},
      (if m < 10000 then Decimal.pad 4 m else Decimal.formatNat m) ++ 45 :: r =
        (if n < 10000 then Decimal.pad 4 n else Decimal.formatNat n) ++ 45 :: r' →
          m = n ∧ r = r' := by
    intro m n r r' h
    obtain ⟨hds, hr⟩ := Strings.append_sep_inj (hminus m) (hminus n) h
    refine ⟨?_, hr⟩
    rw [← value_yearDigits m, hds, value_yearDigits]
  by_cases hy : y < 0
  · by_cases hz : z < 0
    · rw [yearText, yearText, if_pos hy, if_pos hz, List.append_assoc, List.append_assoc] at h
      obtain ⟨hn, hr⟩ := habs (List.append_cancel_left h)
      exact ⟨by omega, hr⟩
    · exact absurd h (yearText_ne_minus hy (by omega) _ _)
  · by_cases hz : z < 0
    · exact absurd h.symm (yearText_ne_minus hz (by omega) _ _)
    · rw [yearText, yearText, if_neg hy, if_neg hz, List.nil_append, List.nil_append] at h
      obtain ⟨hn, hr⟩ := habs h
      exact ⟨by omega, hr⟩

theorem eq_of_yearIn {x y : Int} (hyear : yearIn x = yearIn y)
    (hrest : (civil (x % era).toNat).rest = (civil (y % era).toNat).rest) : x = y := by
  have hx := civil_year_lt x
  have hy := civil_year_lt y
  unfold yearIn at hyear
  have hsame : (civil (x % era).toNat).year = (civil (y % era).toNat).year := by omega
  have hrender : (civil (x % era).toNat).render = (civil (y % era).toNat).render := by
    rw [Civil.render_eq, Civil.render_eq, hsame, hrest]
  have hparse := (parse_render (n := (x % era).toNat) (by omega)).symm.trans
    (hrender ▸ parse_render (n := (y % era).toNat) (by omega))
  have hmod : (((x % era).toNat : Int) - yearZero) = ((y % era).toNat : Int) - yearZero :=
    Option.some.inj hparse
  have hera : (0 : Int) < era := by decide
  have hxmod := Int.emod_nonneg x hera.ne'
  have hymod := Int.emod_nonneg y hera.ne'
  have hdiv : x / era = y / era := by omega
  have hrem : x % era = y % era := by omega
  rw [← Int.ediv_mul_add_emod x era, hdiv, hrem, Int.ediv_mul_add_emod]

/-- Distinct instants have distinct texts, in any year. -/
theorem rfc3339Nano_injective {t u : Time} (h : rfc3339Nano t = rfc3339Nano u) : t = u := by
  have hsome : ∀ {v : Time} {s : Bytes}, format v = some s → rfc3339Nano v = s := fun hv => by
    rw [rfc3339Nano, hv]
  cases ht : format t with
  | some s =>
    have hparse : parse (rfc3339Nano u) = some t := by
      rw [← h, hsome ht]
      exact parse_format ht
    cases hu : format u with
    | some s' =>
      rw [hsome hu, parse_format hu] at hparse
      exact (Option.some.inj hparse).symm
    | none =>
      rw [parse_eq_none_of_none hu] at hparse
      cases hparse
  | none =>
    cases hu : format u with
    | some s' =>
      have hparse := parse_format hu
      rw [← hsome hu, ← h, parse_eq_none_of_none ht] at hparse
      cases hparse
    | none =>
      rw [rfc3339Nano_of_none ht rfl, rfc3339Nano_of_none hu rfl] at h
      obtain ⟨hyear, hrest⟩ := yearText_append_inj h
      exact add_right_cancel (eq_of_yearIn hyear hrest)

end Time
end Go
