import PulseAgent.Go.Ascii
import PulseAgent.Go.Float
import PulseAgent.Go.JsonSize
import PulseAgent.Go.JsonTable

/-!
# Bounds on what a codec writes

A limit on whole documents is a sum over the fields.
-/

namespace Go

/-! ## Numbers -/

theorem Decimal.formatNat_length_le {n w : Nat} (h : n < 10 ^ (w + 1)) :
    (formatNat n).length ≤ w + 1 := by
  rw [formatNat_length]
  exact Nat.succ_le_succ (Nat.lt_succ_iff.mp (Nat.log_lt_of_lt_pow' (Nat.succ_ne_zero w) h))

namespace Duration

theorem renderFraction_length_le {prec v : Nat} (hv : v < 10 ^ prec) :
    (renderFraction prec v).length ≤ prec + 1 := by
  unfold renderFraction
  split_ifs with h0
  · exact Nat.zero_le _
  · rw [List.length_cons]
    exact Nat.succ_le_succ (Decimal.stripZeros_pad hv h0).2.2.1

theorem renderIn_length_le {prec u w : Nat} {unit : Bytes} (h : u / 10 ^ prec < 10 ^ (w + 1)) :
    (renderIn prec u unit).length ≤ w + 1 + (prec + 1) + unit.length := by
  have hnumber := Decimal.formatNat_length_le h
  have hfraction := renderFraction_length_le (Nat.mod_lt u (by positivity : 0 < 10 ^ prec))
  rw [renderIn, List.length_append, List.length_append]
  omega

theorem renderClock_length_le {s : Nat} (h : s < 10 ^ 10) : (renderClock s).length ≤ 11 := by
  have hhours : (Decimal.formatNat (s / 3600)).length ≤ 6 + 1 :=
    Decimal.formatNat_length_le (by omega)
  have hminutes : (Decimal.formatNat (s / 60 % 60)).length ≤ 1 + 1 :=
    Decimal.formatNat_length_le (by omega)
  unfold renderClock
  split_ifs <;>
    simp only [List.length_append, List.length_nil, unitHour, unitMinute, List.length_cons] <;>
    omega

theorem renderAbs_length_le {u : Nat} (h : u < 10 ^ 19) : (renderAbs u).length ≤ 24 := by
  unfold renderAbs
  split_ifs with h0 hmicro hmilli hsecond
  · decide
  · have hle : (renderIn 0 u unitNano).length ≤ 2 + 1 + (0 + 1) + 2 :=
      renderIn_length_le (by omega)
    omega
  · have hle : (renderIn 3 u unitMicro).length ≤ 2 + 1 + (3 + 1) + 3 :=
      renderIn_length_le (by omega)
    omega
  · have hle : (renderIn 6 u unitMilli).length ≤ 2 + 1 + (6 + 1) + 2 :=
      renderIn_length_le (by omega)
    omega
  · have hclock := renderClock_length_le (s := u / 1000000000) (by omega)
    have hle : (renderIn 9 (u % 60000000000) unitSecond).length ≤ 1 + 1 + (9 + 1) + 1 :=
      renderIn_length_le (by omega)
    rw [List.length_append]
    omega

theorem format_length_le (d : Duration) : d.format.length ≤ 25 := by
  have hlow := Int64.le_toInt d
  have hhigh := Int64.toInt_lt d
  have habs := renderAbs_length_le (u := d.toInt.natAbs) (by omega)
  unfold format
  split_ifs
  · exact Nat.succ_le_succ habs
  · omega

end Duration

/-- A number of at most 17 digits and three of exponent, as the shortest text of a `float64` is. -/
structure Dec.Representable (x : Dec) : Prop where
  digits : x.mantissa < 10 ^ 17
  low : -400 < x.leading
  high : x.leading < 400

def Float64.Representable : Float64 → Prop
  | .finite x => x.Representable
  | _ => True

namespace Json

theorem Number.render_length_le {n : Number} {w f e : Nat} (hint : n.int < 10 ^ (w + 1))
    (hfrac : n.frac.length ≤ f) (hexp : (renderExp n.exp).length ≤ e) :
    n.render.length ≤ w + f + e + 3 := by
  have hnumber := Decimal.formatNat_length_le hint
  have hsign : (if n.neg then [45] else [] : Bytes).length ≤ 1 := by
    split_ifs <;> decide
  have hfraction : (renderFrac n.frac).length ≤ n.frac.length + 1 := by
    cases hds : n.frac with
    | nil => exact Nat.zero_le _
    | cons d ds => simp [renderFrac]
  rw [Number.render, List.length_append, List.length_append, List.length_append]
  omega

theorem renderExp_length_le {e : Int} (hlow : -1000 < e) (hhigh : e < 1000) :
    (renderExp (some e)).length ≤ 5 := by
  have hdigits : (Decimal.formatNat e.natAbs).length ≤ 2 + 1 :=
    Decimal.formatNat_length_le (by omega)
  rw [renderExp, List.length_cons, List.length_cons]
  omega

end Json

theorem Dec.toNumber_length_le {x : Dec} (h : x.Representable) : x.toNumber.render.length ≤ 41 := by
  have hlog : x.mantissa ≠ 0 → Nat.log 10 x.mantissa ≤ 16 := fun _ =>
    Nat.lt_succ_iff.mp (Nat.log_lt_of_lt_pow' (by decide) h.digits)
  have hlow := h.low
  have hhigh := h.high
  unfold toNumber
  split_ifs with h0 hexponent hinteger
  · exact le_trans (Json.Number.render_length_le (w := 0) (f := 0) (e := 0) (by decide : 0 < 10)
      (Nat.le_refl 0) (Nat.le_refl 0)) (by decide)
  · -- one digit before the point
    have hlead : x.mantissa / 10 ^ Nat.log 10 x.mantissa < 10 ^ (0 + 1) := by
      rw [Nat.div_lt_iff_lt_mul (by positivity), ← pow_add, Nat.add_comm]
      exact Nat.lt_pow_succ_log_self (by decide) _
    refine le_trans (Json.Number.render_length_le (w := 0) (f := 16) (e := 5) hlead ?_ ?_)
      (by decide)
    · rw [fracDigits_length]
      exact hlog h0
    · exact Json.renderExp_length_le (by omega) (by omega)
  · -- an integer below `1e21`
    have hvalue : x.mantissa * 10 ^ x.exp.toNat < 10 ^ (20 + 1) := by
      calc x.mantissa * 10 ^ x.exp.toNat
        _ < 10 ^ (Nat.log 10 x.mantissa + 1) * 10 ^ x.exp.toNat :=
          Nat.mul_lt_mul_of_pos_right (Nat.lt_pow_succ_log_self (by decide) _) (by positivity)
        _ = 10 ^ (Nat.log 10 x.mantissa + 1 + x.exp.toNat) := (pow_add ..).symm
        _ ≤ 10 ^ (20 + 1) := by
          refine Nat.pow_le_pow_right (by decide) ?_
          simp only [leading, not_or, not_lt] at hexponent
          omega
    exact le_trans (Json.Number.render_length_le (w := 20) (f := 0) (e := 0) hvalue
      (Nat.le_refl 0) (Nat.le_refl 0)) (by decide)
  · have hint : x.mantissa / 10 ^ (-x.exp).toNat < 10 ^ (16 + 1) :=
      lt_of_le_of_lt (Nat.div_le_self _ _) h.digits
    refine le_trans (Json.Number.render_length_le (w := 16) (f := 22) (e := 0) hint ?_
      (Nat.le_refl 0)) (by decide)
    have := hlog h0
    simp only [leading, not_or, not_lt] at hexponent
    rw [fracDigits_length]
    omega

namespace Json

/-! ## Texts -/

/-- Bytes a string literal holds as they are. -/
def plainByte (b : UInt8) : Bool :=
  32 ≤ b && b < 128 && b ≠ 34 && b ≠ 92 && b ≠ 60 && b ≠ 62 && b ≠ 38

theorem escapeAscii_plain {b : UInt8} (h : plainByte b = true) : escapeAscii b = [b] := by
  simp only [plainByte, Bool.and_eq_true, decide_eq_true_eq, ne_eq] at h
  obtain ⟨⟨⟨⟨⟨⟨hlow, -⟩, hquote⟩, hslash⟩, hless⟩, hgreater⟩, hand⟩ := h
  have hne {c : UInt8} (hc : c < 32) : b ≠ c := by
    rintro rfl
    exact absurd hlow (UInt8.not_le.mpr hc)
  have hshort : shortEscape b = none := by
    simp [shortEscape, hquote, hslash, hne (by decide : (8 : UInt8) < 32),
      hne (by decide : (12 : UInt8) < 32), hne (by decide : (10 : UInt8) < 32),
      hne (by decide : (13 : UInt8) < 32), hne (by decide : (9 : UInt8) < 32)]
  simp [escapeAscii, hshort, UInt8.not_lt.mpr hlow, hless, hgreater, hand]

theorem escape_plain {s : Bytes} (h : s.all plainByte = true) : escape s = s := by
  induction s with
  | nil => rfl
  | cons b s ih =>
    rw [List.all_cons, Bool.and_eq_true] at h
    have hb : b < 128 := by
      simp only [plainByte, Bool.and_eq_true, decide_eq_true_eq] at h
      exact h.1.1.1.1.1.1.2
    have hfollowing : Utf8.following b = some [] := by simp [Utf8.following, hb]
    have hwidth : Utf8.runeWidth (b :: s) = 0 + 1 := Utf8.runeWidth_of_passes hfollowing rfl
    have hpiece : escapePiece (.rune (b :: s.take 0)) = [b] := escapeAscii_plain h.1
    rw [escape_rune hwidth, hpiece, List.drop_zero, ih h.2, List.singleton_append]

theorem quote_plain_length {s : Bytes} (h : s.all plainByte = true) :
    (quote s).length = s.length + 2 := by
  rw [quote, escape_plain h, List.length_cons, List.length_append]
  rfl

/-! ## Codecs -/

namespace Codec

variable {α σ : Type}

/-- What the codec writes for the value takes at most `n` bytes. -/
def Within (c : Codec α) (n : Nat) (a : α) : Prop :=
  ∀ document, c.marshal a = some document → document.length ≤ n

theorem Within.mono {c : Codec α} {a : α} {m n : Nat} (h : c.Within m a) (hle : m ≤ n) :
    c.Within n a := fun document hdocument => le_trans (h document hdocument) hle

theorem within_plain {s : Bytes} {n : Nat} (hplain : s.all plainByte = true)
    (hlength : s.length + 2 ≤ n) : string.Within n s := by
  rintro _ ⟨⟩
  exact le_trans (le_of_eq (quote_plain_length hplain)) hlength

theorem within_string {s : Bytes} {n : Nat} (h : s.length ≤ n) : string.Within (6 * n + 2) s := by
  rintro _ ⟨⟩
  exact render_str_length_le h

theorem within_time (t : Time) : time.Within 182 t := by
  intro document hdocument
  obtain ⟨v, hv, rfl⟩ := Option.map_eq_some_iff.mp hdocument
  obtain ⟨text, htext, rfl⟩ := Option.map_eq_some_iff.mp hv
  exact render_str_length_le (Time.format_length_le htext)

theorem within_named {text : α → Bytes} {ofText : Bytes → α} {a : α} {n : Nat}
    (h : (text a).length ≤ n) : (named text ofText).Within (6 * n + 2) a := by
  rintro _ ⟨⟩
  exact render_str_length_le h

theorem within_int64 (x : Int64) : int64.Within 20 x := by
  rintro _ ⟨⟩
  exact Member.int64_render_length_le x

theorem within_uint64 (x : UInt64) : uint64.Within 22 x := by
  rintro _ ⟨⟩
  refine Number.render_length_le (w := 19) (f := 0) (e := 0) ?_ (Nat.le_refl 0) (Nat.le_refl 0)
  have := x.toNat_lt
  simp only [Number.ofInt]
  omega

theorem within_bool (b : Bool) : bool.Within 5 b := fun _ => bool_marshal_length_le b

theorem within_duration (d : Duration) : duration.Within 152 d := by
  rintro _ ⟨⟩
  exact render_str_length_le (Duration.format_length_le d)

theorem within_float64 {x : Float64} (h : x.Representable) : float64.Within 41 x := by
  intro document hdocument
  cases x with
  | finite x =>
    cases hdocument
    exact Dec.toNumber_length_le h
  | inf neg => cases hdocument
  | nan => cases hdocument

theorem size_le {τ : Type} {name : Bytes} {c : Codec τ} {get : σ → τ} {set : τ → σ → σ} {a : σ}
    {n : Nat} (h : c.Within n (get a)) :
    Member.size a (.of name c get set) ≤ (quote name).length + n + 2 := by
  rw [Member.size_of]
  exact Member.textSize_le name h

theorem sum_size_le {fields : List (Member σ)} {bounds : List Nat} {a : σ}
    (h : List.Forall₂ (fun f n => Member.size a f ≤ n) fields bounds) :
    (fields.map (Member.size a)).sum ≤ bounds.sum := by
  induction h with
  | nil => exact Nat.le_refl 0
  | cons hfirst _ ih =>
    rw [List.map_cons, List.sum_cons, List.sum_cons]
    exact Nat.add_le_add hfirst ih

theorem within_struct {fields : List (Member σ)} {zero : σ}
    {hnames : (fields.map Member.name).Nodup}
    {hvalid : ∀ f ∈ fields, Utf8.validString f.name = true}
    {hfresh : ∀ a, Member.Fresh a fields zero} {a : σ} {bounds : List Nat} {n : Nat}
    (h : List.Forall₂ (fun f n => Member.size a f ≤ n) fields bounds) (hsum : bounds.sum + 2 ≤ n) :
    (struct fields zero hnames hvalid hfresh).Within n a := fun _ hdocument =>
  le_trans (Member.marshal_struct_length hdocument).2
    (le_trans (Nat.add_le_add_right (sum_size_le h) 2) hsum)

theorem renderItems_length_le {c : Codec α} {n : Nat} : ∀ {as : List α} {vs : List Value},
    c.encodeItems as = some vs → (∀ a ∈ as, c.Within n a) →
      (renderItems vs).length ≤ as.length * (n + 1) + 1
  | [], _, h, _ => by
    cases h
    simp [renderItems]
  | a :: as, _, h, hwithin => by
    obtain ⟨v, hv, hrest⟩ := Option.bind_eq_some_iff.mp h
    obtain ⟨vs, hvs, hpure⟩ := Option.bind_eq_some_iff.mp hrest
    obtain rfl := Option.some.inj hpure
    obtain ⟨ha, has⟩ := List.forall_mem_cons.mp hwithin
    have hhead := ha (render v) (congrArg (Option.map render) hv)
    have htail := renderItems_length_le hvs has
    rw [renderItems, List.length_cons, List.length_append, List.length_cons, Nat.succ_mul]
    omega

theorem within_slice {c : Codec α} {n : Nat} {as : List α} (h : ∀ a ∈ as, c.Within n a) :
    c.slice.Within (as.length * (n + 1) + 2) (some as) := by
  intro document hdocument
  obtain ⟨v, hv, rfl⟩ := Option.map_eq_some_iff.mp hdocument
  obtain ⟨vs, hvs, rfl⟩ := Option.map_eq_some_iff.mp hv
  have hitems := renderItems_length_le hvs h
  cases vs with
  | nil =>
    simp only [render, List.length_cons, List.length_nil]
    omega
  | cons v vs =>
    simp only [render, renderItems, List.length_cons, List.length_append] at hitems ⊢
    omega

/-! ## From below -/

theorem size_le_marshal {fields : List (Member σ)} {zero : σ}
    {hnames : (fields.map Member.name).Nodup}
    {hvalid : ∀ f ∈ fields, Utf8.validString f.name = true}
    {hfresh : ∀ a, Member.Fresh a fields zero} {a : σ} {document : Bytes}
    (h : (struct fields zero hnames hvalid hfresh).marshal a = some document) {f : Member σ}
    (hf : f ∈ fields) : Member.size a f ≤ document.length := by
  have hsum := List.single_le_sum (fun _ _ => Nat.zero_le _) _
    (List.mem_map_of_mem (f := Member.size a) hf)
  have hlength := (Member.marshal_struct_length h).1
  omega

theorem renderItems_replicate_length (v : Value) (n : Nat) :
    n * (render v).length ≤ (renderItems (List.replicate n v)).length := by
  induction n with
  | zero =>
    rw [Nat.zero_mul]
    exact Nat.zero_le _
  | succ n ih =>
    rw [List.replicate_succ, renderItems, List.length_cons, List.length_append, Nat.succ_mul]
    omega

theorem encodeItems_replicate {c : Codec α} {a : α} {v : Value}
    (h : c.encode a = some v) (n : Nat) :
    c.encodeItems (List.replicate n a) = some (List.replicate n v) := by
  induction n with
  | zero => rfl
  | succ n ih =>
    rw [List.replicate_succ, encodeItems, h, ih]
    rfl

theorem slice_replicate {c : Codec α} {a : α} {text : Bytes}
    (h : c.marshal a = some text) (n : Nat) :
    ∃ document, c.slice.marshal (some (List.replicate n a)) = some document ∧
      n * text.length ≤ document.length := by
  obtain ⟨v, hv, rfl⟩ := Option.map_eq_some_iff.mp h
  refine ⟨render (.arr (List.replicate n v)), ?_, ?_⟩
  · change ((c.encodeItems (List.replicate n a)).map Value.arr).map render = _
    rw [encodeItems_replicate hv]
    rfl
  · cases n with
    | zero =>
      rw [Nat.zero_mul]
      exact Nat.zero_le _
    | succ n =>
      have hitems := renderItems_replicate_length v n
      rw [List.replicate_succ, render, List.length_cons, List.length_append, Nat.succ_mul]
      omega

end Codec
end Json
end Go
