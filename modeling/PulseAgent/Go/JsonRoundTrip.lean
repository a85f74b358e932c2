import PulseAgent.Go.Json

/-!
# Reading back what was written

`parse_render` goes piece by piece through string literals, then by mutual recursion over the tree;
the length of the text is always enough fuel.
-/

namespace Go.Json

/-! ## Strings -/

theorem forall_of_passes {Q : UInt8 → Prop} {ps : List (UInt8 → Bool)}
    (hps : ∀ p ∈ ps, ∀ b, p b = true → Q b) {s : Bytes} (h : Utf8.passes ps s = true) :
    ∀ b ∈ s.take ps.length, Q b := by
  induction ps generalizing s with
  | nil => simp
  | cons p ps ih =>
    cases s with
    | nil => simp
    | cons c s =>
      simp only [Utf8.passes, Bool.and_eq_true] at h
      intro b hb
      rcases List.mem_cons.mp hb with rfl | hb
      · exact hps p List.mem_cons_self _ h.1
      · exact ih (fun q hq => hps q (List.mem_cons_of_mem p hq)) h.2 b hb

theorem cont_iff {b : UInt8} : Utf8.cont b = true ↔ (0x80 : UInt8) ≤ b ∧ b ≤ 0xBF := by
  simp only [Utf8.cont, Bool.and_eq_true, decide_eq_true_eq]

theorem second3_cont {b0 b : UInt8} (h : Utf8.second3 b0 b = true) : Utf8.cont b = true := by
  simp only [Utf8.second3] at h
  split_ifs at h
  · simp only [Bool.and_eq_true, decide_eq_true_eq] at h
    exact cont_iff.mpr ⟨UInt8.le_trans (by decide) h.1, h.2⟩
  · simp only [Bool.and_eq_true, decide_eq_true_eq] at h
    exact cont_iff.mpr ⟨h.1, UInt8.le_trans h.2 (by decide)⟩
  · exact h

theorem second4_cont {b0 b : UInt8} (h : Utf8.second4 b0 b = true) : Utf8.cont b = true := by
  simp only [Utf8.second4] at h
  split_ifs at h
  · simp only [Bool.and_eq_true, decide_eq_true_eq] at h
    exact cont_iff.mpr ⟨UInt8.le_trans (by decide) h.1, h.2⟩
  · simp only [Bool.and_eq_true, decide_eq_true_eq] at h
    exact cont_iff.mpr ⟨h.1, UInt8.le_trans h.2 (by decide)⟩
  · exact h

theorem following_cont {b : UInt8} {tests : List (UInt8 → Bool)}
    (h : Utf8.following b = some tests) : ∀ p ∈ tests, ∀ c, p c = true → Utf8.cont c = true := by
  simp only [Utf8.following] at h
  split_ifs at h <;> simp only [Option.some.injEq] at h <;> subst h <;>
    simp only [List.mem_cons, List.not_mem_nil, or_false, forall_eq_or_imp, forall_eq,
      false_imp_iff, implies_true]
  · exact fun _ h => h
  · exact ⟨fun _ => second3_cont, fun _ h => h⟩
  · exact ⟨fun _ => second4_cont, fun _ h => h, fun _ h => h⟩

/-- A rune is one ASCII byte, or a sequence of bytes none of which is ASCII. -/
theorem rune_ascii_or_high {b : UInt8} {rest : Bytes} {w : Nat}
    (h : Utf8.runeWidth (b :: rest) = w + 1) :
    (w = 0 ∧ b < 0x80) ∨ (w ≠ 0 ∧ ∀ c ∈ b :: rest.take w, (0x80 : UInt8) ≤ c) := by
  obtain ⟨tests, hf, hp, rfl⟩ := Utf8.runeWidth_succ h
  by_cases hb : b < 0x80
  · left
    simp only [Utf8.following, if_pos hb, Option.some.injEq] at hf
    exact ⟨by simp [← hf], hb⟩
  · right
    have hcont := forall_of_passes (following_cont hf) hp
    refine ⟨?_, ?_⟩
    · intro hz
      have ht : tests = [] := List.length_eq_zero_iff.mp hz
      subst ht
      simp only [Utf8.following, if_neg hb] at hf
      split_ifs at hf <;> simp at hf
    · intro c hc
      rcases List.mem_cons.mp hc with rfl | hc
      · exact UInt8.not_lt.mp hb
      · exact (cont_iff.mp (hcont c hc)).1

@[simp] theorem pushBytes_nil (p : Bytes × Bytes) : pushBytes [] p = p := rfl

theorem map_pushBytes_append (s t : Bytes) (o : Option (Bytes × Bytes)) :
    (o.map (pushBytes t)).map (pushBytes s) = o.map (pushBytes (s ++ t)) := by
  cases o <;> simp [pushBytes]

theorem expand_quote (t : Bytes) : expand none (34 :: t) = some ([], t) := by
  rw [expand.eq_def]
  rfl

theorem expand_plain {b : UInt8} (hq : b ≠ 34) (hs : b ≠ 92) (hc : ¬b < 32) (t : Bytes) :
    expand none (b :: t) = (expand none t).map (pushBytes [b]) := by
  rw [expand.eq_def]
  simp only [hq, hs, hc, if_false, flush, List.nil_append]

theorem high_ne {b : UInt8} (h : (0x80 : UInt8) ≤ b) : b ≠ 34 ∧ b ≠ 92 ∧ ¬b < 32 := by
  rw [UInt8.le_iff_toNat_le] at h
  have h' : 128 ≤ b.toNat := h
  refine ⟨?_, ?_, ?_⟩
  · rintro rfl
    simp at h'
  · rintro rfl
    simp at h'
  · rw [UInt8.lt_iff_toNat_lt]
    have : (32 : UInt8).toNat = 32 := rfl
    omega

theorem expand_high_append {s : Bytes} (h : ∀ b ∈ s, (0x80 : UInt8) ≤ b) (t : Bytes) :
    expand none (s ++ t) = (expand none t).map (pushBytes s) := by
  induction s with
  | nil => cases h : expand none t <;> simp [h]
  | cons b s ih =>
    obtain ⟨hq, hs, hc⟩ := high_ne (h b List.mem_cons_self)
    rw [List.cons_append, expand_plain hq hs hc, ih fun c hc => h c (List.mem_cons_of_mem b hc),
      map_pushBytes_append]
    rfl

theorem hexVal_digit : ∀ n, n < 16 → hexVal (Hex.digit n) = some n := by decide

theorem expand_unicodeEscape {n : Nat} (hn : n < 65536) (hs : isSurrogate n = false) (t : Bytes) :
    expand none (unicodeEscape n ++ t) = (expand none t).map (pushBytes (encodeRune n)) := by
  have h4 : hex4 (Hex.digit (n / 4096 % 16)) (Hex.digit (n / 256 % 16)) (Hex.digit (n / 16 % 16))
      (Hex.digit (n % 16)) = some n := by
    simp only [hex4, hexVal_digit _ (Nat.mod_lt _ (by decide : 0 < 16)), Option.some.injEq]
    omega
  have hsur : ¬(55296 ≤ n ∧ n < 56320) := by
    simp only [isSurrogate, Bool.and_eq_false_iff, decide_eq_false_iff_not] at hs
    omega
  rw [unicodeEscape, List.cons_append, List.cons_append, expand.eq_def]
  simp [h4, hs, hsur, flush]

theorem encodeRune_ascii : ∀ n, n < 128 → encodeRune n = [UInt8.ofNat n] := by decide

theorem unescape_shortEscape {b e : UInt8} (h : shortEscape b = some e) :
    e ≠ 117 ∧ unescape e = some b := by
  simp only [shortEscape] at h
  split_ifs at h with h1 h2 h3 h4 h5 h6 h7 <;> simp only [Option.some.injEq] at h <;> subst h <;>
    subst_vars <;> decide

theorem expand_escapeAscii {b : UInt8} (hb : b < 0x80) (t : Bytes) :
    expand none (escapeAscii b ++ t) = (expand none t).map (pushBytes [b]) := by
  have hlt : b.toNat < 128 := UInt8.lt_iff_toNat_lt.mp hb
  unfold escapeAscii
  cases he : shortEscape b with
  | some e =>
    obtain ⟨hu, hb'⟩ := unescape_shortEscape he
    simp only [List.cons_append, List.nil_append]
    rw [expand.eq_def]
    simp [hu, hb', flush]
  | none =>
    have hq : b ≠ 34 := by rintro rfl; exact absurd he (by decide)
    have hs : b ≠ 92 := by rintro rfl; exact absurd he (by decide)
    dsimp only
    split
    · rw [expand_unicodeEscape (by omega) (by simp [isSurrogate]; omega), encodeRune_ascii _ hlt,
        UInt8.ofNat_toNat]
    · rename_i hc
      simp only [Bool.or_eq_true, decide_eq_true_eq, not_or] at hc
      exact expand_plain hq hs hc.1.1.1 t

theorem escapePiece_high {b : UInt8} {rest : Bytes} {w : Nat}
    (h : Utf8.runeWidth (b :: rest) = w + 1) (hw : w ≠ 0) :
    escapePiece (.rune (b :: rest.take w)) =
      if b :: rest.take w = [0xE2, 0x80, 0xA8] then unicodeEscape 0x2028
      else if b :: rest.take w = [0xE2, 0x80, 0xA9] then unicodeEscape 0x2029
      else b :: rest.take w := by
  have hne : rest.take w ≠ [] := by
    have hlen := Utf8.runeWidth_le_length (b :: rest)
    rw [h, List.length_cons] at hlen
    intro hz
    have := congrArg List.length hz
    rw [List.length_take, List.length_nil] at this
    omega
  cases hr : rest.take w with
  | nil => exact absurd hr hne
  | cons c cs => rfl

theorem expand_escapePiece_rune {b : UInt8} {rest : Bytes} {w : Nat}
    (h : Utf8.runeWidth (b :: rest) = w + 1) (t : Bytes) :
    expand none (escapePiece (.rune (b :: rest.take w)) ++ t) =
      (expand none t).map (pushBytes (b :: rest.take w)) := by
  rcases rune_ascii_or_high h with ⟨rfl, hb⟩ | ⟨hw, hhigh⟩
  · simpa [escapePiece] using expand_escapeAscii hb t
  · rw [escapePiece_high h hw]
    split_ifs with h1 h2
    · rw [h1, expand_unicodeEscape (by decide) (by decide)]
      rfl
    · rw [h2, expand_unicodeEscape (by decide) (by decide)]
      rfl
    · exact expand_high_append hhigh t

theorem expand_escape (s t : Bytes) :
    expand none (escape s ++ 34 :: t) = some (Utf8.toValidUTF8 s, t) := by
  induction s using Utf8.pieces_induction with
  | nil => simpa [escape, Utf8.toValidUTF8] using expand_quote t
  | bad b rest h ih =>
    have hesc : escape (b :: rest) = unicodeEscape 0xFFFD ++ escape rest := by
      simp [escape, Utf8.pieces_bad h, escapePiece]
    rw [hesc, List.append_assoc, expand_unicodeEscape (by decide) (by decide), ih,
      Utf8.toValidUTF8_bad h]
    rfl
  | rune b rest w h ih =>
    have hesc : escape (b :: rest) = escapePiece (.rune (b :: rest.take w)) ++
      escape (rest.drop w) := by
      simp [escape, Utf8.pieces_rune h]
    rw [hesc, List.append_assoc, expand_escapePiece_rune h, ih, Utf8.toValidUTF8_rune h]
    rfl

theorem parseString_escape (s t : Bytes) :
    parseString (escape s ++ 34 :: t) = some (Utf8.toValidUTF8 s, t) := by
  simp [parseString, expand_escape, Utf8.toValidUTF8_idem]

/-! ## Numbers -/

/-- The text after a value cannot be mistaken for more of a number. -/
def NumberEnds (t : Bytes) : Prop :=
  ∀ b rest, t = b :: rest → Decimal.isDigit b = false ∧ b ≠ 46 ∧ b ≠ 101 ∧ b ≠ 69

theorem numberEnds_nil : NumberEnds [] := by
  intro b rest h
  cases h

theorem numberEnds_cons {b : UInt8} (h : b = 44 ∨ b = 93 ∨ b = 125) (t : Bytes) :
    NumberEnds (b :: t) := by
  intro c rest hc
  cases hc
  rcases h with rfl | rfl | rfl <;> decide

theorem takeWhile_digits {s t : Bytes} (hs : ∀ b ∈ s, Decimal.isDigit b = true)
    (ht : ∀ b rest, t = b :: rest → Decimal.isDigit b = false) :
    (s ++ t).takeWhile Decimal.isDigit = s ∧ (s ++ t).dropWhile Decimal.isDigit = t := by
  induction s with
  | nil =>
    cases t with
    | nil => simp
    | cons b rest => simp [ht b rest rfl]
  | cons b s ih =>
    have hb := hs b List.mem_cons_self
    have := ih fun c hc => hs c (List.mem_cons_of_mem b hc)
    simp [hb, this.1, this.2]

theorem parseInteger_formatNat (n : Nat) {t : Bytes}
    (ht : ∀ b rest, t = b :: rest → Decimal.isDigit b = false) :
    parseInteger (Decimal.formatNat n ++ t) = some (n, t) := by
  by_cases hn : n = 0
  · subst hn
    rfl
  · obtain ⟨d, rest, hf, hpos, hlt, hall⟩ := Decimal.formatNat_head n hn
    have hd : Decimal.isDigit (Decimal.digit d) = true := Decimal.isDigit_digit d hlt
    have hz : Decimal.digit d ≠ 48 := by
      intro h
      have := Decimal.digitVal_digit d hlt
      rw [h] at this
      simp [Decimal.digitVal] at this
      omega
    have hspan := takeWhile_digits (List.all_eq_true.mp hall) ht
    rw [hf, List.cons_append]
    simp only [parseInteger, hz, hd, hspan.1, hspan.2, if_true, if_false]
    rw [← hf, Decimal.value_formatNat]

theorem toDigit_digit : ∀ d : Fin 10, toDigit (Decimal.digit d.val) = d := by decide

theorem parseFrac_renderFrac (ds : List (Fin 10)) {t : Bytes}
    (ht : ∀ b rest, t = b :: rest → Decimal.isDigit b = false ∧ b ≠ 46) :
    parseFrac (renderFrac ds ++ t) = some (ds, t) := by
  cases ds with
  | nil =>
    cases t with
    | nil => rfl
    | cons b rest => simp [renderFrac, parseFrac, (ht b rest rfl).2]
  | cons d ds =>
    have hdigits : ∀ b ∈ (d :: ds).map (fun d => Decimal.digit d.val),
      Decimal.isDigit b = true := by
      intro b hb
      obtain ⟨c, _, rfl⟩ := List.mem_map.mp hb
      exact Decimal.isDigit_digit c.val c.isLt
    have hspan := takeWhile_digits hdigits (fun b rest h => (ht b rest h).1)
    have hback : ((d :: ds).map fun d => Decimal.digit d.val).map toDigit = d :: ds := by
      rw [List.map_map]
      exact (List.map_congr_left fun c _ => toDigit_digit c).trans (List.map_id _)
    simp only [renderFrac, List.cons_append, parseFrac, if_true]
    rw [hspan.1, hspan.2]
    exact congrArg (fun l => some (l, t)) hback

theorem parseExpDigits_formatNat (neg : Bool) (n : Nat) {t : Bytes}
    (ht : ∀ b rest, t = b :: rest → Decimal.isDigit b = false) :
    parseExpDigits neg (Decimal.formatNat n ++ t) =
      some (some (if neg then -Int.ofNat n else Int.ofNat n), t) := by
  have hspan := takeWhile_digits (Decimal.formatNat_isDigit n) ht
  have hne := Decimal.formatNat_ne_nil n
  unfold parseExpDigits
  rw [hspan.1, hspan.2]
  cases hf : Decimal.formatNat n with
  | nil => exact absurd hf hne
  | cons d rest => simp only [← hf, Decimal.value_formatNat]

theorem parseExp_renderExp (e : Option Int) {t : Bytes} (ht : NumberEnds t) :
    parseExp (renderExp e ++ t) = some (e, t) := by
  have hd : ∀ b rest, t = b :: rest → Decimal.isDigit b = false := fun b rest h => (ht b rest h).1
  cases e with
  | none =>
    cases t with
    | nil => rfl
    | cons b rest =>
      have := ht b rest rfl
      simp [renderExp, parseExp, this.2.2.1, this.2.2.2]
  | some e =>
    by_cases he : e < 0
    · have hval : -Int.ofNat e.natAbs = e := by simp only [Int.ofNat_eq_natCast]; omega
      have := parseExpDigits_formatNat true e.natAbs hd
      simp only [if_true, hval] at this
      simpa [renderExp, parseExp, he] using this
    · have hval : Int.ofNat e.natAbs = e := by simp only [Int.ofNat_eq_natCast]; omega
      have := parseExpDigits_formatNat false e.natAbs hd
      simp only [Bool.false_eq_true, if_false, hval] at this
      simpa [renderExp, parseExp, he] using this

theorem renderExp_head (e : Option Int) {t : Bytes} (ht : NumberEnds t) :
    ∀ b rest, renderExp e ++ t = b :: rest → Decimal.isDigit b = false ∧ b ≠ 46 := by
  intro b rest h
  cases e with
  | none => exact ⟨(ht b rest h).1, (ht b rest h).2.1⟩
  | some e =>
    simp only [renderExp, List.cons_append, List.cons.injEq] at h
    rw [← h.1]
    decide

theorem renderFrac_head (ds : List (Fin 10)) {t : Bytes}
    (ht : ∀ b rest, t = b :: rest → Decimal.isDigit b = false) :
    ∀ b rest, renderFrac ds ++ t = b :: rest → Decimal.isDigit b = false := by
  intro b rest h
  cases ds with
  | nil => exact ht b rest h
  | cons d ds =>
    simp only [renderFrac, List.cons_append, List.cons.injEq] at h
    rw [← h.1]
    decide

theorem parseUnsigned_render (n : Number) {t : Bytes} (ht : NumberEnds t) :
    parseUnsigned n.neg
      (Decimal.formatNat n.int ++ (renderFrac n.frac ++ (renderExp n.exp ++ t))) = some (n, t) := by
  have hexp := renderExp_head n.exp ht
  have hfrac := renderFrac_head n.frac (t := renderExp n.exp ++ t) fun b rest h => (hexp b rest h).1
  simp only [parseUnsigned, parseInteger_formatNat n.int hfrac, parseFrac_renderFrac n.frac hexp,
    parseExp_renderExp n.exp ht, Option.bind_eq_bind, Option.bind_some, Option.pure_def]

theorem formatNat_cons (n : Nat) :
    ∃ b rest, Decimal.formatNat n = b :: rest ∧ Decimal.isDigit b = true := by
  cases hf : Decimal.formatNat n with
  | nil => exact absurd hf (Decimal.formatNat_ne_nil n)
  | cons b rest => exact ⟨b, rest, rfl, Decimal.formatNat_isDigit n b (by simp [hf])⟩

theorem digit_ne {b : UInt8} (h : Decimal.isDigit b = true) :
    b ≠ 34 ∧ b ≠ 91 ∧ b ≠ 123 ∧ b ≠ 110 ∧ b ≠ 116 ∧ b ≠ 102 ∧ b ≠ 45 ∧ b ≠ 93 ∧ b ≠ 125 ∧
      isSpace b = false := by
  have hall : ∀ n : Fin 256, Decimal.isDigit (UInt8.ofNat n.val) = true →
      UInt8.ofNat n.val ≠ 34 ∧ UInt8.ofNat n.val ≠ 91 ∧ UInt8.ofNat n.val ≠ 123 ∧
      UInt8.ofNat n.val ≠ 110 ∧ UInt8.ofNat n.val ≠ 116 ∧ UInt8.ofNat n.val ≠ 102 ∧
      UInt8.ofNat n.val ≠ 45 ∧ UInt8.ofNat n.val ≠ 93 ∧ UInt8.ofNat n.val ≠ 125 ∧
      isSpace (UInt8.ofNat n.val) = false := by decide +kernel
  have := hall ⟨b.toNat, b.toNat_lt⟩
  simp only [UInt8.ofNat_toNat] at this
  exact this h

theorem parseNumber_render (n : Number) {t : Bytes} (ht : NumberEnds t) :
    parseNumber (n.render ++ t) = some (n, t) := by
  have h := parseUnsigned_render n ht
  unfold Number.render
  cases hneg : n.neg with
  | true =>
    rw [hneg] at h
    simpa [parseNumber, List.append_assoc] using h
  | false =>
    obtain ⟨b, rest, hf, hb⟩ := formatNat_cons n.int
    rw [hneg, hf] at h
    simpa [parseNumber, hf, List.append_assoc, (digit_ne hb).2.2.2.2.2.2.1] using h

/-! ## Trees -/

theorem skipSpace_cons {b : UInt8} (h : isSpace b = false) (t : Bytes) :
    skipSpace (b :: t) = b :: t := by
  simp [skipSpace, h]

theorem quote_append (s t : Bytes) : quote s ++ t = 34 :: (escape s ++ 34 :: t) := by
  simp [quote]

theorem render_head (v : Value) :
    ∃ b rest, render v = b :: rest ∧ isSpace b = false ∧ b ≠ 93 ∧ b ≠ 125 := by
  match v with
  | .null => exact ⟨110, lit "ull", by decide, by decide⟩
  | .bool true => exact ⟨116, lit "rue", by decide, by decide⟩
  | .bool false => exact ⟨102, lit "alse", by decide, by decide⟩
  | .str s => exact ⟨34, escape s ++ [34], by simp only [render, quote], by decide⟩
  | .arr [] => exact ⟨91, [93], by simp only [render], by decide⟩
  | .arr (v :: vs) => exact ⟨91, render v ++ renderItems vs, by simp only [render], by decide⟩
  | .obj [] => exact ⟨123, [125], by simp only [render], by decide⟩
  | .obj ((k, v) :: ms) =>
    exact ⟨123, quote k ++ 58 :: (render v ++ renderMembers ms), by simp only [render], by decide⟩
  | .num n =>
    simp only [render, Number.render]
    cases n.neg with
    | true => exact ⟨45, _, rfl, by decide⟩
    | false =>
      obtain ⟨b, rest, hf, hb⟩ := formatNat_cons n.int
      obtain ⟨_, _, _, _, _, _, _, h1, h2, h3⟩ := digit_ne hb
      refine ⟨b, rest ++ (renderFrac n.frac ++ renderExp n.exp), ?_, h3, h1, h2⟩
      simp [hf]

theorem renderItems_numberEnds (vs : List Value) (t : Bytes) :
    NumberEnds (renderItems vs ++ t) := by
  cases vs with
  | nil => exact numberEnds_cons (.inr (.inl rfl)) t
  | cons v vs =>
    simp only [renderItems, List.cons_append]
    exact numberEnds_cons (.inl rfl) _

theorem renderMembers_numberEnds (ms : List (Bytes × Value)) (t : Bytes) :
    NumberEnds (renderMembers ms ++ t) := by
  cases ms with
  | nil => exact numberEnds_cons (.inr (.inr rfl)) t
  | cons m ms =>
    simp only [renderMembers, List.cons_append]
    exact numberEnds_cons (.inl rfl) _

theorem renderItems_length_pos (vs : List Value) : 0 < (renderItems vs).length := by
  cases vs <;> simp [renderItems]

theorem renderMembers_length_pos (ms : List (Bytes × Value)) : 0 < (renderMembers ms).length := by
  cases ms <;> simp [renderMembers]

theorem parseValue_num (n : Number) (fuel : Nat) {t : Bytes} (ht : NumberEnds t) :
    parseValue (fuel + 1) (n.render ++ t) = some (.num n, t) := by
  have h := parseNumber_render n ht
  have hhead : ∃ b rest, n.render = b :: rest ∧ (b = 45 ∨ Decimal.isDigit b = true) := by
    unfold Number.render
    cases n.neg with
    | true => exact ⟨45, _, rfl, .inl rfl⟩
    | false =>
      obtain ⟨b, rest, hf, hb⟩ := formatNat_cons n.int
      exact ⟨b, rest ++ (renderFrac n.frac ++ renderExp n.exp), by simp [hf], .inr hb⟩
  obtain ⟨b, rest, hr, hb⟩ := hhead
  rw [hr, List.cons_append] at h ⊢
  have hne : b ≠ 34 ∧ b ≠ 91 ∧ b ≠ 123 ∧ b ≠ 110 ∧ b ≠ 116 ∧ b ≠ 102 ∧ isSpace b = false := by
    rcases hb with rfl | hb
    · decide
    · obtain ⟨h1, h2, h3, h4, h5, h6, _, _, _, h7⟩ := digit_ne hb
      exact ⟨h1, h2, h3, h4, h5, h6, h7⟩
  obtain ⟨h1, h2, h3, h4, h5, h6, h7⟩ := hne
  simp only [parseValue, skipSpace_cons h7, h1, h2, h3, h4, h5, h6, if_false, h, Option.map_some]

mutual
theorem parseValue_render : ∀ (v : Value) (fuel : Nat) (t : Bytes),
    (render v).length ≤ fuel → NumberEnds t → parseValue fuel (render v ++ t) = some (v.clean, t)
  | v, 0, t, h, _ => by
    obtain ⟨b, rest, hr, _⟩ := render_head v
    simp [hr] at h
  | .null, fuel + 1, t, _, _ => by
    simp only [render, Value.clean]
    rfl
  | .bool true, fuel + 1, t, _, _ => by
    simp only [render, Value.clean]
    rfl
  | .bool false, fuel + 1, t, _, _ => by
    simp only [render, Value.clean]
    rfl
  | .num n, fuel + 1, t, _, ht => by
    simp only [render, Value.clean]
    exact parseValue_num n fuel ht
  | .str s, fuel + 1, t, _, _ => by
    simp only [render, Value.clean, quote_append, parseValue,
      skipSpace_cons (by decide : isSpace 34 = false), if_true, parseString_escape, Option.map_some]
  | .arr [], fuel + 1, t, _, _ => by
    simp only [render, Value.clean, cleanItems]
    rfl
  | .obj [], fuel + 1, t, _, _ => by
    simp only [render, Value.clean, cleanMembers]
    rfl
  | .arr (v :: vs), fuel + 1, t, h, _ => by
    simp only [render, List.length_cons, List.length_append] at h
    have hitems := parseItems_render v vs fuel t (by omega)
    obtain ⟨b, rest, hr, hsp, hb, _⟩ := render_head v
    rw [hr, List.cons_append] at hitems
    simp only [render, Value.clean, List.cons_append, List.append_assoc, parseValue,
      skipSpace_cons (by decide : isSpace 91 = false), hr, skipSpace_cons hsp, hb, if_false]
    rw [if_neg (by decide), if_pos trivial, hitems]
    rfl
  | .obj ((k, v) :: ms), fuel + 1, t, h, _ => by
    simp only [render, List.length_cons, List.length_append] at h
    have hmembers := parseMembers_render k v ms fuel t (by omega)
    rw [quote_append] at hmembers
    simp only [render, Value.clean, List.cons_append, List.append_assoc, quote_append, parseValue,
      skipSpace_cons (by decide : isSpace 123 = false),
        skipSpace_cons (by decide : isSpace 34 = false)]
    rw [if_neg (by decide), if_neg (by decide), if_pos trivial, if_neg (by decide), hmembers]
    rfl

theorem parseItems_render : ∀ (v : Value) (vs : List Value) (fuel : Nat) (t : Bytes),
    (render v).length + (renderItems vs).length ≤ fuel →
    parseItems fuel (render v ++ (renderItems vs ++ t)) = some (cleanItems (v :: vs), t)
  | v, vs, 0, t, h => by
    have := renderItems_length_pos vs
    omega
  | v, [], fuel + 1, t, h => by
    simp only [renderItems, List.length_cons, List.length_nil] at h
    have hv := parseValue_render v fuel (93 :: t) (by omega) (numberEnds_cons (.inr (.inl rfl)) t)
    simp only [renderItems, List.cons_append, List.nil_append, parseItems, hv,
      skipSpace_cons (by decide : isSpace 93 = false), if_true, cleanItems]
  | v, w :: vs, fuel + 1, t, h => by
    have hpos := renderItems_length_pos vs
    simp only [renderItems, List.length_cons, List.length_append] at h
    have hv := parseValue_render v fuel (renderItems (w :: vs) ++ t) (by omega)
      (renderItems_numberEnds (w :: vs) t)
    have hrest := parseItems_render w vs fuel t (by omega)
    simp only [renderItems, List.cons_append, List.append_assoc] at hv
    simp only [renderItems, List.cons_append, List.append_assoc, parseItems, hv,
      skipSpace_cons (by decide : isSpace 44 = false), cleanItems] at hrest ⊢
    rw [if_neg (by decide), if_pos trivial, hrest]
    rfl

theorem parseMembers_render : ∀ (k : Bytes) (v : Value) (ms : List (Bytes × Value)) (fuel : Nat)
    (t : Bytes), (quote k).length
      + (1 + ((render v).length + (renderMembers ms).length)) ≤ fuel + 1 →
    parseMembers fuel (quote k ++ 58 :: (render v ++ (renderMembers ms ++ t))) =
      some (cleanMembers ((k, v) :: ms), t)
  | k, v, ms, 0, t, h => by
    have := renderMembers_length_pos ms
    simp only [quote, List.length_cons, List.length_append] at h
    omega
  | k, v, [], fuel + 1, t, h => by
    simp only [quote, renderMembers, List.length_cons, List.length_append, List.length_nil] at h
    have hv := parseValue_render v fuel (125 :: t) (by omega) (numberEnds_cons (.inr (.inr rfl)) t)
    simp only [quote_append, renderMembers, List.cons_append, List.nil_append, parseMembers,
      skipSpace_cons (by decide : isSpace 34 = false), if_true, parseString_escape,
      skipSpace_cons (by decide : isSpace 58 = false), hv,
      skipSpace_cons (by decide : isSpace 125 = false), cleanMembers]
  | k, v, (k', v') :: ms, fuel + 1, t, h => by
    have hpos := renderMembers_length_pos ms
    simp only [renderMembers, quote, List.length_cons, List.length_append, List.length_nil] at h
    have hv := parseValue_render v fuel (renderMembers ((k', v') :: ms) ++ t) (by omega)
      (renderMembers_numberEnds ((k', v') :: ms) t)
    have hrest := parseMembers_render k' v' ms fuel t (by
      simp only [quote, List.length_cons, List.length_append, List.length_nil]
      omega)
    simp only [renderMembers, List.cons_append, List.append_assoc] at hv
    simp only [quote_append] at hrest hv
    simp only [quote_append, renderMembers, List.cons_append, List.append_assoc, parseMembers,
      skipSpace_cons (by decide : isSpace 34 = false), if_true, parseString_escape,
      skipSpace_cons (by decide : isSpace 58 = false), hv,
      skipSpace_cons (by decide : isSpace 44 = false), cleanMembers] at hrest ⊢
    rw [if_neg (by decide), hrest]
    rfl
end

theorem parse_render (v : Value) : parse (render v) = some v.clean := by
  have h := parseValue_render v ((render v).length + 1) [] (by omega) numberEnds_nil
  rw [List.append_nil] at h
  simp only [parse, h]
  rfl

end Go.Json
