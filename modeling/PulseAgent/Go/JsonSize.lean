import PulseAgent.Go.JsonCodec

/-!
# Sizes of marshalled documents

A byte of a string takes at most six bytes of JSON text. The bounds only have to stay below the
limits of a decoder.
-/

namespace Go.Json

theorem escapePiece_length_le (p : Utf8.Piece) (h : p.clean ≠ []) :
    (escapePiece p).length ≤ 6 * p.clean.length := by
  match p with
  | .bad b => simp [escapePiece, unicodeEscape, Utf8.Piece.clean, Utf8.replacement]
  | .rune [] => exact absurd rfl h
  | .rune [b] =>
    simp only [escapePiece, escapeAscii, Utf8.Piece.clean, List.length_singleton]
    split
    · simp
    · split <;> simp [unicodeEscape]
  | .rune (b :: c :: rest) =>
    simp only [escapePiece, Utf8.Piece.clean, List.length_cons]
    split
    · simp only [unicodeEscape, List.length_cons, List.length_nil]
      omega
    · split
      · simp only [unicodeEscape, List.length_cons, List.length_nil]
        omega
      · simp only [List.length_cons]
        omega

theorem escape_bad {b : UInt8} {rest : Bytes} (h : Utf8.runeWidth (b :: rest) = 0) :
    escape (b :: rest) = escapePiece (.bad b) ++ escape rest := by
  simp [escape, Utf8.pieces_bad h]

theorem escape_rune {b : UInt8} {rest : Bytes} {w : Nat}
    (h : Utf8.runeWidth (b :: rest) = w + 1) :
    escape (b :: rest) = escapePiece (.rune (b :: rest.take w)) ++ escape (rest.drop w) := by
  simp [escape, Utf8.pieces_rune h]

theorem escape_length_le (s : Bytes) : (escape s).length ≤ 6 * s.length := by
  induction s using Utf8.pieces_induction with
  | nil => simp [escape]
  | bad b rest h ih =>
    rw [escape_bad h, List.length_append, List.length_cons]
    simp only [escapePiece, unicodeEscape, List.length_cons, List.length_nil]
    omega
  | rune b rest w h ih =>
    have hpiece := escapePiece_length_le (.rune (b :: rest.take w)) (by simp [Utf8.Piece.clean])
    have hw := Utf8.runeWidth_le_length (b :: rest)
    simp only [Utf8.Piece.clean, List.length_cons, List.length_take] at hpiece
    rw [List.length_drop] at ih
    rw [h, List.length_cons] at hw
    rw [escape_rune h, List.length_append, List.length_cons]
    omega

theorem quote_length_le (s : Bytes) : (quote s).length ≤ 6 * s.length + 2 := by
  have := escape_length_le s
  simp only [quote, List.length_cons, List.length_append, List.length_nil]
  omega

theorem render_str_length_le {s : Bytes} {n : Nat} (h : s.length ≤ n) :
    (render (.str s)).length ≤ 6 * n + 2 := by
  have := quote_length_le s
  simp only [render]
  omega

theorem renderMembers_length_le {bound : Nat} : ∀ {ms : List (Bytes × Value)},
    (∀ m ∈ ms, (quote m.1).length + (render m.2).length + 2 ≤ bound) →
    (renderMembers ms).length ≤ ms.length * bound + 1
  | [], _ => by simp [renderMembers]
  | (k, v) :: ms, h => by
    have hhead := h (k, v) (by simp)
    have hrest := renderMembers_length_le fun m hm => h m (List.mem_cons_of_mem _ hm)
    simp only [renderMembers, List.length_cons, List.length_append] at hhead ⊢
    rw [Nat.add_mul]
    omega

theorem render_obj_length_le {bound : Nat} {ms : List (Bytes × Value)}
    (h : ∀ m ∈ ms, (quote m.1).length + (render m.2).length + 2 ≤ bound) :
    (render (.obj ms)).length ≤ ms.length * bound + 2 := by
  cases ms with
  | nil => simp [render]
  | cons m ms =>
    obtain ⟨k, v⟩ := m
    have hhead := h (k, v) (by simp)
    have hrest := renderMembers_length_le fun m hm => h m (List.mem_cons_of_mem _ hm)
    simp only [render, List.length_cons, List.length_append] at hhead ⊢
    rw [Nat.add_mul]
    omega

theorem Member.mem_encodeMembers {σ : Type} {a : σ} : ∀ {fs : List (Member σ)}
    {ms : List (Bytes × Value)}, Member.encodeMembers a fs = some ms → ∀ m ∈ ms,
    ∃ f ∈ fs, m.1 = f.name ∧ f.encode a = some (some m.2)
  | [], ms, h, m, hm => by
    cases h
    cases hm
  | f :: fs, ms, h, m, hm => by
    obtain ⟨rest, hrest, ⟨_, rfl⟩ | ⟨v, hv, rfl⟩⟩ := Member.encodeMembers_cons h
    · obtain ⟨g, hg, heq⟩ := Member.mem_encodeMembers hrest m hm
      exact ⟨g, List.mem_cons_of_mem _ hg, heq⟩
    · rcases List.mem_cons.mp hm with rfl | hm
      · exact ⟨f, by simp, rfl, hv⟩
      · obtain ⟨g, hg, heq⟩ := Member.mem_encodeMembers hrest m hm
        exact ⟨g, List.mem_cons_of_mem _ hg, heq⟩

namespace Member

variable {σ τ : Type}

/-- What a member writes takes at most `bound` bytes, name and punctuation included. -/
def Small (bound : Nat) (a : σ) (f : Member σ) : Prop :=
  ∀ v, f.encode a = some (some v) → (quote f.name).length + (render v).length + 2 ≤ bound

theorem render_length_le {a : σ} {fields : List (Member σ)} {ms : List (Bytes × Value)}
    {bound : Nat} (h : encodeMembers a fields = some ms) (hsmall : ∀ f ∈ fields, f.Small bound a) :
    (render (.obj ms)).length ≤ fields.length * bound + 2 := by
  have hlength : ms.length ≤ fields.length := by
    simpa using (encodeMembers_names h).length_le
  have hms : (render (.obj ms)).length ≤ ms.length * bound + 2 := by
    refine render_obj_length_le fun m hm => ?_
    obtain ⟨f, hf, hname, hv⟩ := mem_encodeMembers h m hm
    rw [hname]
    exact hsmall f hf m.2 hv
  exact le_trans hms (Nat.add_le_add_right (Nat.mul_le_mul_right bound hlength) 2)

theorem small_of {name : Bytes} {c : Codec τ} {get : σ → τ} {set : τ → σ → σ} {a : σ}
    {bound s : Nat} (hvalue : ∀ v, c.encode (get a) = some v → (render v).length ≤ s)
    (hbound : (quote name).length + s + 2 ≤ bound) : (of name c get set).Small bound a := by
  intro v hv
  obtain ⟨w, hw, hwv⟩ := Option.map_eq_some_iff.mp hv
  obtain rfl := Option.some.inj hwv
  have := hvalue _ hw
  change (quote name).length + _ + 2 ≤ bound
  omega

theorem small_omitEmpty {name : Bytes} {c : Codec τ} {get : σ → τ} {set : τ → σ → σ}
    {isEmpty : τ → Bool} {h1 : ∀ x, isEmpty x = true → c.norm x = c.zero}
    {h2 : ∀ b, set (get b) b = b} {a : σ} {bound : Nat} (h : (of name c get set).Small bound a) :
    (omitEmpty name c get set isEmpty h1 h2).Small bound a := by
  intro v hv
  simp only [omitEmpty] at hv
  split at hv
  · cases hv
  · exact h v hv

theorem small_string {name : Bytes} {get : σ → Bytes} {set : Bytes → σ → σ} {a : σ}
    {bound n : Nat} (hvalue : (get a).length ≤ n)
    (hbound : (quote name).length + 6 * n + 4 ≤ bound) :
    (of name .string get set).Small bound a := by
  refine small_of (s := 6 * n + 2) ?_ (by omega)
  rintro v ⟨⟩
  exact render_str_length_le hvalue

theorem small_named {name : Bytes} {text : τ → Bytes} {ofText : Bytes → τ} {get : σ → τ}
    {set : τ → σ → σ} {a : σ} {bound n : Nat} (hvalue : (text (get a)).length ≤ n)
    (hbound : (quote name).length + 6 * n + 4 ≤ bound) :
    (of name (.named text ofText) get set).Small bound a := by
  refine small_of (s := 6 * n + 2) ?_ (by omega)
  rintro v ⟨⟩
  exact render_str_length_le hvalue

theorem int64_render_length_le (x : Int64) :
    (render (.num (Codec.Number.ofInt x.toInt))).length ≤ 1 + 19 := by
  have hlow := Int64.le_toInt x
  have hhigh := Int64.toInt_lt x
  have habs : x.toInt.natAbs < 10 ^ 19 := by omega
  have hdigits : (Decimal.formatNat x.toInt.natAbs).length ≤ 19 := by
    rw [Decimal.formatNat_length]
    exact Nat.log_lt_of_lt_pow' (by decide) habs
  have hsign : (if decide (x.toInt < 0) = true then [45] else [] : Bytes).length ≤ 1 := by
    by_cases hneg : x.toInt < 0
    · rw [if_pos (decide_eq_true hneg)]
      exact Nat.le_refl 1
    · rw [if_neg (by simpa using hneg)]
      exact Nat.zero_le 1
  simp only [render, Number.render, Codec.Number.ofInt, renderFrac, renderExp, List.append_nil,
    List.length_append]
  exact Nat.add_le_add hsign hdigits

theorem small_int64 {name : Bytes} {get : σ → Int64} {set : Int64 → σ → σ} {a : σ} {bound : Nat}
    (hbound : (quote name).length + 22 ≤ bound) : (of name .int64 get set).Small bound a := by
  refine small_of (s := 20) ?_ (by omega)
  rintro v ⟨⟩
  exact int64_render_length_le _

theorem small_time {name : Bytes} {get : σ → Time} {set : Time → σ → σ} {a : σ} {bound : Nat}
    (hbound : (quote name).length + 184 ≤ bound) : (of name .time get set).Small bound a := by
  refine small_of (s := 182) ?_ (by omega)
  intro v hv
  obtain ⟨s, hs, rfl⟩ := Option.map_eq_some_iff.mp hv
  exact render_str_length_le (Time.format_length_le hs)

/-- The bytes a member adds to a document, name and punctuation included. -/
def size (a : σ) (f : Member σ) : Nat :=
  match f.encode a with
  | some (some v) => (quote f.name).length + (render v).length + 2
  | _ => 0

theorem renderMembers_length {a : σ} : ∀ {fields : List (Member σ)} {ms : List (Bytes × Value)},
    encodeMembers a fields = some ms →
    (renderMembers ms).length = (fields.map (size a)).sum + 1
  | [], ms, h => by
    cases h
    rfl
  | f :: fields, ms, h => by
    obtain ⟨rest, hrest, ⟨hf, rfl⟩ | ⟨v, hf, rfl⟩⟩ := encodeMembers_cons h
    · have hsize : size a f = 0 := by simp only [size, hf]
      rw [renderMembers_length hrest, List.map_cons, List.sum_cons, hsize, Nat.zero_add]
    · have hsize : size a f = (quote f.name).length + (render v).length + 2 := by
        simp only [size, hf]
      rw [renderMembers, List.map_cons, List.sum_cons, hsize]
      simp only [List.length_cons, List.length_append, renderMembers_length hrest]
      omega

theorem marshal_struct_length_eq {fields : List (Member σ)} {zero : σ}
    {hnames : (fields.map Member.name).Nodup}
    {hvalid : ∀ f ∈ fields, Utf8.validString f.name = true}
    {hfresh : ∀ a, Fresh a fields zero} {a : σ} {document : Bytes}
    (h : (Codec.struct fields zero hnames hvalid hfresh).marshal a = some document) :
    document.length = max ((fields.map (size a)).sum + 1) 2 := by
  obtain ⟨v, hv, rfl⟩ := Option.map_eq_some_iff.mp h
  obtain ⟨ms, hms, rfl⟩ := Option.map_eq_some_iff.mp hv
  have hlength := renderMembers_length hms
  cases ms with
  | nil =>
    simp only [renderMembers, render, List.length_cons, List.length_nil] at hlength ⊢
    omega
  | cons m ms =>
    simp only [renderMembers, render, List.length_cons, List.length_append] at hlength ⊢
    omega

theorem marshal_struct_length {fields : List (Member σ)} {zero : σ}
    {hnames : (fields.map Member.name).Nodup}
    {hvalid : ∀ f ∈ fields, Utf8.validString f.name = true}
    {hfresh : ∀ a, Fresh a fields zero} {a : σ} {document : Bytes}
    (h : (Codec.struct fields zero hnames hvalid hfresh).marshal a = some document) :
    (fields.map (size a)).sum + 1 ≤ document.length ∧
      document.length ≤ (fields.map (size a)).sum + 2 := by
  have hlength := marshal_struct_length_eq h
  omega

def textSize (name : Bytes) : Option Bytes → Nat
  | some text => (quote name).length + text.length + 2
  | none => 0

theorem size_of (name : Bytes) (c : Codec τ) (get : σ → τ) (set : τ → σ → σ) (a : σ) :
    size a (of name c get set) = textSize name (c.marshal (get a)) := by
  cases h : c.encode (get a) with
  | none => simp only [size, of, Codec.marshal, h, Option.map_none, textSize]
  | some v => simp only [size, of, Codec.marshal, h, Option.map_some, textSize]

theorem size_le_of_small {a : σ} {f : Member σ} {bound : Nat} (h : f.Small bound a) :
    size a f ≤ bound := by
  unfold size
  split
  case h_1 v hv => exact h v hv
  case h_2 => exact Nat.zero_le bound

theorem writes_member {fields : List (Member σ)} {a : σ} {ms : List (Bytes × Value)}
    (h : encodeMembers a fields = some ms) {f : Member σ} (hf : f ∈ fields) : f.Writes a := by
  induction fields generalizing ms with
  | nil => cases hf
  | cons g fields ih =>
    obtain ⟨rest, hrest, hhead⟩ := encodeMembers_cons h
    rcases List.mem_cons.mp hf with rfl | hf
    · rcases hhead with ⟨hnone, -⟩ | ⟨v, hv, -⟩
      · exact ⟨none, hnone⟩
      · exact ⟨some v, hv⟩
    · exact ih hrest hf

theorem writes_of_member {name : Bytes} {c : Codec τ} {get : σ → τ} {set : τ → σ → σ} {a : σ}
    (h : (of name c get set).Writes a) : c.Writes (get a) := by
  obtain ⟨v, hv⟩ := h
  obtain ⟨w, hw, -⟩ := Option.map_eq_some_iff.mp hv
  exact ⟨w, hw⟩

theorem marshal_member {fields : List (Member σ)} {a : σ} {ms : List (Bytes × Value)}
    (h : encodeMembers a fields = some ms) {name : Bytes} {c : Codec τ} (get : σ → τ)
    {set : τ → σ → σ} (hf : of name c get set ∈ fields) : ∃ text, c.marshal (get a) = some text :=
  Codec.marshal_of_writes (writes_of_member (writes_member h hf))

theorem writes_of_struct {fields : List (Member σ)} {zero : σ}
    {hnames : (fields.map Member.name).Nodup}
    {hvalid : ∀ f ∈ fields, Utf8.validString f.name = true}
    {hfresh : ∀ a, Member.Fresh a fields zero} {a : σ}
    (h : (Codec.struct fields zero hnames hvalid hfresh).Writes a) : ∀ f ∈ fields, f.Writes a := by
  obtain ⟨v, hv⟩ := h
  obtain ⟨ms, hms, -⟩ := Option.map_eq_some_iff.mp hv
  exact fun f hf => writes_member hms hf

theorem textSize_le (name : Bytes) {text : Option Bytes} {n : Nat}
    (h : ∀ t, text = some t → t.length ≤ n) : textSize name text ≤ (quote name).length + n + 2 := by
  cases text with
  | none => exact Nat.zero_le _
  | some t =>
    have := h t rfl
    simp only [textSize]
    omega

end Member

namespace Codec

theorem string_marshal_length_le {s document : Bytes} {n : Nat} (hs : s.length ≤ n)
    (h : string.marshal s = some document) : document.length ≤ 6 * n + 2 := by
  cases h
  exact render_str_length_le hs

theorem slice_marshal_singleton {α : Type} {c : Codec α} {a : α} {document : Bytes}
    (h : c.marshal a = some document) :
    c.slice.marshal (some [a]) = some (91 :: (document ++ [93])) := by
  obtain ⟨v, hv, rfl⟩ := Option.map_eq_some_iff.mp h
  simp [marshal, slice, encodeItems, hv, render, renderItems]

theorem string_marshal_replicate (n : Nat) : ∃ document,
    string.marshal (List.replicate n 97) = some document ∧ document.length = n + 2 := by
  have hescape : (escape (List.replicate n 97)).length = n := by
    induction n with
    | zero => rfl
    | succ n ih =>
      have hwidth : Utf8.runeWidth (97 :: List.replicate n 97) = 0 + 1 := rfl
      rw [List.replicate_succ, escape_rune hwidth, List.length_append, List.drop_zero, ih]
      change 1 + n = n + 1
      omega
  refine ⟨_, rfl, ?_⟩
  simp only [render, quote, List.length_cons, List.length_append, List.length_nil, hescape]

theorem bool_marshal_length_le (b : Bool) {document : Bytes} (h : bool.marshal b = some document) :
    document.length ≤ 5 := by
  cases h
  cases b <;> decide +kernel

theorem time_marshal_length_le (t : Time) {document : Bytes}
    (h : time.marshal t = some document) : document.length ≤ 182 := by
  obtain ⟨v, hv, rfl⟩ := Option.map_eq_some_iff.mp h
  obtain ⟨s, hs, rfl⟩ := Option.map_eq_some_iff.mp hv
  exact render_str_length_le (Time.format_length_le hs)

end Codec
end Go.Json
