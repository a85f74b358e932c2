import PulseAgent.Go.JsonCodec

/-!
# What a reader gets is clean

The strings of a parsed tree are valid UTF-8, so a value that was read is its own cleaned version.
-/

namespace Go.Json

/-! ## Parsed trees -/

theorem parseString_clean {s text rest : Bytes} (h : parseString s = some (text, rest)) :
    Utf8.toValidUTF8 text = text := by
  obtain ⟨p, -, hp⟩ := Option.map_eq_some_iff.mp h
  obtain ⟨rfl, -⟩ := Prod.mk.inj hp
  exact Utf8.toValidUTF8_idem p.1

theorem keyword_value {word s rest : Bytes} {v w : Value} (h : keyword word s v = some (w, rest)) :
    w = v := by
  unfold keyword at h
  split at h
  case isTrue =>
    cases h
    rfl
  case isFalse => cases h

/-- The parsers return clean trees, items and members. -/
structure ParsesClean (fuel : Nat) : Prop where
  value : ∀ s v rest, parseValue fuel s = some (v, rest) → v.clean = v
  items : ∀ s vs rest, parseItems fuel s = some (vs, rest) → cleanItems vs = vs
  members : ∀ s ms rest, parseMembers fuel s = some (ms, rest) → cleanMembers ms = ms

theorem ParsesClean.value_succ {fuel : Nat} (ih : ParsesClean fuel) (s : Bytes) (v : Value)
    (rest : Bytes) (h : parseValue (fuel + 1) s = some (v, rest)) : v.clean = v := by
  unfold parseValue at h
  split at h
  case h_1 => cases h
  case h_2 b after _ =>
    split_ifs at h
    · obtain ⟨⟨text, rest'⟩, hparse, heq⟩ := Option.map_eq_some_iff.mp h
      cases heq
      simp only [Value.clean, parseString_clean hparse]
    · split at h
      case h_1 => cases h
      case h_2 =>
        split_ifs at h
        · cases h
          rfl
        · obtain ⟨⟨vs, rest'⟩, hparse, heq⟩ := Option.map_eq_some_iff.mp h
          cases heq
          simp only [Value.clean, ih.items _ _ _ hparse]
    · split at h
      case h_1 => cases h
      case h_2 =>
        split_ifs at h
        · cases h
          rfl
        · obtain ⟨⟨ms, rest'⟩, hparse, heq⟩ := Option.map_eq_some_iff.mp h
          cases heq
          simp only [Value.clean, ih.members _ _ _ hparse]
    · rw [keyword_value h]
      rfl
    · rw [keyword_value h]
      rfl
    · rw [keyword_value h]
      rfl
    · obtain ⟨⟨n, rest'⟩, -, heq⟩ := Option.map_eq_some_iff.mp h
      cases heq
      rfl

theorem ParsesClean.items_succ {fuel : Nat} (ih : ParsesClean fuel) (s : Bytes) (vs : List Value)
    (rest : Bytes) (h : parseItems (fuel + 1) s = some (vs, rest)) : cleanItems vs = vs := by
  unfold parseItems at h
  split at h
  case h_1 => cases h
  case h_2 v s' hvalue =>
    have hv := ih.value _ _ _ hvalue
    split at h
    case h_1 => cases h
    case h_2 =>
      split_ifs at h
      · cases h
        simp only [cleanItems, hv]
      · obtain ⟨⟨vs', rest'⟩, hparse, heq⟩ := Option.map_eq_some_iff.mp h
        cases heq
        simp only [cleanItems, hv, ih.items _ _ _ hparse]

theorem ParsesClean.members_succ {fuel : Nat} (ih : ParsesClean fuel) (s : Bytes)
    (ms : List (Bytes × Value)) (rest : Bytes)
    (h : parseMembers (fuel + 1) s = some (ms, rest)) : cleanMembers ms = ms := by
  unfold parseMembers at h
  split at h
  case h_1 => cases h
  case h_2 =>
    split_ifs at h
    split at h
    case h_1 => cases h
    case h_2 k s' hname =>
      have hk := parseString_clean hname
      split at h
      case h_1 => cases h
      case h_2 =>
        split_ifs at h
        split at h
        case h_1 => cases h
        case h_2 v s'' hvalue =>
          have hv := ih.value _ _ _ hvalue
          split at h
          case h_1 => cases h
          case h_2 =>
            split_ifs at h
            · cases h
              simp only [cleanMembers, hk, hv]
            · obtain ⟨⟨ms', rest'⟩, hparse, heq⟩ := Option.map_eq_some_iff.mp h
              cases heq
              simp only [cleanMembers, hk, hv, ih.members _ _ _ hparse]

theorem parsesClean (fuel : Nat) : ParsesClean fuel := by
  induction fuel with
  | zero =>
    refine ⟨?_, ?_, ?_⟩
    · intro s v rest h
      simp [parseValue] at h
    · intro s vs rest h
      simp [parseItems] at h
    · intro s ms rest h
      simp [parseMembers] at h
  | succ fuel ih => exact ⟨ih.value_succ, ih.items_succ, ih.members_succ⟩

/-! ## Codecs -/

/-- Reading a clean tree into a clean value leaves a clean value. -/
def Codec.Cleans {α : Type} (c : Codec α) : Prop :=
  ∀ strict v cur a fault, v.clean = v → c.norm cur = cur →
    c.decode strict v cur = some (a, fault) → c.norm a = a

/-- Storing a clean tree through the member leaves a value that `norm` keeps. -/
def Member.Cleans {σ : Type} (norm : σ → σ) (f : Member σ) : Prop :=
  ∀ strict v b b' fault, v.clean = v → norm b = b → f.decode strict v b = some (b', fault) →
    norm b' = b'

namespace Codec

theorem cleans_of_norm_id {α : Type} {c : Codec α} (h : ∀ a, c.norm a = a) : c.Cleans :=
  fun _ _ _ a _ _ _ _ => h a

theorem cleans_string : string.Cleans := by
  intro strict v cur a fault hv hcur h
  cases v with
  | str s =>
    cases h
    simp only [Value.clean, Value.str.injEq] at hv
    exact hv
  | _ =>
    cases h
    exact hcur

theorem cleans_named {α : Type} {text : α → Bytes} {ofText : Bytes → α}
    (htext : ∀ s, text (ofText s) = s) : (named text ofText).Cleans := by
  intro strict v cur a fault hv hcur h
  cases v with
  | str s =>
    cases h
    simp only [Value.clean, Value.str.injEq] at hv
    change ofText (Utf8.toValidUTF8 (text (ofText s))) = ofText s
    rw [htext, hv]
  | _ =>
    cases h
    exact hcur

theorem cleans_items {α : Type} {c : Codec α} (hc : c.Cleans) (hzero : c.norm c.zero = c.zero)
    (strict : Bool) : ∀ (vs : List Value) (cur as : List α) (fault : Option Fault),
    cleanItems vs = vs → cur.map c.norm = cur → c.decodeItems strict vs cur = some (as, fault) →
    as.map c.norm = as
  | [], cur, as, fault, _, _, h => by
    cases h
    rfl
  | v :: vs, cur, as, fault, hvs, hcur, h => by
    simp only [cleanItems, List.cons.injEq] at hvs
    have hhead : c.norm (cur.head?.getD c.zero) = cur.head?.getD c.zero := by
      cases cur with
      | nil => exact hzero
      | cons x xs => exact (List.cons.inj hcur).1
    have htail : cur.tail.map c.norm = cur.tail := by
      rw [List.map_tail, hcur]
    unfold decodeItems at h
    split at h
    case h_1 => cases h
    case h_2 a fault' hdecode =>
      obtain ⟨⟨rest, fault''⟩, hrest, heq⟩ := Option.map_eq_some_iff.mp h
      cases heq
      rw [List.map_cons, hc strict v _ a fault' hvs.1 hhead hdecode,
        cleans_items hc hzero strict vs _ rest fault'' hvs.2 htail hrest]

theorem cleans_slice {α : Type} {c : Codec α} (hc : c.Cleans) (hzero : c.norm c.zero = c.zero) :
    c.slice.Cleans := by
  intro strict v cur a fault hv hcur h
  cases v with
  | arr vs =>
    simp only [Value.clean, Value.arr.injEq] at hv
    obtain ⟨⟨as, fault'⟩, hitems, heq⟩ := Option.map_eq_some_iff.mp h
    cases heq
    have hold : (cur.getD []).map c.norm = cur.getD [] := by
      cases cur with
      | none => rfl
      | some xs => exact Option.some.inj hcur
    exact congrArg some (cleans_items hc hzero strict vs _ as fault' hv hold hitems)
  | null =>
    cases h
    rfl
  | _ =>
    cases h
    exact hcur

theorem cleans_pointer {α : Type} {c : Codec α}
    {hnull : ∀ a v, c.encode a = some v → v.clean ≠ .null} (hc : c.Cleans)
    (hzero : c.norm c.zero = c.zero) : (c.pointer hnull).Cleans := by
  intro strict v cur a fault hv hcur h
  have hold : c.norm (cur.getD c.zero) = cur.getD c.zero := by
    cases cur with
    | none => exact hzero
    | some x => exact Option.some.inj hcur
  cases v with
  | null =>
    cases h
    rfl
  | _ =>
    obtain ⟨⟨x, fault'⟩, hdecode, heq⟩ := Option.map_eq_some_iff.mp h
    cases heq
    exact congrArg some (hc strict _ _ x fault' hv hold hdecode)

end Codec

namespace Member

variable {σ τ : Type}

theorem Cleans.of {norm : σ → σ} {name : Bytes} {c : Codec τ} {get : σ → τ} {set : τ → σ → σ}
    (hc : c.Cleans) (hset : ∀ x b, norm (set x b) = set (c.norm x) (norm b))
    (hget : ∀ b, get (norm b) = c.norm (get b)) : (Member.of name c get set).Cleans norm := by
  intro strict v b b' fault hv hb h
  obtain ⟨⟨x, fault'⟩, hdecode, heq⟩ := Option.map_eq_some_iff.mp h
  cases heq
  have hold : c.norm (get b) = get b := by rw [← hget, hb]
  rw [hset, hc strict v _ x fault' hv hold hdecode, hb]

theorem Cleans.omitEmpty {norm : σ → σ} {name : Bytes} {c : Codec τ} {get : σ → τ}
    {set : τ → σ → σ} {isEmpty : τ → Bool} {h1 : ∀ x, isEmpty x = true → c.norm x = c.zero}
    {h2 : ∀ b, set (get b) b = b} (hc : c.Cleans)
    (hset : ∀ x b, norm (set x b) = set (c.norm x) (norm b))
    (hget : ∀ b, get (norm b) = c.norm (get b)) :
    (Member.omitEmpty name c get set isEmpty h1 h2).Cleans norm := by
  have hof : (Member.of name c get set).Cleans norm := .of hc hset hget
  exact hof

theorem Cleans.plain {norm : σ → σ} {name : Bytes} {c : Codec τ} {get : σ → τ} {set : τ → σ → σ}
    (hc : ∀ x, c.norm x = x) (hset : ∀ x b, norm (set x b) = set (c.norm x) (norm b))
    (hget : ∀ b, get (norm b) = c.norm (get b)) : (Member.of name c get set).Cleans norm :=
  .of (Codec.cleans_of_norm_id hc) hset hget

theorem cleans_members {norm : σ → σ} {fields : List (Member σ)}
    (hfields : ∀ f ∈ fields, f.Cleans norm) (strict : Bool) :
    ∀ (ms : List (Bytes × Value)) (b b' : σ) (fault : Option Fault), cleanMembers ms = ms →
    norm b = b → decodeMembers strict fields ms b = some (b', fault) → norm b' = b'
  | [], b, b', fault, _, hb, h => by
    cases h
    exact hb
  | (key, v) :: ms, b, b', fault, hms, hb, h => by
    simp only [cleanMembers, List.cons.injEq, Prod.mk.injEq] at hms
    unfold decodeMembers at h
    split at h
    case h_1 =>
      obtain ⟨⟨x, fault'⟩, hrest, heq⟩ := Option.map_eq_some_iff.mp h
      cases heq
      exact cleans_members hfields strict ms b x fault' hms.2 hb hrest
    case h_2 f hlookup =>
      split at h
      case h_1 => cases h
      case h_2 y fault' hdecode =>
        obtain ⟨⟨x, fault''⟩, hrest, heq⟩ := Option.map_eq_some_iff.mp h
        cases heq
        have hy := hfields f (mem_of_lookup hlookup).1 strict v b y fault' hms.1.2 hb hdecode
        exact cleans_members hfields strict ms y x fault'' hms.2 hy hrest

end Member

theorem Codec.cleans_struct {σ : Type} {fields : List (Member σ)} {zero : σ}
    {hnames : (fields.map Member.name).Nodup}
    {hvalid : ∀ f ∈ fields, Utf8.validString f.name = true}
    {hfresh : ∀ a, Member.Fresh a fields zero}
    (hfields : ∀ f ∈ fields, f.Cleans (struct fields zero hnames hvalid hfresh).norm) :
    (struct fields zero hnames hvalid hfresh).Cleans := by
  intro strict v cur a fault hv hcur h
  cases v with
  | obj ms =>
    simp only [Value.clean, Value.obj.injEq] at hv
    exact Member.cleans_members hfields strict ms cur a fault hv hcur h
  | _ =>
    cases h
    exact hcur

end Go.Json
