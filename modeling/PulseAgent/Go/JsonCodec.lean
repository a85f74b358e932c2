import PulseAgent.Go.JsonRoundTrip
import PulseAgent.Go.Time
import PulseAgent.Go.Duration

/-!
# Typed JSON codecs

Writing may fail; reading stores into an existing value, goes on after a fault it can record and
stops where an `UnmarshalJSON` method refuses its input. The law of a codec: what comes back is the
value with every invalid UTF-8 sequence replaced.
-/

namespace Go.Json

/-- The first fault the decoder records and goes on after. -/
inductive Fault where
  | unknownField
  | mismatch
  deriving DecidableEq, Repr

/-- A decoded value with the first recorded fault; `none` is a refusal by `UnmarshalJSON`. -/
abbrev Decoded (α : Type) := Option (α × Option Fault)

mutual
/-- No object anywhere in the tree repeats a member name. -/
def Value.distinct : Value → Bool
  | .arr vs => distinctItems vs
  | .obj ms => (ms.map Prod.fst).Nodup && distinctMembers ms
  | _ => true

def distinctItems : List Value → Bool
  | [] => true
  | v :: vs => v.distinct && distinctItems vs

def distinctMembers : List (Bytes × Value) → Bool
  | [] => true
  | (_, v) :: ms => v.distinct && distinctMembers ms
end

structure Codec (α : Type) where
  zero : α
  encode : α → Option Value
  /-- With the flag set, member names the type does not have are faults. -/
  decode : Bool → Value → α → Decoded α
  norm : α → α
  sound : ∀ strict a v, encode a = some v → decode strict v.clean zero = some (norm a, none)
  distinct : ∀ a v, encode a = some v → v.clean.distinct = true

namespace Codec

/-! ## Scalars -/

def string : Codec Bytes where
  zero := []
  encode s := some (.str s)
  decode _ v cur :=
    match v with
    | .str s => some (s, none)
    | .null => some (cur, none)
    | _ => some (cur, some .mismatch)
  norm := Utf8.toValidUTF8
  sound := by
    rintro _ s _ ⟨⟩
    simp only [Value.clean]
  distinct := by
    rintro s _ ⟨⟩
    simp only [Value.clean, Value.distinct]

def bool : Codec Bool where
  zero := false
  encode b := some (.bool b)
  decode _ v cur :=
    match v with
    | .bool b => some (b, none)
    | .null => some (cur, none)
    | _ => some (cur, some .mismatch)
  norm := id
  sound := by
    rintro _ b _ ⟨⟩
    simp only [Value.clean, id_eq]
  distinct := by
    rintro b _ ⟨⟩
    simp only [Value.clean, Value.distinct]

def Number.toInt (n : Number) : Option Int :=
  if n.frac = [] ∧ n.exp = none then some (if n.neg then -(n.int : Int) else n.int) else none

def Number.ofInt (i : Int) : Number := ⟨i < 0, i.natAbs, [], none⟩

theorem toInt_ofInt (i : Int) : Number.toInt (Number.ofInt i) = some i := by
  simp only [Number.toInt, Number.ofInt, and_self, if_true, decide_eq_true_eq]
  split <;> congr 1 <;> omega

def readInt64 (n : Number) : Option Int64 :=
  match Number.toInt n with
  | some i => if -2 ^ 63 ≤ i ∧ i < 2 ^ 63 then some (Int64.ofInt i) else none
  | none => none

theorem readInt64_ofInt (x : Int64) : readInt64 (Number.ofInt x.toInt) = some x := by
  simp only [readInt64, toInt_ofInt]
  rw [if_pos ⟨Int64.le_toInt x, Int64.toInt_lt x⟩, Int64.ofInt_toInt]

def int64 : Codec Int64 where
  zero := 0
  encode x := some (.num (Number.ofInt x.toInt))
  decode _ v cur :=
    match v with
    | .num n =>
      match readInt64 n with
      | some x => some (x, none)
      | none => some (cur, some .mismatch)
    | .null => some (cur, none)
    | _ => some (cur, some .mismatch)
  norm := id
  sound := by
    rintro _ x _ ⟨⟩
    simp only [Value.clean, readInt64_ofInt, id_eq]
  distinct := by
    rintro x _ ⟨⟩
    simp only [Value.clean, Value.distinct]

/-- `time.Time`, written as RFC 3339 text; `null` leaves the value as it is. -/
def time : Codec Time where
  zero := 0
  encode t := (Time.format t).map .str
  decode _ v cur :=
    match v with
    | .str s => (Time.parse s).map (·, none)
    | .null => some (cur, none)
    | _ => none
  norm := id
  sound := by
    intro _ t v h
    obtain ⟨s, hs, rfl⟩ := Option.map_eq_some_iff.mp h
    simp only [Value.clean, Utf8.toValidUTF8_of_valid (Time.validString_format hs),
      Time.parse_format hs, Option.map_some, id_eq]
  distinct := by
    intro t v h
    obtain ⟨s, _, rfl⟩ := Option.map_eq_some_iff.mp h
    simp only [Value.clean, Value.distinct]

/-- A duration written as its text; anything but such a text is refused. -/
def duration : Codec Duration where
  zero := 0
  encode d := some (.str d.format)
  decode _ v _ :=
    match v with
    | .str s => (Duration.parse s).map (·, none)
    | _ => none
  norm := id
  sound := by
    rintro _ d _ ⟨⟩
    simp only [Value.clean, Utf8.toValidUTF8_of_valid (Duration.validString_format d),
      Duration.parse_format, Option.map_some, id_eq]
  distinct := by
    rintro d _ ⟨⟩
    simp only [Value.clean, Value.distinct]

/-- A string type with named constants, through its text and back. -/
def named {α : Type} (text : α → Bytes) (ofText : Bytes → α) : Codec α where
  zero := ofText []
  encode a := some (.str (text a))
  decode _ v cur :=
    match v with
    | .str s => some (ofText s, none)
    | .null => some (cur, none)
    | _ => some (cur, some .mismatch)
  norm a := ofText (Utf8.toValidUTF8 (text a))
  sound := by
    rintro _ a _ ⟨⟩
    simp only [Value.clean]
  distinct := by
    rintro a _ ⟨⟩
    simp only [Value.clean, Value.distinct]

/-! ## Slices and pointers -/

section Elements

variable {α : Type} (c : Codec α)

def encodeItems : List α → Option (List Value)
  | [] => some []
  | a :: as => do
    let v ← c.encode a
    let vs ← encodeItems as
    return v :: vs

/-- Elements are stored over those the slice already has. -/
def decodeItems (strict : Bool) : List Value → List α → Decoded (List α)
  | [], _ => some ([], none)
  | v :: vs, cur =>
    match c.decode strict v (cur.head?.getD c.zero) with
    | none => none
    | some (a, fault) =>
      (decodeItems strict vs cur.tail).map fun r => (a :: r.1, fault.or r.2)

theorem encodeItems_cons {a : α} {as : List α} {vs : List Value}
    (h : c.encodeItems (a :: as) = some vs) :
    ∃ v rest, c.encode a = some v ∧ c.encodeItems as = some rest ∧ vs = v :: rest := by
  simp only [encodeItems, Option.bind_eq_bind, Option.bind_eq_some_iff, Option.pure_def,
    Option.some.injEq] at h
  obtain ⟨v, hv, rest, hrest, rfl⟩ := h
  exact ⟨v, rest, hv, hrest, rfl⟩

theorem decodeItems_encodeItems (strict : Bool) : ∀ (as : List α) (vs : List Value),
    c.encodeItems as = some vs →
    c.decodeItems strict (cleanItems vs) [] = some (as.map c.norm, none)
  | [], vs, h => by
    cases h
    rfl
  | a :: as, vs, h => by
    obtain ⟨v, rest, hv, hrest, rfl⟩ := c.encodeItems_cons h
    simp only [cleanItems, decodeItems, List.head?_nil, Option.getD_none, c.sound strict a v hv,
      List.tail_nil, decodeItems_encodeItems strict as rest hrest]
    rfl

theorem distinctItems_encodeItems : ∀ (as : List α) (vs : List Value),
    c.encodeItems as = some vs → distinctItems (cleanItems vs) = true
  | [], vs, h => by
    cases h
    rfl
  | a :: as, vs, h => by
    obtain ⟨v, rest, hv, hrest, rfl⟩ := c.encodeItems_cons h
    simp only [cleanItems, distinctItems, c.distinct a v hv,
      distinctItems_encodeItems as rest hrest,
      Bool.and_self]

/-- A Go slice; `none` is the nil slice, which is written as `null`. -/
def slice : Codec (Option (List α)) where
  zero := none
  encode
    | none => some .null
    | some as => (c.encodeItems as).map .arr
  decode strict v cur :=
    match v with
    | .arr vs => (c.decodeItems strict vs (cur.getD [])).map fun r => (some r.1, r.2)
    | .null => some (none, none)
    | _ => some (cur, some .mismatch)
  norm := Option.map (List.map c.norm)
  sound := by
    intro strict as v h
    cases as with
    | none =>
      cases h
      rfl
    | some as =>
      obtain ⟨vs, hvs, rfl⟩ := Option.map_eq_some_iff.mp h
      simp only [Value.clean, Option.getD_none, c.decodeItems_encodeItems strict as vs hvs,
        Option.map_some]
  distinct := by
    intro as v h
    cases as with
    | none =>
      cases h
      rfl
    | some as =>
      obtain ⟨vs, hvs, rfl⟩ := Option.map_eq_some_iff.mp h
      simp only [Value.clean, Value.distinct, c.distinctItems_encodeItems as vs hvs]

end Elements

def pointer {α : Type} (c : Codec α) (hnull : ∀ a v, c.encode a = some v → v.clean ≠ .null) :
    Codec (Option α) where
  zero := none
  encode
    | none => some .null
    | some a => c.encode a
  decode strict v cur :=
    match v with
    | .null => some (none, none)
    | v => (c.decode strict v (cur.getD c.zero)).map fun r => (some r.1, r.2)
  norm := Option.map c.norm
  sound := by
    intro strict a v h
    cases a with
    | none =>
      cases h
      rfl
    | some a =>
      have hne := hnull a v h
      have hsound := c.sound strict a v h
      cases hv : v.clean with
      | null => exact absurd hv hne
      | _ =>
        rw [hv] at hsound
        simp only [Option.getD_none, hsound, Option.map_some]
  distinct := by
    intro a v h
    cases a with
    | none =>
      cases h
      rfl
    | some a => exact c.distinct a v h

end Codec

/-! ## Structures -/

/-- One field of a structure: how it is written, how a value is stored into it, and the law
that storing what was written into a fresh field copies it, cleaned. -/
structure Member (σ : Type) where
  name : Bytes
  /-- `some none` when an empty field is left out. -/
  encode : σ → Option (Option Value)
  decode : Bool → Value → σ → Decoded σ
  fresh : σ → Prop
  transfer : σ → σ → σ
  sound : ∀ strict a b v, encode a = some (some v) → fresh b →
    decode strict v.clean b = some (transfer a b, none)
  omitted : ∀ a b, encode a = some none → fresh b → transfer a b = b
  distinct : ∀ a v, encode a = some (some v) → v.clean.distinct = true

namespace Member

variable {σ τ : Type}

def of (name : Bytes) (c : Codec τ) (get : σ → τ) (set : τ → σ → σ) : Member σ where
  name := name
  encode a := (c.encode (get a)).map some
  decode strict v b := (c.decode strict v (get b)).map fun r => (set r.1 b, r.2)
  fresh b := get b = c.zero
  transfer a b := set (c.norm (get a)) b
  sound := by
    intro strict a b v h hb
    obtain ⟨w, hw, hwv⟩ := Option.map_eq_some_iff.mp h
    obtain rfl := Option.some.inj hwv
    rw [hb, c.sound strict _ _ hw, Option.map_some]
  omitted := by
    intro a b h
    obtain ⟨w, _, hw⟩ := Option.map_eq_some_iff.mp h
    cases hw
  distinct := by
    intro a v h
    obtain ⟨w, hw, hwv⟩ := Option.map_eq_some_iff.mp h
    obtain rfl := Option.some.inj hwv
    exact c.distinct _ _ hw

def omitEmpty (name : Bytes) (c : Codec τ) (get : σ → τ) (set : τ → σ → σ) (isEmpty : τ → Bool)
    (hempty : ∀ x, isEmpty x = true → c.norm x = c.zero) (hset : ∀ b, set (get b) b = b) :
    Member σ where
  name := name
  encode a := if isEmpty (get a) then some none else (c.encode (get a)).map some
  decode strict v b := (c.decode strict v (get b)).map fun r => (set r.1 b, r.2)
  fresh b := get b = c.zero
  transfer a b := set (c.norm (get a)) b
  sound := by
    intro strict a b v h hb
    split at h
    · cases h
    · exact (of name c get set).sound strict a b v h hb
  omitted := by
    intro a b h hb
    split at h
    case isTrue he =>
      rw [hempty _ he, ← hb, hset]
    case isFalse => exact ((of name c get set).omitted a b h hb)
  distinct := by
    intro a v h
    split at h
    · cases h
    · exact (of name c get set).distinct a v h

/-- ASCII letters and the two other runes that fold to one, U+017F and U+212A. -/
def foldName : Bytes → Bytes
  | 0xC5 :: 0xBF :: rest => 83 :: foldName rest
  | 0xE2 :: 0x84 :: 0xAA :: rest => 75 :: foldName rest
  | b :: rest => (if 97 ≤ b && b ≤ 122 then b - 32 else b) :: foldName rest
  | [] => []

/-- An exact match of the member name comes before a case-insensitive one. -/
def lookup (fields : List (Member σ)) (key : Bytes) : Option (Member σ) :=
  (fields.find? fun f => f.name == key).or
    (fields.find? fun f => foldName f.name == foldName key)

theorem mem_of_lookup {fields : List (Member σ)} {key : Bytes} {f : Member σ}
    (h : lookup fields key = some f) : f ∈ fields ∧ foldName f.name = foldName key := by
  rcases Option.or_eq_some_iff.mp h with h | ⟨-, h⟩
  · have hname := List.find?_some h
    rw [beq_iff_eq] at hname
    exact ⟨List.mem_of_find?_eq_some h, by rw [hname]⟩
  · have hname := List.find?_some h
    rw [beq_iff_eq] at hname
    exact ⟨List.mem_of_find?_eq_some h, hname⟩

def encodeMembers (a : σ) : List (Member σ) → Option (List (Bytes × Value))
  | [] => some []
  | f :: fs =>
    match f.encode a, encodeMembers a fs with
    | some (some v), some rest => some ((f.name, v) :: rest)
    | some none, some rest => some rest
    | _, _ => none

def decodeMembers (strict : Bool) (fields : List (Member σ)) :
    List (Bytes × Value) → σ → Decoded σ
  | [], s => some (s, none)
  | (key, v) :: rest, s =>
    match lookup fields key with
    | none =>
      (decodeMembers strict fields rest s).map fun r =>
        (r.1, if strict then some .unknownField else r.2)
    | some f =>
      match f.decode strict v s with
      | none => none
      | some (s, fault) => (decodeMembers strict fields rest s).map fun r => (r.1, fault.or r.2)

/-- Every field still has its zero value when its turn comes. -/
def Fresh (a : σ) : List (Member σ) → σ → Prop
  | [], _ => True
  | f :: fs, s => f.fresh s ∧ Fresh a fs (f.transfer a s)

def transferAll (a : σ) (fields : List (Member σ)) (s : σ) : σ :=
  fields.foldl (fun s f => f.transfer a s) s

theorem encodeMembers_cons {a : σ} {f : Member σ} {fs : List (Member σ)}
    {ms : List (Bytes × Value)} (h : encodeMembers a (f :: fs) = some ms) :
    ∃ rest, encodeMembers a fs = some rest ∧
      (f.encode a = some none ∧ ms = rest ∨
        ∃ v, f.encode a = some (some v) ∧ ms = (f.name, v) :: rest) := by
  simp only [encodeMembers] at h
  split at h
  case h_1 v rest hf hrest => exact ⟨rest, hrest, .inr ⟨v, hf, (Option.some.inj h).symm⟩⟩
  case h_2 rest hf hrest => exact ⟨rest, hrest, .inl ⟨hf, (Option.some.inj h).symm⟩⟩
  case h_3 => cases h

theorem lookup_of_mem {fields : List (Member σ)} (hnames : (fields.map name).Nodup) {f : Member σ}
    (hf : f ∈ fields) : lookup fields f.name = some f := by
  have hfind : fields.find? (fun g => g.name == f.name) = some f := by
    induction fields with
    | nil => cases hf
    | cons g fs ih =>
      rw [List.map_cons, List.nodup_cons] at hnames
      rcases List.mem_cons.mp hf with rfl | hf
      · simp
      · have hne : g.name ≠ f.name := fun h => hnames.1 (h ▸ List.mem_map_of_mem hf)
        simp [hne, ih hnames.2 hf]
  rw [lookup, hfind, Option.some_or]

/-- Reading the members a structure was written as gives its cleaned fields, one by one. -/
theorem decodeMembers_encodeMembers (strict : Bool) {fields : List (Member σ)}
    (hnames : (fields.map name).Nodup) (hvalid : ∀ f ∈ fields, Utf8.validString f.name = true)
    (a : σ) : ∀ (fs : List (Member σ)) (s : σ) (ms : List (Bytes × Value)), (∀ f ∈ fs, f ∈ fields) →
    encodeMembers a fs = some ms → Fresh a fs s →
    decodeMembers strict fields (cleanMembers ms) s = some (transferAll a fs s, none)
  | [], s, ms, _, h, _ => by
    cases h
    rfl
  | f :: fs, s, ms, hsub, h, hfresh => by
    have hf := hsub f (by simp)
    have hrest : ∀ g ∈ fs, g ∈ fields := fun g hg => hsub g (by simp [hg])
    obtain ⟨rest, hencode, ⟨homit, rfl⟩ | ⟨v, hv, rfl⟩⟩ := encodeMembers_cons h
    · have ih := decodeMembers_encodeMembers strict hnames hvalid a fs (f.transfer a s) ms hrest
        hencode hfresh.2
      rw [f.omitted a s homit hfresh.1] at ih
      rw [ih, transferAll, transferAll, List.foldl_cons, f.omitted a s homit hfresh.1]
    · have ih := decodeMembers_encodeMembers strict hnames hvalid a fs (f.transfer a s) rest hrest
        hencode hfresh.2
      simp only [cleanMembers, decodeMembers, Utf8.toValidUTF8_of_valid (hvalid f hf),
        lookup_of_mem hnames hf, f.sound strict a s v hv hfresh.1, ih, Option.map_some,
        Option.none_or]
      rfl

theorem encodeMembers_names {a : σ} : ∀ {fs : List (Member σ)} {ms : List (Bytes × Value)},
    encodeMembers a fs = some ms → (ms.map Prod.fst).Sublist (fs.map name)
  | [], ms, h => by
    cases h
    exact List.Sublist.slnil
  | f :: fs, ms, h => by
    obtain ⟨rest, hencode, ⟨_, rfl⟩ | ⟨v, _, rfl⟩⟩ := encodeMembers_cons h
    · exact (encodeMembers_names hencode).cons _
    · exact (encodeMembers_names hencode).cons_cons _

theorem cleanMembers_names : ∀ {ms : List (Bytes × Value)},
    (∀ k ∈ ms.map Prod.fst, Utf8.validString k = true) →
    (cleanMembers ms).map Prod.fst = ms.map Prod.fst
  | [], _ => rfl
  | (k, v) :: ms, h => by
    simp only [cleanMembers, List.map_cons, Utf8.toValidUTF8_of_valid (h k (by simp))]
    rw [cleanMembers_names fun k' hk =>
      h k' (by simp only [List.map_cons, List.mem_cons, hk, or_true])]

theorem distinctMembers_encodeMembers {a : σ} : ∀ {fs : List (Member σ)}
    {ms : List (Bytes × Value)}, encodeMembers a fs = some ms →
    distinctMembers (cleanMembers ms) = true
  | [], ms, h => by
    cases h
    rfl
  | f :: fs, ms, h => by
    obtain ⟨rest, hencode, ⟨_, rfl⟩ | ⟨v, hv, rfl⟩⟩ := encodeMembers_cons h
    · exact distinctMembers_encodeMembers hencode
    · simp only [cleanMembers, distinctMembers, f.distinct a v hv,
        distinctMembers_encodeMembers hencode, Bool.and_self]

end Member

def Codec.struct {σ : Type} (fields : List (Member σ)) (zero : σ)
    (hnames : (fields.map Member.name).Nodup)
    (hvalid : ∀ f ∈ fields, Utf8.validString f.name = true)
    (hfresh : ∀ a, Member.Fresh a fields zero) : Codec σ where
  zero := zero
  encode a := (Member.encodeMembers a fields).map .obj
  decode strict v cur :=
    match v with
    | .obj ms => Member.decodeMembers strict fields ms cur
    | .null => some (cur, none)
    | _ => some (cur, some .mismatch)
  norm a := Member.transferAll a fields zero
  sound := by
    intro strict a v h
    obtain ⟨ms, hms, rfl⟩ := Option.map_eq_some_iff.mp h
    simp only [Value.clean]
    exact Member.decodeMembers_encodeMembers strict hnames hvalid a fields zero ms (fun f hf => hf)
      hms (hfresh a)
  distinct := by
    intro a v h
    obtain ⟨ms, hms, rfl⟩ := Option.map_eq_some_iff.mp h
    have hsub := Member.encodeMembers_names hms
    have hclean : (cleanMembers ms).map Prod.fst = ms.map Prod.fst := by
      refine Member.cleanMembers_names fun k hk => ?_
      obtain ⟨f, hf, rfl⟩ := List.mem_map.mp (hsub.subset hk)
      exact hvalid f hf
    simp only [Value.clean, Value.distinct, hclean, hnames.sublist hsub, decide_true,
      Member.distinctMembers_encodeMembers hms, Bool.and_self]

namespace Codec

variable {α : Type} (c : Codec α)

def marshal (a : α) : Option Bytes := (c.encode a).map render

/-- Reads a parsed document into the zero value; any fault is an error. -/
def read (strict : Bool) (v : Value) : Except Fault α :=
  match c.decode strict v c.zero with
  | some (a, none) => .ok a
  | some (_, some fault) => .error fault
  | none => .error .mismatch

theorem read_of_decode {strict : Bool} {v : Value} {a : α}
    (h : c.decode strict v c.zero = some (a, none)) : c.read strict v = .ok a := by
  simp only [read, h]

/-- Cleaning a value twice is cleaning it once. -/
def Idem (c : Codec α) : Prop := ∀ a, c.norm (c.norm a) = c.norm a

theorem idem_string : string.Idem := Utf8.toValidUTF8_idem

theorem idem_named {text : α → Bytes} {ofText : Bytes → α} (h : ∀ s, text (ofText s) = s) :
    (named text ofText).Idem := by
  intro a
  simp only [named, h, Utf8.toValidUTF8_idem]

theorem idem_slice {c : Codec α} (h : c.Idem) : c.slice.Idem := by
  intro as
  simp only [slice, Option.map_map]
  congr 1
  funext as
  simp only [Function.comp_apply, List.map_map, List.map_inj_left]
  exact fun a _ => h a

theorem struct_ne_null {σ : Type} {fields : List (Member σ)} {zero : σ}
    {hnames : (fields.map Member.name).Nodup}
    {hvalid : ∀ f ∈ fields, Utf8.validString f.name = true}
    {hfresh : ∀ a, Member.Fresh a fields zero} (a : σ) (v : Value)
    (h : (struct fields zero hnames hvalid hfresh).encode a = some v) : v.clean ≠ .null := by
  obtain ⟨ms, -, rfl⟩ := Option.map_eq_some_iff.mp h
  simp only [Value.clean, ne_eq, reduceCtorEq, not_false_eq_true]

theorem read_clean {a : α} {v : Value} (strict : Bool) (h : c.encode a = some v) :
    c.read strict v.clean = .ok (c.norm a) :=
  c.read_of_decode (c.sound strict a v h)

/-! ## Values that can be written -/

/-- The value has a JSON text. Only times outside the four-digit years have none. -/
def Writes (a : α) : Prop := ∃ v, c.encode a = some v

variable {c}

theorem marshal_of_writes {a : α} (h : c.Writes a) : ∃ document, c.marshal a = some document := by
  obtain ⟨v, hv⟩ := h
  exact ⟨render v, by rw [marshal, hv, Option.map_some]⟩

theorem writes_of_marshal {a : α} {document : Bytes} (h : c.marshal a = some document) :
    c.Writes a := by
  obtain ⟨v, hv, -⟩ := Option.map_eq_some_iff.mp h
  exact ⟨v, hv⟩

theorem writes_time {t : Time} {text : Bytes} (h : t.format = some text) : time.Writes t :=
  ⟨.str text, by simp only [time, h, Option.map_some]⟩

theorem writes_slice {as : Option (List α)} (h : ∀ a ∈ as.getD [], c.Writes a) :
    c.slice.Writes as := by
  cases as with
  | none => exact ⟨.null, rfl⟩
  | some as =>
    have hitems : ∃ vs, c.encodeItems as = some vs := by
      induction as with
      | nil => exact ⟨[], rfl⟩
      | cons a as ih =>
        obtain ⟨v, hv⟩ := h a List.mem_cons_self
        obtain ⟨vs, hvs⟩ := ih fun b hb => h b (List.mem_cons_of_mem a hb)
        refine ⟨v :: vs, ?_⟩
        simp only [encodeItems, hv, hvs]
        rfl
    obtain ⟨vs, hvs⟩ := hitems
    exact ⟨.arr vs, by simp only [slice, hvs, Option.map_some]⟩

end Codec

namespace Member

variable {σ τ : Type}

def Writes (a : σ) (f : Member σ) : Prop := ∃ v, f.encode a = some v

theorem writes_of {name : Bytes} {c : Codec τ} {get : σ → τ} {set : τ → σ → σ} {a : σ}
    (h : c.Writes (get a)) : (of name c get set).Writes a := by
  obtain ⟨v, hv⟩ := h
  exact ⟨some v, by simp only [of, hv, Option.map_some]⟩

theorem writes_omitEmpty {name : Bytes} {c : Codec τ} {get : σ → τ} {set : τ → σ → σ}
    {isEmpty : τ → Bool} {h1 : ∀ x, isEmpty x = true → c.norm x = c.zero}
    {h2 : ∀ b, set (get b) b = b} {a : σ} (h : c.Writes (get a)) :
    (omitEmpty name c get set isEmpty h1 h2).Writes a := by
  by_cases hempty : isEmpty (get a) = true
  · exact ⟨none, if_pos hempty⟩
  · obtain ⟨v, hv⟩ := h
    refine ⟨some v, (if_neg hempty).trans ?_⟩
    rw [hv, Option.map_some]

end Member

theorem Codec.writes_struct {σ : Type} {fields : List (Member σ)} {zero : σ}
    {hnames : (fields.map Member.name).Nodup}
    {hvalid : ∀ f ∈ fields, Utf8.validString f.name = true}
    {hfresh : ∀ a, Member.Fresh a fields zero} {a : σ} (h : ∀ f ∈ fields, f.Writes a) :
    (Codec.struct fields zero hnames hvalid hfresh).Writes a := by
  have hmembers : ∀ {fs : List (Member σ)}, (∀ f ∈ fs, f.Writes a) →
      ∃ ms, Member.encodeMembers a fs = some ms := by
    intro fs hfs
    induction fs with
    | nil => exact ⟨[], rfl⟩
    | cons f fs ih =>
      obtain ⟨v, hv⟩ := hfs f List.mem_cons_self
      obtain ⟨ms, hms⟩ := ih fun g hg => hfs g (List.mem_cons_of_mem f hg)
      cases v with
      | none => exact ⟨ms, by simp only [Member.encodeMembers, hv, hms]⟩
      | some v => exact ⟨(f.name, v) :: ms, by simp only [Member.encodeMembers, hv, hms]⟩
  obtain ⟨ms, hms⟩ := hmembers h
  exact ⟨.obj ms, congrArg (Option.map Value.obj) hms⟩

end Go.Json
