import PulseAgent.Go.JsonSize
import PulseAgent.Go.TreeMap

/-!
# Raw members of an object

A `map[string]json.RawMessage` keeps the text of every member and is written in the order of its
keys.
-/

namespace Go.Json

open Std

/-! ## Compact texts -/

/-- `json.Compact` with HTML escaping; the flag says whether the text starts inside a string
literal. -/
def compact : Bool → Bytes → Bytes
  | _, [] => []
  | inside, 0xE2 :: 0x80 :: 0xA8 :: rest => unicodeEscape 0x2028 ++ compact inside rest
  | inside, 0xE2 :: 0x80 :: 0xA9 :: rest => unicodeEscape 0x2029 ++ compact inside rest
  | true, 92 :: c :: rest => 92 :: c :: compact true rest
  | inside, b :: rest =>
    if b = 60 || b = 62 || b = 38 then unicodeEscape b.toNat ++ compact inside rest
    else if b = 34 then 34 :: compact (!inside) rest
    else if !inside && isSpace b then compact false rest
    else b :: compact inside rest

/-! ## Reading and writing raw members -/

/-- The text of the next value, and what follows it. -/
def rawValue (fuel : Nat) (s : Bytes) : Option (Bytes × Bytes) :=
  (parseValue fuel s).map fun p => ((skipSpace s).take ((skipSpace s).length - p.2.length), p.2)

/-- `parseMembers`, with the texts of the values. -/
def rawMembers : Nat → Bytes → Option (List (Bytes × Bytes) × Bytes)
  | 0, _ => none
  | fuel + 1, s =>
    match skipSpace s with
    | [] => none
    | q :: s =>
      if q = 34 then
        match parseString s with
        | none => none
        | some (k, s) =>
          match skipSpace s with
          | [] => none
          | colon :: s =>
            if colon = 58 then
              match rawValue fuel s with
              | none => none
              | some (raw, s) =>
                match skipSpace s with
                | [] => none
                | b :: rest =>
                  if b = 125 then some ([(k, raw)], rest)
                  else if b = 44 then (rawMembers fuel rest).map fun p => ((k, raw) :: p.1, p.2)
                  else none
            else none
      else none

def rawObject (s : Bytes) : Option (List (Bytes × Bytes)) :=
  match skipSpace ((skipSpace s).drop 1) with
  | [] => none
  | b :: rest => if b = 125 then some [] else (rawMembers s.length (b :: rest)).map Prod.fst

/-- `json.Unmarshal` into a nil `map[string]json.RawMessage`; the map stays nil for `null`. -/
def unmarshalRaw (s : Bytes) : Option (Option (ExtTreeMap Bytes Bytes)) :=
  match parse s with
  | some .null => some none
  | some (.obj _) => (rawObject s).map fun ms => some (ExtTreeMap.ofList ms)
  | _ => none

def renderRawMembers : List (Bytes × Bytes) → Bytes
  | [] => [125]
  | (k, raw) :: ms => 44 :: (quote k ++ 58 :: (compact false raw ++ renderRawMembers ms))

def renderRaw : List (Bytes × Bytes) → Bytes
  | [] => [123, 125]
  | (k, raw) :: ms => 123 :: (quote k ++ 58 :: (compact false raw ++ renderRawMembers ms))

/-- `json.Marshal` of a `map[string]json.RawMessage`, whose texts are values. -/
def marshalRaw : Option (ExtTreeMap Bytes Bytes) → Bytes
  | none => lit "null"
  | some m => renderRaw m.toList

def rawOf (ms : List (Bytes × Value)) : List (Bytes × Bytes) :=
  ms.map fun m => (Utf8.toValidUTF8 m.1, render m.2)

theorem rawValue_render (v : Value) {fuel : Nat} {t : Bytes} (hfuel : (render v).length ≤ fuel)
    (ht : NumberEnds t) : rawValue fuel (render v ++ t) = some (render v, t) := by
  obtain ⟨b, rest, hhead, hspace, -⟩ := render_head v
  have hskip : skipSpace (render v ++ t) = render v ++ t := by
    rw [hhead, List.cons_append, skipSpace_cons hspace]
  unfold rawValue
  rw [parseValue_render v fuel t hfuel ht, Option.map_some, hskip]
  simp

theorem rawMembers_render (k : Bytes) (v : Value) (ms : List (Bytes × Value))
    (fuel : Nat) (t : Bytes)
    (h : (quote k).length + (1 + ((render v).length + (renderMembers ms).length)) ≤ fuel + 1) :
    rawMembers fuel (quote k ++ 58 :: (render v ++ (renderMembers ms ++ t))) =
      some (rawOf ((k, v) :: ms), t) := by
  induction fuel generalizing k v ms with
  | zero =>
    have := renderMembers_length_pos ms
    simp only [quote, List.length_cons, List.length_append] at h
    omega
  | succ fuel ih =>
    cases ms with
    | nil =>
      simp only [quote, renderMembers, List.length_cons, List.length_append, List.length_nil] at h
      have hv := rawValue_render v (by omega : _ ≤ fuel) (numberEnds_cons (.inr (.inr rfl)) t)
      simp only [quote_append, renderMembers, List.cons_append, List.nil_append, rawMembers,
        skipSpace_cons (by decide : isSpace 34 = false), if_true, parseString_escape,
        skipSpace_cons (by decide : isSpace 58 = false), hv,
        skipSpace_cons (by decide : isSpace 125 = false), rawOf, List.map_cons, List.map_nil]
    | cons m ms =>
      obtain ⟨k', v'⟩ := m
      have hpos := renderMembers_length_pos ms
      simp only [renderMembers, quote, List.length_cons, List.length_append, List.length_nil] at h
      have hv := rawValue_render v (by omega : _ ≤ fuel)
        (renderMembers_numberEnds ((k', v') :: ms) t)
      have hrest := ih k' v' ms (by
        simp only [quote, List.length_cons, List.length_append, List.length_nil]
        omega)
      simp only [renderMembers, List.cons_append, List.append_assoc] at hv
      simp only [quote_append] at hrest hv
      simp only [quote_append, renderMembers, List.cons_append, List.append_assoc, rawMembers,
        skipSpace_cons (by decide : isSpace 34 = false), if_true, parseString_escape,
        skipSpace_cons (by decide : isSpace 58 = false), hv,
        skipSpace_cons (by decide : isSpace 44 = false)] at hrest ⊢
      rw [if_neg (by decide), hrest]
      rfl

theorem rawObject_render (ms : List (Bytes × Value)) :
    rawObject (render (.obj ms)) = some (rawOf ms) := by
  cases ms with
  | nil =>
    simp only [render]
    rfl
  | cons m ms =>
    obtain ⟨k, v⟩ := m
    have hlength : (render (.obj ((k, v) :: ms))).length =
        (quote k).length + (1 + ((render v).length + (renderMembers ms).length)) + 1 := by
      simp only [render, List.length_cons, List.length_append]
      omega
    have hmembers := rawMembers_render k v ms (render (.obj ((k, v) :: ms))).length []
      (by omega)
    rw [List.append_nil, quote_append] at hmembers
    unfold rawObject
    generalize (render (.obj ((k, v) :: ms))).length = fuel at hmembers ⊢
    simp only [render, skipSpace_cons (by decide : isSpace 123 = false), List.drop_succ_cons,
      List.drop_zero, quote_append, skipSpace_cons (by decide : isSpace 34 = false)]
    rw [if_neg (by decide), hmembers]
    rfl

theorem unmarshalRaw_render (ms : List (Bytes × Value)) :
    unmarshalRaw (render (.obj ms)) = some (some (ExtTreeMap.ofList (rawOf ms))) := by
  unfold unmarshalRaw
  rw [parse_render, rawObject_render]
  simp only [Value.clean, Option.map_some]

end Go.Json
