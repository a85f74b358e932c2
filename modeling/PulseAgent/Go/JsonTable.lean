import PulseAgent.Go.JsonCodec
import PulseAgent.Go.TreeMap

/-!
# Maps and unsigned integers

A map is written in the order of its keys; its members are stored one by one, each read from the
zero value.
-/

namespace Go.Json

open Std

namespace Codec

def readUInt64 (n : Number) : Option UInt64 :=
  match Number.toInt n with
  | some i => if 0 ≤ i ∧ i.toNat < UInt64.size then some (UInt64.ofNat i.toNat) else none
  | none => none

theorem readUInt64_ofInt (x : UInt64) : readUInt64 (Number.ofInt x.toNat) = some x := by
  simp only [readUInt64, toInt_ofInt, Int.toNat_natCast]
  rw [if_pos ⟨Int.natCast_nonneg _, x.toNat_lt⟩, UInt64.ofNat_toNat]

def uint64 : Codec UInt64 where
  zero := 0
  encode x := some (.num (Number.ofInt x.toNat))
  decode _ v cur :=
    match v with
    | .num n =>
      match readUInt64 n with
      | some x => some (x, none)
      | none => some (cur, some .mismatch)
    | .null => some (cur, none)
    | _ => some (cur, some .mismatch)
  norm := id
  sound := by
    intro strict x v h
    rw [← Option.some.inj h]
    simp only [Value.clean, readUInt64_ofInt, id_eq]
  distinct := by
    intro x v h
    rw [← Option.some.inj h]
    simp only [Value.clean, Value.distinct]

end Codec

/-! ## Maps -/

/-- A map whose keys are valid UTF-8. -/
structure TextMap (α : Type) where
  entries : ExtTreeMap Bytes α
  valid : ∀ entry ∈ entries.toList, Utf8.validString entry.1 = true
deriving DecidableEq

namespace TextMap

variable {α : Type}

def empty : TextMap α :=
  ⟨∅, fun entry h => by
    rw [ExtTreeMap.mem_toList_iff_getElem?_eq_some, ExtTreeMap.getElem?_empty] at h
    cases h⟩

theorem valid_insert {m : ExtTreeMap Bytes α} {key : Bytes} {a : α}
    (hkey : Utf8.validString key = true)
    (h : ∀ entry ∈ m.toList, Utf8.validString entry.1 = true) :
    ∀ entry ∈ (m.insert key a).toList, Utf8.validString entry.1 = true := by
  intro entry hentry
  rw [ExtTreeMap.mem_toList_iff_getElem?_eq_some, ExtTreeMap.getElem?_insert] at hentry
  split at hentry
  case isTrue heq =>
    rw [← LawfulEqCmp.eq_of_compare heq]
    exact hkey
  case isFalse => exact h entry (ExtTreeMap.mem_toList_iff_getElem?_eq_some.mpr hentry)

/-- Stores one entry; no document has a key that is not valid UTF-8. -/
def insert (m : TextMap α) (key : Bytes) (a : α) : TextMap α :=
  if h : Utf8.validString key = true then ⟨m.entries.insert key a, valid_insert h m.valid⟩ else m

end TextMap

namespace Codec

variable {α : Type} (c : Codec α)

def encodeEntries : List (Bytes × α) → Option (List (Bytes × Value))
  | [] => some []
  | (key, a) :: entries => do
    let v ← c.encode a
    let rest ← encodeEntries entries
    return (key, v) :: rest

def decodeEntries (strict : Bool) : List (Bytes × Value) → TextMap α → Decoded (TextMap α)
  | [], m => some (m, none)
  | (key, v) :: ms, m =>
    match c.decode strict v c.zero with
    | none => none
    | some (a, fault) =>
      (decodeEntries strict ms (m.insert key a)).map fun r => (r.1, fault.or r.2)

theorem encodeEntries_cons {key : Bytes} {a : α} {entries : List (Bytes × α)}
    {ms : List (Bytes × Value)} (h : c.encodeEntries ((key, a) :: entries) = some ms) :
    ∃ v rest, c.encode a = some v ∧ c.encodeEntries entries = some rest ∧
      ms = (key, v) :: rest := by
  simp only [encodeEntries, Option.bind_eq_bind, Option.bind_eq_some_iff, Option.pure_def,
    Option.some.injEq] at h
  obtain ⟨v, hv, rest, hrest, rfl⟩ := h
  exact ⟨v, rest, hv, hrest, rfl⟩

def insertAll (entries : List (Bytes × α)) (m : TextMap α) : TextMap α :=
  entries.foldl (fun m entry => m.insert entry.1 (c.norm entry.2)) m

theorem decodeEntries_encodeEntries (strict : Bool) {entries : List (Bytes × α)}
    {ms : List (Bytes × Value)} (hvalid : ∀ entry ∈ entries, Utf8.validString entry.1 = true)
    (h : c.encodeEntries entries = some ms) (m : TextMap α) :
    c.decodeEntries strict (cleanMembers ms) m = some (c.insertAll entries m, none) := by
  induction entries generalizing ms m with
  | nil =>
    cases h
    rfl
  | cons entry entries ih =>
    obtain ⟨key, a⟩ := entry
    obtain ⟨hkey, hrest⟩ := List.forall_mem_cons.mp hvalid
    obtain ⟨v, rest, hv, hencode, rfl⟩ := c.encodeEntries_cons h
    simp only [cleanMembers, decodeEntries, Utf8.toValidUTF8_of_valid hkey, c.sound strict a v hv,
      ih hrest hencode]
    rfl

theorem encodeEntries_names {entries : List (Bytes × α)} {ms : List (Bytes × Value)}
    (h : c.encodeEntries entries = some ms) : ms.map Prod.fst = entries.map Prod.fst := by
  induction entries generalizing ms with
  | nil =>
    cases h
    rfl
  | cons entry entries ih =>
    obtain ⟨v, rest, -, hrest, rfl⟩ := c.encodeEntries_cons h
    rw [List.map_cons, List.map_cons, ih hrest]

theorem distinctMembers_encodeEntries {entries : List (Bytes × α)} {ms : List (Bytes × Value)}
    (h : c.encodeEntries entries = some ms) : distinctMembers (cleanMembers ms) = true := by
  induction entries generalizing ms with
  | nil =>
    cases h
    rfl
  | cons entry entries ih =>
    obtain ⟨v, rest, hv, hrest, rfl⟩ := c.encodeEntries_cons h
    rw [cleanMembers, distinctMembers, c.distinct _ v hv, ih hrest, Bool.and_self]

theorem nodup_keys {β : Type} (m : ExtTreeMap Bytes β) : (m.toList.map Prod.fst).Nodup := by
  rw [List.Nodup, List.pairwise_map]
  refine (ExtTreeMap.ordered_keys_toList (t := m)).imp ?_
  intro a b hab heq
  have hself : compare b.1 b.1 = .eq := ReflCmp.compare_self
  rw [heq, hself] at hab
  cases hab

/-- A Go map with string keys; `none` is the nil map, which is written as `null`. -/
def table : Codec (Option (TextMap α)) where
  zero := none
  encode
    | none => some .null
    | some m => (c.encodeEntries m.entries.toList).map .obj
  decode strict v cur :=
    match v with
    | .obj ms => (c.decodeEntries strict ms (cur.getD .empty)).map fun r => (some r.1, r.2)
    | .null => some (none, none)
    | _ => some (cur, some .mismatch)
  norm := Option.map fun m => c.insertAll m.entries.toList .empty
  sound := by
    intro strict m v h
    cases m with
    | none =>
      cases h
      rfl
    | some m =>
      obtain ⟨ms, hms, rfl⟩ := Option.map_eq_some_iff.mp h
      simp only [Value.clean, Option.getD_none, c.decodeEntries_encodeEntries strict m.valid hms,
        Option.map_some]
  distinct := by
    intro m v h
    cases m with
    | none =>
      cases h
      rfl
    | some m =>
      obtain ⟨ms, hms, rfl⟩ := Option.map_eq_some_iff.mp h
      have hnames := c.encodeEntries_names hms
      have hclean : (cleanMembers ms).map Prod.fst = ms.map Prod.fst := by
        refine Member.cleanMembers_names fun key hkey => ?_
        rw [hnames] at hkey
        obtain ⟨entry, hentry, rfl⟩ := List.mem_map.mp hkey
        exact m.valid entry hentry
      simp only [Value.clean, Value.distinct, hclean, hnames, nodup_keys, decide_true,
        c.distinctMembers_encodeEntries hms, Bool.and_self]

end Codec

end Go.Json
