import PulseAgent.Contract.Decode
import PulseAgent.Go.JsonTable

/-!
# What the strict decoder accepts

The checks of the strict decoder as one equivalence.
-/

namespace PulseAgent.Contract

open Go Go.Json

theorem scanDocument_ok {document : Bytes} {v : Value} :
    scanDocument document = .ok v ↔ parse document = some v ∧ v.distinct = true := by
  unfold scanDocument parse
  cases parseValue (document.length + 1) document with
  | none => simp
  | some p =>
    obtain ⟨w, rest⟩ := p
    dsimp only
    cases hdistinct : w.distinct with
    | false =>
      simp only [Bool.false_eq_true, if_false, reduceCtorEq, false_iff, not_and]
      intro hparse
      split at hparse
      case isTrue =>
        obtain rfl := Option.some.inj hparse
        simp [hdistinct]
      case isFalse => cases hparse
    | true =>
      simp only [if_true]
      split
      case h_1 hend =>
        simp only [hend, if_true, Except.ok.injEq, Option.some.injEq]
        constructor
        · rintro rfl
          exact ⟨rfl, hdistinct⟩
        · exact And.left
      case h_2 b more hmore =>
        simp only [hmore, List.cons_ne_nil, if_false, reduceCtorEq, false_and, iff_false]
        split <;> simp

theorem decode_ok {α : Type} {c : Codec α} {options : DecodeOptions α} {document : Bytes} {a : α} :
    decode c options document = .ok a ↔
      (0 ≤ options.limit ∧ options.schemaVersion ≠ []) ∧
      (document.length : Int) ≤ options.limit ∧
      ∃ v, parse document = some v ∧ v.distinct = true ∧
        Header.codec.read false v = .ok ⟨options.schemaVersion⟩ ∧ c.read true v = .ok a ∧
        options.validate a = .ok () := by
  constructor
  · intro h
    unfold decode at h
    split_ifs at h with hoptions hsize
    split at h
    case h_1 => cases h
    case h_2 v hscan =>
      obtain ⟨hparse, hdistinct⟩ := scanDocument_ok.mp hscan
      unfold decodeValue at h
      split at h
      case h_1 => cases h
      case h_2 header hheader =>
        split_ifs at h with hversion
        split at h
        case h_1 => cases h
        case h_2 => cases h
        case h_3 value hread =>
          cases hvalidate : options.validate value with
          | error e =>
            rw [hvalidate] at h
            cases h
          | ok _ =>
          rw [hvalidate] at h
          obtain rfl := Except.ok.inj h
          refine ⟨⟨?_, fun hempty => hoptions (.inr hempty)⟩, Int.not_lt.mp hsize, v, hparse,
            hdistinct, ?_, hread, hvalidate⟩
          · exact Int.not_lt.mp fun hlimit => hoptions (.inl hlimit)
          · rw [hheader, ← hversion]
  · rintro ⟨⟨hlimit, hversion⟩, hsize, v, hparse, hdistinct, hheader, hread, hvalidate⟩
    have hscan := scanDocument_ok.mpr ⟨hparse, hdistinct⟩
    have hoptions : ¬(options.limit < 0 ∨ options.schemaVersion = []) := by
      rintro (hnegative | hempty)
      · exact Int.not_lt.mpr hlimit hnegative
      · exact hversion hempty
    rw [decode, if_neg hoptions, if_neg (Int.not_lt.mpr hsize), hscan]
    simp only [decodeValue, hheader, if_true, hread, hvalidate]
    rfl

theorem ok_of_toOption {α : Type} {x : Except Error α} {a : α} (h : x.toOption = some a) :
    x = .ok a := by
  cases x with
  | error e => cases h
  | ok b => rw [Option.some.inj h]

end PulseAgent.Contract
