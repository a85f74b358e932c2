import PulseAgent.Go.Regexp
import PulseAgent.Go.Text

/-!
# ASCII strings

A string whose runes are all below 128 has one byte for each rune, since a stray byte reads as
U+FFFD.
-/

namespace Go.Utf8

theorem runes_rune {b : UInt8} {rest : Bytes} {w : Nat} (h : runeWidth (b :: rest) = w + 1) :
    runes (b :: rest) = decodeRune (b :: rest.take w) :: runes (rest.drop w) := by
  rw [runes, pieces_rune h]
  rfl

theorem runes_cons {b : UInt8} {s : Bytes} (hb : b < 128) :
    runes (b :: s) = b.toNat :: runes s := by
  have hfollowing : following b = some [] := by simp [following, hb]
  exact runes_rune (w := 0) (runeWidth_of_passes hfollowing rfl)

theorem runes_ascii {s : Bytes} (h : ∀ b ∈ s, b < 128) : runes s = s.map UInt8.toNat := by
  induction s with
  | nil => rfl
  | cons b s ih =>
    obtain ⟨hb, hs⟩ := List.forall_mem_cons.mp h
    rw [runes_cons hb, ih hs, List.map_cons]

/-! An ASCII byte ends whatever stands before it. -/

theorem test_ascii {b0 b : UInt8} {tests : List (UInt8 → Bool)} (h : following b0 = some tests)
    (hb : b < 128) : ∀ test ∈ tests, test b = false := by
  have hcont : cont b = false := by simp [cont, UInt8.not_le.mpr hb]
  have hle : ∀ lo : UInt8, 128 ≤ lo → decide (lo ≤ b) = false := fun lo hlo =>
    decide_eq_false fun h => UInt8.not_le.mpr hb (UInt8.le_trans hlo h)
  have h3 : second3 b0 b = false := by
    unfold second3
    split_ifs <;> simp [hcont, hle]
  have h4 : second4 b0 b = false := by
    unfold second4
    split_ifs <;> simp [hcont, hle]
  unfold following at h
  split_ifs at h <;> cases h <;> simp [hcont, h3, h4]

theorem passes_append_ascii {tests : List (UInt8 → Bool)} {b : UInt8}
    (h : ∀ test ∈ tests, test b = false) (s t : Bytes) :
    passes tests (s ++ b :: t) = passes tests s := by
  induction tests generalizing s with
  | nil => rfl
  | cons test tests ih =>
    cases s with
    | nil => simp [passes, h test List.mem_cons_self]
    | cons a s => simp only [List.cons_append, passes, ih fun p hp => h p (.tail _ hp)]

theorem runeWidth_append_ascii {b : UInt8} (hb : b < 128) (a : UInt8) (s t : Bytes) :
    runeWidth (a :: (s ++ b :: t)) = runeWidth (a :: s) := by
  cases hfollowing : following a with
  | none => simp only [runeWidth, hfollowing]
  | some tests =>
    simp only [runeWidth, hfollowing, passes_append_ascii (test_ascii hfollowing hb)]

theorem pieces_append_ascii {b : UInt8} (hb : b < 128) (s t : Bytes) :
    pieces (s ++ b :: t) = pieces s ++ .rune [b] :: pieces t := by
  induction s using pieces_induction with
  | nil =>
    have hfollowing : following b = some [] := by simp [following, hb]
    exact pieces_rune (w := 0) (runeWidth_of_passes hfollowing rfl)
  | bad a rest h ih =>
    rw [List.cons_append, pieces_bad ((runeWidth_append_ascii hb a rest t).trans h), pieces_bad h,
      ih, List.cons_append]
  | rune a rest w h ih =>
    have hlen := runeWidth_le_length (a :: rest)
    rw [h, List.length_cons, Nat.add_le_add_iff_right] at hlen
    rw [List.cons_append, pieces_rune ((runeWidth_append_ascii hb a rest t).trans h),
      pieces_rune h, List.take_append_of_le_length hlen, List.drop_append_of_le_length hlen, ih,
      List.cons_append]

theorem runes_append_ascii {b : UInt8} (hb : b < 128) (s t : Bytes) :
    runes (s ++ b :: t) = runes s ++ b.toNat :: runes t := by
  simp only [runes, pieces_append_ascii hb, List.map_append, List.map_cons]
  rfl

theorem validString_append_ascii {b : UInt8} (hb : b < 128) (s t : Bytes) :
    validString (s ++ b :: t) = (validString s && validString t) := by
  simp only [validString, pieces_append_ascii hb, List.all_append, List.all_cons, Piece.isRune,
    Bool.true_and]

end Go.Utf8

namespace Go.Strings

theorem dropRunes_self {runes : List Bytes} {s : Bytes}
    (h : ∀ rune ∈ runes, ∃ b ∈ rune, b ∉ s) (fuel : Nat) : dropRunes runes fuel s = s := by
  cases fuel with
  | zero => rfl
  | succ fuel =>
    have hnone : runes.find? (·.isPrefixOf s) = none := by
      refine List.find?_eq_none.mpr fun rune hrune hhead => ?_
      obtain ⟨b, hb, hs⟩ := h rune hrune
      exact hs ((List.isPrefixOf_iff_prefix.mp hhead).subset hb)
    unfold dropRunes
    rw [hnone]

theorem trimSpace_self {alphabet s : Bytes}
    (halphabet : spaceRunes.all (fun rune => rune.any fun b => !alphabet.contains b) = true)
    (hs : ∀ b ∈ s, b ∈ alphabet) : trimSpace s = s := by
  have hrunes : ∀ rune ∈ spaceRunes, ∃ b ∈ rune, b ∉ s := by
    intro rune hrune
    obtain ⟨b, hb, hother⟩ := List.any_eq_true.mp (List.all_eq_true.mp halphabet rune hrune)
    refine ⟨b, hb, fun h => ?_⟩
    rw [List.contains_iff_mem.mpr (hs b h)] at hother
    cases hother
  have hreversed : ∀ rune ∈ spaceRunes.map List.reverse, ∃ b ∈ rune, b ∉ s.reverse := by
    intro rune hrune
    obtain ⟨rune, hspace, rfl⟩ := List.mem_map.mp hrune
    obtain ⟨b, hb, hother⟩ := hrunes rune hspace
    exact ⟨b, List.mem_reverse.mpr hb, fun h => hother (List.mem_reverse.mp h)⟩
  rw [trimSpace, trimLeftSpace, dropRunes_self hrunes, trimRightSpace, dropRunes_self hreversed,
    List.reverse_reverse]

end Go.Strings

namespace Go.Hex

theorem digit_mem : ∀ n, n < 16 → digit n ∈ lit "0123456789abcdef" := by decide

theorem mem_encode {s : Bytes} {b : UInt8} (h : b ∈ encode s) : b ∈ lit "0123456789abcdef" := by
  obtain ⟨c, -, hb⟩ := List.mem_flatMap.mp h
  have hc := c.toNat_lt
  simp only [List.mem_cons, List.not_mem_nil, or_false] at hb
  obtain rfl | rfl := hb
  · exact digit_mem _ (by omega)
  · exact digit_mem _ (by omega)

end Go.Hex
