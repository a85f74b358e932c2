import PulseAgent.Go.JsonSize

/-!
# JSON on one line

A rendered document holds no control byte.
-/

namespace Go.Json

def Printable (b : UInt8) : Prop := 32 ≤ b

instance (b : UInt8) : Decidable (Printable b) := inferInstanceAs (Decidable (_ ≤ _))

theorem printable_of_all {s : Bytes} (h : (s.all fun b => decide (Printable b)) = true) :
    ∀ b ∈ s, Printable b := fun b hb => of_decide_eq_true (List.all_eq_true.mp h b hb)

theorem printable_hexDigit : ∀ n, n < 16 → Printable (Hex.digit n) := by decide

theorem printable_unicodeEscape (n : Nat) : ∀ b ∈ unicodeEscape n, Printable b := by
  have hdigit (k : Nat) : Printable (Hex.digit (k % 16)) :=
    printable_hexDigit _ (Nat.mod_lt _ (by decide))
  simp only [unicodeEscape, List.forall_mem_cons, hdigit, List.not_mem_nil, false_imp_iff,
    implies_true, and_true]
  decide

theorem printable_shortEscape {b e : UInt8} (h : shortEscape b = some e) : Printable e := by
  have hall : ∀ n : Fin 256, ∀ e, shortEscape (UInt8.ofNat n.val) = some e → Printable e := by
    decide +kernel
  have hb := hall ⟨b.toNat, b.toNat_lt⟩ e
  simp only [UInt8.ofNat_toNat] at hb
  exact hb h

theorem printable_escapeAscii (b : UInt8) : ∀ x ∈ escapeAscii b, Printable x := by
  unfold escapeAscii
  cases he : shortEscape b with
  | some e =>
    simp only [List.forall_mem_cons, List.not_mem_nil, false_imp_iff, implies_true, and_true]
    exact ⟨by decide, printable_shortEscape he⟩
  | none =>
    dsimp only
    split_ifs with hescape
    · exact printable_unicodeEscape _
    · simp only [Bool.or_eq_true, decide_eq_true_eq, not_or] at hescape
      exact List.forall_mem_singleton.mpr (UInt8.not_lt.mp hescape.1.1.1)

theorem printable_escape (s : Bytes) : ∀ b ∈ escape s, Printable b := by
  induction s using Utf8.pieces_induction with
  | nil => nofun
  | bad b rest h ih =>
    rw [escape_bad h, escapePiece]
    exact List.forall_mem_append.mpr ⟨printable_unicodeEscape _, ih⟩
  | rune b rest w h ih =>
    rw [escape_rune h]
    refine List.forall_mem_append.mpr ⟨?_, ih⟩
    rcases rune_ascii_or_high h with ⟨rfl, hb⟩ | ⟨hw, hhigh⟩
    · exact printable_escapeAscii b
    · rw [escapePiece_high h hw]
      split_ifs
      · exact printable_unicodeEscape _
      · exact printable_unicodeEscape _
      · exact fun x hx => UInt8.le_trans (by decide) (hhigh x hx)

theorem printable_quote (s : Bytes) : ∀ b ∈ quote s, Printable b :=
  List.forall_mem_cons.mpr ⟨by decide, List.forall_mem_append.mpr
    ⟨printable_escape s, List.forall_mem_singleton.mpr (by decide)⟩⟩

theorem printable_digit {b : UInt8} (h : Decimal.isDigit b = true) : Printable b := by
  have hall : ∀ n : Fin 256, Decimal.isDigit (UInt8.ofNat n.val) = true →
      Printable (UInt8.ofNat n.val) := by
    decide +kernel
  have hb := hall ⟨b.toNat, b.toNat_lt⟩
  simp only [UInt8.ofNat_toNat] at hb
  exact hb h

theorem printable_formatNat (n : Nat) : ∀ b ∈ Decimal.formatNat n, Printable b :=
  fun b hb => printable_digit (Decimal.formatNat_isDigit n b hb)

theorem printable_number (n : Number) : ∀ b ∈ n.render, Printable b := by
  unfold Number.render
  refine List.forall_mem_append.mpr ⟨?_, List.forall_mem_append.mpr ⟨printable_formatNat _,
    List.forall_mem_append.mpr ⟨?_, ?_⟩⟩⟩
  · split_ifs <;> decide +kernel
  · cases n.frac with
    | nil => nofun
    | cons d ds =>
      refine List.forall_mem_cons.mpr ⟨by decide, fun b hb => ?_⟩
      obtain ⟨c, -, rfl⟩ := List.mem_map.mp hb
      exact printable_digit (Decimal.isDigit_digit c.val c.isLt)
  · cases n.exp with
    | none => nofun
    | some e =>
      refine List.forall_mem_cons.mpr
        ⟨by decide, List.forall_mem_cons.mpr ⟨?_, printable_formatNat _⟩⟩
      split_ifs <;> decide

mutual
theorem printable_render : ∀ (v : Value), ∀ b ∈ render v, Printable b
  | .null => by
    simp only [render]
    exact printable_of_all (by decide)
  | .bool true => by
    simp only [render]
    exact printable_of_all (by decide)
  | .bool false => by
    simp only [render]
    exact printable_of_all (by decide)
  | .num n => by
    simp only [render]
    exact printable_number n
  | .str s => by
    simp only [render]
    exact printable_quote s
  | .arr [] => by
    simp only [render]
    exact printable_of_all (by decide)
  | .obj [] => by
    simp only [render]
    exact printable_of_all (by decide)
  | .arr (v :: vs) => by
    simp only [render, List.forall_mem_cons, List.forall_mem_append]
    exact ⟨by decide, printable_render v, printable_renderItems vs⟩
  | .obj ((k, v) :: ms) => by
    simp only [render, List.forall_mem_cons, List.forall_mem_append]
    exact ⟨by decide, printable_quote k, by decide, printable_render v, printable_renderMembers ms⟩

theorem printable_renderItems : ∀ (vs : List Value), ∀ b ∈ renderItems vs, Printable b
  | [] => by
    simp only [renderItems]
    exact printable_of_all (by decide)
  | v :: vs => by
    simp only [renderItems, List.forall_mem_cons, List.forall_mem_append]
    exact ⟨by decide, printable_render v, printable_renderItems vs⟩

theorem printable_renderMembers : ∀ (ms : List (Bytes × Value)), ∀ b ∈ renderMembers ms, Printable b
  | [] => by
    simp only [renderMembers]
    exact printable_of_all (by decide)
  | (k, v) :: ms => by
    simp only [renderMembers, List.forall_mem_cons, List.forall_mem_append]
    exact ⟨by decide, printable_quote k, by decide, printable_render v, printable_renderMembers ms⟩
end

end Go.Json
