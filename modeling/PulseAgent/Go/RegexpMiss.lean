import PulseAgent.Go.Ascii
import PulseAgent.Go.Regexp

/-!
# Texts without a match

A pattern that cannot get past one of its classes matches nowhere. `blocked` finds that out for the
texts over an alphabet.
-/

namespace Go.Regexp

variable {α : Type}

theorem class_none {p : Nat → Bool} {c : Cursor} {k : Cursor → Option α}
    (hk : ∀ r rest, c.rest = r :: rest → p r = true →
      k { c with prev := some r, rest := rest } = none) :
    (Regexp.class p).run c k = none := by
  unfold run
  split
  case h_1 => rfl
  case h_2 r rest hrest =>
    split
    case isTrue hr => exact hk r rest hrest hr
    case isFalse => rfl

/-- The pattern reads a rune in any case. -/
def consumes : Regexp → Bool
  | .class _ => true
  | .seq a b => a.consumes || b.consumes
  | .alt a b => a.consumes && b.consumes
  | .group _ a => a.consumes
  | _ => false

/-- A match ends in front of a suffix of the text, a shorter one if the pattern reads a rune. -/
theorem exists_end_of_run {re : Regexp} {c : Cursor} {k : Cursor → Option α} {result : α}
    (h : re.run c k = some result) :
    ∃ c' : Cursor, c'.rest <:+ c.rest ∧
      (re.consumes = true → c'.rest.length < c.rest.length) ∧ k c' = some result := by
  induction re generalizing c k with
  | empty => exact ⟨c, List.suffix_refl _, nofun, h⟩
  | «class» p =>
    unfold run at h
    split at h
    case h_1 => cases h
    case h_2 r rest hrest =>
      split at h
      case isTrue => exact ⟨_, hrest ▸ List.suffix_cons r rest, fun _ => by simp [hrest], h⟩
      case isFalse => cases h
  | seq a b iha ihb =>
    obtain ⟨c1, h1, hless1, h⟩ := iha h
    obtain ⟨c2, h2, hless2, h⟩ := ihb h
    refine ⟨c2, h2.trans h1, fun hconsumes => ?_, h⟩
    obtain ha | hb := (Bool.or_eq_true _ _).mp hconsumes
    · exact h2.length_le.trans_lt (hless1 ha)
    · exact (hless2 hb).trans_le h1.length_le
  | alt a b iha ihb =>
    obtain h | ⟨-, h⟩ := Option.or_eq_some_iff.mp h
    · obtain ⟨c1, h1, hless, h⟩ := iha h
      exact ⟨c1, h1, fun hconsumes => hless ((Bool.and_eq_true _ _).mp hconsumes).1, h⟩
    · obtain ⟨c1, h1, hless, h⟩ := ihb h
      exact ⟨c1, h1, fun hconsumes => hless ((Bool.and_eq_true _ _).mp hconsumes).2, h⟩
  | star greedy a ih =>
    change repeated greedy (fun c k => a.run c k) c.rest.length c k = some result at h
    generalize c.rest.length = fuel at h
    induction fuel generalizing c with
    | zero => exact ⟨c, List.suffix_refl _, nofun, h⟩
    | succ fuel ihf =>
      have hcases : k c = some result ∨ (a.run c fun c' => if c'.rest.length < c.rest.length then
          repeated greedy (fun c k => a.run c k) fuel c' k else none) = some result := by
        cases greedy with
        | true => exact (Option.or_eq_some_iff.mp h).symm.imp And.right id
        | false => exact (Option.or_eq_some_iff.mp h).imp id And.right
      obtain h | h := hcases
      · exact ⟨c, List.suffix_refl _, nofun, h⟩
      · obtain ⟨c1, h1, -, h⟩ := ih h
        split at h
        case isTrue =>
          obtain ⟨c2, h2, -, h⟩ := ihf h
          exact ⟨c2, h2.trans h1, nofun, h⟩
        case isFalse => cases h
  | group index a ih =>
    obtain ⟨c1, h1, hless, h⟩ := ih h
    refine ⟨_, ?_, ?_, h⟩
    · exact h1
    · exact hless
  | wordBoundary =>
    unfold run at h
    split at h
    case isTrue => exact ⟨c, List.suffix_refl _, nofun, h⟩
    case isFalse => cases h
  | endText =>
    unfold run at h
    split at h
    case isTrue => exact ⟨c, List.suffix_refl _, nofun, h⟩
    case isFalse => cases h

theorem run_none (re : Regexp) {c : Cursor} {k : Cursor → Option α}
    (hk : ∀ c' : Cursor, c'.rest <:+ c.rest → k c' = none) : re.run c k = none := by
  refine Option.eq_none_iff_forall_ne_some.mpr fun result h => ?_
  obtain ⟨c', hsuffix, -, h⟩ := exists_end_of_run h
  rw [hk c' hsuffix] at h
  cases h

/-- Over the alphabet the pattern cannot get past some class. -/
def blocked (alphabet : List Nat) : Regexp → Bool
  | .class p => alphabet.all fun r => !p r
  | .seq a b => blocked alphabet a || blocked alphabet b
  | .alt a b => blocked alphabet a && blocked alphabet b
  | .group _ a => blocked alphabet a
  | _ => false

theorem run_of_blocked {alphabet : List Nat} {re : Regexp} (hblocked : re.blocked alphabet = true)
    {c : Cursor} (hc : ∀ r ∈ c.rest, r ∈ alphabet) (k : Cursor → Option α) : re.run c k = none := by
  induction re generalizing c k with
  | «class» p =>
    refine class_none fun r rest hrest hp => ?_
    have hmiss := List.all_eq_true.mp hblocked r (hc r (hrest ▸ List.mem_cons_self))
    rw [hp] at hmiss
    cases hmiss
  | seq a b iha ihb =>
    obtain ha | hb := (Bool.or_eq_true _ _).mp hblocked
    · exact iha ha hc _
    · exact a.run_none fun c1 h1 => ihb hb (fun r hr => hc r (h1.subset hr)) k
  | alt a b iha ihb =>
    obtain ⟨ha, hb⟩ := (Bool.and_eq_true _ _).mp hblocked
    change (a.run c k).or (b.run c k) = none
    rw [iha ha hc, ihb hb hc]
    rfl
  | group index a ih => exact ih hblocked hc _
  | empty => cases hblocked
  | star greedy a => cases hblocked
  | wordBoundary => cases hblocked
  | endText => cases hblocked

/-! ## Searching -/

theorem search_none {re : Regexp} {fuel : Nat} {c : Cursor}
    (hmiss : ∀ c' : Cursor, c'.rest <:+ c.rest → re.matchAt c' = none) :
      re.search fuel c = false := by
  induction fuel generalizing c with
  | zero =>
    unfold search
    rw [hmiss c (List.suffix_refl _)]
    rfl
  | succ fuel ih =>
    unfold search
    rw [hmiss c (List.suffix_refl _)]
    split
    case h_1 => rfl
    case h_2 r rest hrest =>
      exact ih fun c' h' => hmiss c' (h'.trans (hrest ▸ List.suffix_cons r rest))

theorem findAll_none {re : Regexp} {fuel : Nat} {c : Cursor}
    (hmiss : ∀ c' : Cursor, c'.rest <:+ c.rest → re.matchAt c' = none) :
      re.findAll fuel c = [] := by
  induction fuel generalizing c with
  | zero => rfl
  | succ fuel ih =>
    unfold findAll
    rw [hmiss c (List.suffix_refl _)]
    dsimp only
    split
    case h_1 => rfl
    case h_2 r rest hrest =>
      exact ih fun c' h' => hmiss c' (h'.trans (hrest ▸ List.suffix_cons r rest))

section Blocked

variable {alphabet : List Nat} {re : Regexp} {s : Bytes} (hblocked : re.blocked alphabet = true)
  (hs : ∀ r ∈ Utf8.runes s, r ∈ alphabet)
include hblocked hs

theorem matchAt_of_blocked (c : Cursor) (hc : c.rest <:+ Utf8.runes s) : re.matchAt c = none :=
  @run_of_blocked _ _ _ hblocked { c with captures := [] } (fun r hr => hs r (hc.subset hr)) some

theorem matchString_of_blocked : re.matchString s = false :=
  search_none (matchAt_of_blocked hblocked hs)

theorem findAllGroup_of_blocked (index : Nat) : re.findAllGroup index s = [] := by
  unfold findAllGroup
  rw [findAll_none (matchAt_of_blocked hblocked hs)]
  rfl

end Blocked

end Go.Regexp
