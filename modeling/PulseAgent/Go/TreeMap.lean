import Mathlib
import PulseAgent.Go.Text

/-!
# Ordered maps and fixed-width keys

Keys written in a fixed number of decimal digits are ordered as the numbers are.
-/

namespace Go.TreeMap

open Std

section

variable {α β : Type} {cmp : α → α → Ordering} [TransCmp cmp] [LawfulEqCmp cmp]

theorem nodup_toList (t : ExtTreeMap α β cmp) : t.toList.Nodup := by
  refine (ExtTreeMap.ordered_keys_toList (t := t)).imp ?_
  rintro a b hab rfl
  exact absurd (hab.symm.trans ReflCmp.compare_self) (by decide)

theorem toList_insert_perm {t : ExtTreeMap α β cmp} {k : α} {v : β} (h : t[k]? = none) :
    (t.insert k v).toList.Perm ((k, v) :: t.toList) := by
  have habsent : ∀ w, (k, w) ∉ t.toList := by
    intro w hw
    rw [ExtTreeMap.mem_toList_iff_getElem?_eq_some, h] at hw
    cases hw
  rw [List.perm_ext_iff_of_nodup (nodup_toList _)
    (List.nodup_cons.mpr ⟨habsent v, nodup_toList t⟩)]
  rintro ⟨k', v'⟩
  rw [List.mem_cons, ExtTreeMap.mem_toList_iff_getElem?_eq_some, ExtTreeMap.getElem?_insert]
  by_cases hk : cmp k k' = .eq
  · obtain rfl := LawfulEqCmp.eq_of_compare hk
    simp only [hk, if_true, Option.some.injEq, Prod.mk.injEq, true_and, habsent v', or_false]
    exact eq_comm
  · have hne : k' ≠ k := by
      rintro rfl
      exact hk ReflCmp.compare_self
    rw [if_neg hk, ExtTreeMap.mem_toList_iff_getElem?_eq_some]
    simp [hne]

theorem toList_eq_of_mem_iff {t : ExtTreeMap α β cmp} {l : List (α × β)}
    (hsorted : l.Pairwise fun a b => cmp a.1 b.1 = .lt)
    (hmem : ∀ k v, (k, v) ∈ l ↔ t[k]? = some v) : t.toList = l := by
  have hnodup : l.Nodup := by
    refine hsorted.imp ?_
    rintro a b hab rfl
    exact absurd (hab.symm.trans ReflCmp.compare_self) (by decide)
  have hperm : t.toList.Perm l := by
    rw [List.perm_ext_iff_of_nodup (nodup_toList t) hnodup]
    rintro ⟨k, v⟩
    rw [ExtTreeMap.mem_toList_iff_getElem?_eq_some, hmem]
  refine List.Perm.eq_of_pairwise ?_ ExtTreeMap.ordered_keys_toList hsorted hperm
  intro a b _ _ hab hba
  exact absurd hba (OrientedCmp.not_lt_of_lt hab)

theorem toList_insert_of_some [DecidableEq α] {t : ExtTreeMap α β cmp} {k : α} {v w : β}
    (h : t[k]? = some w) :
    (t.insert k v).toList = t.toList.map fun entry => if entry.1 = k then (k, v) else entry := by
  refine toList_eq_of_mem_iff ?_ ?_
  · refine List.pairwise_map.mpr (ExtTreeMap.ordered_keys_toList.imp ?_)
    intro a b hab
    have hkey : ∀ entry : α × β, (if entry.1 = k then (k, v) else entry).1 = entry.1 := by
      intro entry
      split
      case isTrue heq => exact heq.symm
      case isFalse => rfl
    rw [hkey, hkey]
    exact hab
  · intro k' v'
    rw [List.mem_map, ExtTreeMap.getElem?_insert]
    by_cases hk : cmp k k' = .eq
    · obtain rfl := LawfulEqCmp.eq_of_compare hk
      rw [if_pos hk]
      constructor
      · rintro ⟨entry, -, hentry⟩
        split at hentry
        case isTrue => exact congrArg some (Prod.mk.inj hentry).2
        case isFalse hne => exact absurd (congrArg Prod.fst hentry) hne
      · intro hv
        cases hv
        exact ⟨(k, w), ExtTreeMap.mem_toList_iff_getElem?_eq_some.mpr h, if_pos rfl⟩
    · rw [if_neg hk]
      have hne : k' ≠ k := by
        rintro rfl
        exact hk ReflCmp.compare_self
      rw [← ExtTreeMap.mem_toList_iff_getElem?_eq_some]
      constructor
      · rintro ⟨entry, hmem, hentry⟩
        split at hentry
        case isTrue => exact absurd (Prod.mk.inj hentry).1.symm hne
        case isFalse => exact hentry ▸ hmem
      · intro hmem
        exact ⟨(k', v'), hmem, if_neg hne⟩

theorem toList_erase [DecidableEq α] {t : ExtTreeMap α β cmp} (k : α) :
    (t.erase k).toList = t.toList.filter fun entry => entry.1 ≠ k := by
  refine toList_eq_of_mem_iff (ExtTreeMap.ordered_keys_toList.filter _) ?_
  intro k' v
  rw [List.mem_filter, ExtTreeMap.mem_toList_iff_getElem?_eq_some, ExtTreeMap.getElem?_erase]
  by_cases h : k' = k
  · subst h
    simp [ReflCmp.compare_self]
  · have hne : cmp k k' ≠ .eq := fun heq => h (LawfulEqCmp.eq_of_compare heq).symm
    simp [h, hne]

theorem toList_insert_last {t : ExtTreeMap α β cmp} {k : α} {v : β}
    (h : ∀ entry ∈ t.toList, cmp entry.1 k = .lt) :
      (t.insert k v).toList = t.toList ++ [(k, v)] := by
  refine toList_eq_of_mem_iff ?_ ?_
  · refine List.pairwise_append.mpr
      ⟨ExtTreeMap.ordered_keys_toList, List.pairwise_singleton _ _, ?_⟩
    intro a ha b hb
    rw [List.mem_singleton.mp hb]
    exact h a ha
  · intro k' v'
    rw [List.mem_append, ExtTreeMap.mem_toList_iff_getElem?_eq_some, ExtTreeMap.getElem?_insert,
      List.mem_singleton]
    by_cases hk : cmp k k' = .eq
    · obtain rfl := LawfulEqCmp.eq_of_compare hk
      have hnone : t[k]? = none := by
        cases hv : t[k]? with
        | none => rfl
        | some w =>
          have hlt := h _ (ExtTreeMap.mem_toList_iff_getElem?_eq_some.mpr hv)
          exact absurd (hlt.symm.trans ReflCmp.compare_self) (by decide)
      simp only [hk, if_true, hnone, reduceCtorEq, Prod.mk.injEq, true_and, false_or,
        Option.some.injEq]
      exact eq_comm
    · have hne : k' ≠ k := by
        rintro rfl
        exact hk ReflCmp.compare_self
      simp [hk, hne]

end

theorem pad_mod (w n : Nat) : Decimal.pad w n = Decimal.pad w (n % 10 ^ w) := by
  induction w generalizing n with
  | zero => rfl
  | succ w ih =>
    have hdiv : n % 10 ^ (w + 1) / 10 = n / 10 % 10 ^ w := by
      rw [pow_succ, Nat.mod_mul_left_div_self]
    have hlast : n % 10 ^ (w + 1) % 10 = n % 10 :=
      Nat.mod_mod_of_dvd n (Dvd.intro_left (10 ^ w) (pow_succ 10 w).symm)
    rw [Decimal.pad, Decimal.pad, hdiv, hlast, ← ih]

theorem compare_digit : ∀ d < 10, ∀ e < 10, d < e →
    compare (Decimal.digit d) (Decimal.digit e) = .lt := by
  decide

theorem compare_pad {w m n : Nat} (hlt : m < n) (hn : n < 10 ^ w) :
    compare (Decimal.pad w m) (Decimal.pad w n) = .lt := by
  induction w generalizing m n with
  | zero =>
    rw [pow_zero] at hn
    omega
  | succ w ih =>
    have hpow : 0 < 10 ^ w := by positivity
    have hdm : m / 10 ^ w < 10 := (Nat.div_lt_iff_lt_mul hpow).mpr (by rw [← pow_succ']; omega)
    have hdn : n / 10 ^ w < 10 := (Nat.div_lt_iff_lt_mul hpow).mpr (by rw [← pow_succ']; omega)
    have hle : m / 10 ^ w ≤ n / 10 ^ w := Nat.div_le_div_right (Nat.le_of_lt hlt)
    rw [Decimal.pad_succ_head, Decimal.pad_succ_head, Nat.mod_eq_of_lt hdm, Nat.mod_eq_of_lt hdn]
    refine List.compareLex_cons_cons.trans ?_
    rcases Nat.lt_or_eq_of_le hle with hd | hd
    · rw [compare_digit _ hdm _ hdn hd]
      rfl
    · -- equal leading digits: the remainders decide
      have hmod : ∀ k, Decimal.pad w k = Decimal.pad w (k % 10 ^ w) := pad_mod w
      have hm := Nat.div_add_mod m (10 ^ w)
      have hn' := Nat.div_add_mod n (10 ^ w)
      have hrest := ih (m := m % 10 ^ w) (n := n % 10 ^ w) (by rw [hd] at hm; omega)
        (Nat.mod_lt _ hpow)
      have hself : compare (Decimal.digit (n / 10 ^ w)) (Decimal.digit (n / 10 ^ w)) = .eq :=
        ReflCmp.compare_self
      rw [hd, hmod m, hmod n, hself]
      exact hrest

end Go.TreeMap
