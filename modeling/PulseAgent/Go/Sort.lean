import Mathlib.Data.List.Sort
import PulseAgent.Go.TreeMap

/-!
# Sorting by a text key

With distinct keys the result is the only increasing arrangement, whatever algorithm finds it.
-/

namespace Go

section

variable {α : Type} {key : α → Bytes} {l l' : List α}

def keyLE (key : α → Bytes) (a b : α) : Bool := (compare (key a) (key b)).isLE

/-- The key of each element is below those of the later ones. -/
def Increasing (key : α → Bytes) (l : List α) : Prop :=
  l.Pairwise fun a b => compare (key a) (key b) = .lt

def sortBy (key : α → Bytes) (l : List α) : List α := l.mergeSort (keyLE key)

theorem sortBy_perm (key : α → Bytes) (l : List α) : (sortBy key l).Perm l :=
  List.mergeSort_perm l _

@[simp] theorem mem_sortBy {a : α} : a ∈ sortBy key l ↔ a ∈ l := (sortBy_perm key l).mem_iff

@[simp] theorem length_sortBy (key : α → Bytes) (l : List α) : (sortBy key l).length = l.length :=
  (sortBy_perm key l).length_eq

theorem pairwise_sortBy (key : α → Bytes) (l : List α) :
    (sortBy key l).Pairwise fun a b => keyLE key a b = true := by
  apply List.pairwise_mergeSort
  · intro a b c hab hbc
    exact Std.TransCmp.isLE_trans hab hbc
  · intro a b
    have hswap : compare (key b) (key a) = (compare (key a) (key b)).swap :=
      Std.OrientedCmp.eq_swap
    rw [keyLE, keyLE, hswap]
    cases compare (key a) (key b) <;> rfl

theorem map_sortBy (key : α → Bytes) (l : List α) :
    (sortBy key l).map key = sortBy id (l.map key) := by
  refine List.Perm.eq_of_pairwise ?_ (List.pairwise_map.mpr (pairwise_sortBy key l))
    (pairwise_sortBy id (l.map key)) (((sortBy_perm key l).map key).trans (sortBy_perm id _).symm)
  intro a b _ _ hab hba
  have hswap : compare b a = (compare a b).swap := Std.OrientedCmp.eq_swap
  simp only [keyLE, id, hswap] at hab hba
  cases hcompare : compare a b with
  | eq => exact Std.LawfulEqCmp.eq_of_compare hcompare
  | lt =>
    rw [hcompare] at hba
    cases hba
  | gt =>
    rw [hcompare] at hab
    cases hab

theorem increasing_of_pairwise_le (hle : l.Pairwise fun a b => keyLE key a b = true)
    (hnodup : (l.map key).Nodup) : Increasing key l := by
  have hne : l.Pairwise fun a b => key a ≠ key b := List.pairwise_map.mp hnodup
  refine (hle.and hne).imp ?_
  rintro a b ⟨hab, hkey⟩
  rw [keyLE, Ordering.isLE_iff_eq_lt_or_eq_eq] at hab
  exact hab.resolve_right fun heq => hkey (Std.LawfulEqCmp.eq_of_compare heq)

theorem increasing_sortBy (h : (l.map key).Nodup) : Increasing key (sortBy key l) :=
  increasing_of_pairwise_le (pairwise_sortBy key l) (((sortBy_perm key l).map key).nodup_iff.mpr h)

theorem Increasing.eq_of_perm (h : Increasing key l) (h' : Increasing key l') (hperm : l.Perm l') :
    l = l' := by
  refine List.Perm.eq_of_pairwise ?_ h h' hperm
  intro a b _ _ hab hba
  exact absurd hba (Std.OrientedCmp.not_lt_of_lt hab)

theorem sortBy_eq_of_perm (h : (l.map key).Nodup) (hperm : l.Perm l') :
    sortBy key l = sortBy key l' :=
  (increasing_sortBy h).eq_of_perm (increasing_sortBy ((hperm.map key).nodup_iff.mp h))
    (((sortBy_perm key l).trans hperm).trans (sortBy_perm key l').symm)

end

end Go
