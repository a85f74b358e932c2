import Mathlib
import PulseAgent.Go.Text

/-!
# Joining and splitting at a separator

`List.splitOn` undoes `join` exactly when no part holds the separator.
-/

namespace Go.Strings

theorem join_eq_intercalate (sep : Bytes) (parts : List Bytes) :
    join sep parts = sep.intercalate parts := by
  induction parts with
  | nil => rfl
  | cons part parts ih =>
    cases parts with
    | nil => simp [join]
    | cons next parts =>
      rw [join, ih, List.intercalate_cons_cons]
      simp

theorem splitOn_join {sep : UInt8} {parts : List Bytes} (hne : parts ≠ [])
    (h : ∀ part ∈ parts, sep ∉ part) : (join [sep] parts).splitOn sep = parts := by
  rw [join_eq_intercalate]
  exact List.splitOn_intercalate sep h hne

theorem join_splitOn (sep : UInt8) (s : Bytes) : join [sep] (s.splitOn sep) = s := by
  rw [join_eq_intercalate]
  exact List.intercalate_splitOn sep

theorem not_mem_of_mem_splitOn {sep : UInt8} {s part : Bytes} (h : part ∈ s.splitOn sep) :
    sep ∉ part := by
  induction s generalizing part with
  | nil =>
    rw [List.splitOn_nil, List.mem_singleton] at h
    exact h ▸ List.not_mem_nil
  | cons b s ih =>
    rw [List.splitOn_cons_eq_if_modifyHead] at h
    split_ifs at h with hsep
    · rcases List.mem_cons.mp h with rfl | h
      · exact List.not_mem_nil
      · exact ih h
    · cases hsplit : s.splitOn sep with
      | nil => exact absurd hsplit (List.splitOn_ne_nil sep s)
      | cons first rest =>
        rw [hsplit] at h ih
        rcases List.mem_cons.mp h with rfl | h
        · refine List.not_mem_cons_of_ne_of_not_mem ?_ (ih List.mem_cons_self)
          exact fun heq => hsep (beq_iff_eq.mpr heq.symm)
        · exact ih (List.mem_cons_of_mem _ h)

theorem join_cons_cons (sep first next : Bytes) (parts : List Bytes) :
    join sep (first :: next :: parts) = first ++ sep ++ join sep (next :: parts) := rfl

theorem join_concat (sep : Bytes) {parts : List Bytes} (hne : parts ≠ []) (part : Bytes) :
    join sep (parts ++ [part]) = join sep parts ++ sep ++ part := by
  induction parts with
  | nil => exact absurd rfl hne
  | cons first parts ih =>
    cases parts with
    | nil => simp [join]
    | cons next parts =>
      have hrest := ih (List.cons_ne_nil _ _)
      rw [List.cons_append] at hrest
      rw [List.cons_append, List.cons_append, join_cons_cons, hrest, join_cons_cons]
      simp only [List.append_assoc]

theorem length_join_append (sep : Bytes) (parts more : List Bytes) :
    (join sep parts).length ≤ (join sep (parts ++ more)).length := by
  induction parts with
  | nil => exact Nat.zero_le _
  | cons first parts ih =>
    cases parts with
    | nil =>
      cases more with
      | nil => exact Nat.le_refl _
      | cons => simp [join]
    | cons next parts =>
      rw [List.cons_append] at ih
      rw [List.cons_append, List.cons_append, join_cons_cons, join_cons_cons]
      simp only [List.length_append]
      omega

end Go.Strings
