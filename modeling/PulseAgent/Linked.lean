import Mathlib.Data.List.Infix

/-!
# Lists linked by digests

Where elements with the same digest are equal, the digest of the last element determines the list.
-/

namespace Linked

variable {α δ : Type} (digest previous : α → δ)

/-- Every element names the digest in front of it, `root` in front of the first. -/
def Chained : δ → List α → Prop
  | _, [] => True
  | root, a :: l => previous a = root ∧ Chained (digest a) l

/-- The digest of the last element, or the root. -/
def head (root : δ) (l : List α) : δ := l.foldl (fun _ a => digest a) root

variable {digest previous} {root : δ} {a : α} {l l' : List α}

theorem head_concat : head digest root (l ++ [a]) = digest a := by
  rw [head, List.foldl_append]
  rfl

theorem chained_concat : Chained digest previous root (l ++ [a]) ↔
    Chained digest previous root l ∧ previous a = head digest root l := by
  induction l generalizing root with
  | nil => exact and_comm
  | cons b l ih => exact (and_congr_right fun _ => ih).trans and_assoc.symm

/-- The last digest commits to the whole list. -/
theorem eq_of_head_eq (h : Chained digest previous root l) (h' : Chained digest previous root l')
    (hroot : ∀ a ∈ l, digest a ≠ root) (hroot' : ∀ a ∈ l', digest a ≠ root)
    (hinj : ∀ a ∈ l, ∀ b ∈ l', digest a = digest b → a = b)
    (heq : head digest root l = head digest root l') : l = l' := by
  induction l using List.reverseRecOn generalizing l' with
  | nil =>
    induction l' using List.reverseRecOn with
    | nil => rfl
    | append_singleton l' b _ =>
      rw [head_concat] at heq
      exact absurd heq.symm (hroot' b (by simp))
  | append_singleton l a ih =>
    induction l' using List.reverseRecOn with
    | nil =>
      rw [head_concat] at heq
      exact absurd heq (hroot a (by simp))
    | append_singleton l' b _ =>
      rw [head_concat, head_concat] at heq
      obtain rfl := hinj a (by simp) b (by simp) heq
      obtain ⟨hl, hprev⟩ := chained_concat.mp h
      obtain ⟨hl', hprev'⟩ := chained_concat.mp h'
      -- both lists go on backwards from the digest the last element names
      rw [ih hl hl' (fun x hx => hroot x (List.mem_append_left _ hx))
        (fun x hx => hroot' x (List.mem_append_left _ hx))
        (fun x hx y hy => hinj x (List.mem_append_left _ hx) y (List.mem_append_left _ hy))
        (hprev.symm.trans hprev')]

end Linked
