import PulseAgent.Go.RegexpMiss

/-!
# Matches in a text that is put together

Two texts that differ behind a separator have the same matches in front of it, unless a match
reaches over the separator.
-/

namespace Go.Regexp

variable {α β : Type}

/-- No class of the pattern takes the rune. -/
def rejects (r : Nat) : Regexp → Bool
  | .class p => !p r
  | .seq a b => rejects r a && rejects r b
  | .alt a b => rejects r a && rejects r b
  | .star _ a => rejects r a
  | .group _ a => rejects r a
  | _ => true

/-- Two cursors in the same suffix of `t`, with different tails behind it. -/
structure Alike (t u v : List Nat) (c c' : Cursor) : Prop where
  prev : c.prev.any isWord = c'.prev.any isWord
  captures : c.captures = c'.captures
  rest : ∃ y, y <:+ t ∧ c.rest = y ++ u ∧ c'.rest = y ++ v

namespace Alike

variable {t u v : List Nat} {c c' d d' : Cursor} {s : Nat}

theorem advance {r : Nat} {y : List Nat} (h : Alike t u v c c') (hy : r :: y <:+ t) :
    Alike t u v { c with prev := some r, rest := y ++ u }
      { c' with prev := some r, rest := y ++ v } :=
  ⟨rfl, h.captures, y, (List.suffix_cons r y).trans hy, rfl, rfl⟩

theorem rest_nil_iff (h : Alike t u v c c') (hempty : u = [] ↔ v = []) :
    c.rest = [] ↔ c'.rest = [] := by
  obtain ⟨y, -, hc, hc'⟩ := h.rest
  rw [hc, hc', List.append_eq_nil_iff, List.append_eq_nil_iff, hempty]

theorem length_lt_iff (h : Alike t u v c c') (hd : Alike t u v d d') :
    d.rest.length < c.rest.length ↔ d'.rest.length < c'.rest.length := by
  obtain ⟨y, -, hc, hc'⟩ := h.rest
  obtain ⟨z, -, hd, hd'⟩ := hd.rest
  simp only [hc, hc', hd, hd', List.length_append]
  omega

theorem capture (h : Alike t u v c c') (hd : Alike t u v d d') (i : Nat) :
    Alike t u v
      { d with captures := (i, c.rest.take (c.rest.length - d.rest.length)) :: d.captures }
      { d' with captures := (i, c'.rest.take (c'.rest.length - d'.rest.length)) ::
        d'.captures } := by
  refine ⟨hd.prev, ?_, hd.rest⟩
  obtain ⟨y, -, hc, hc'⟩ := h.rest
  obtain ⟨z, -, hz, hz'⟩ := hd.rest
  have hlen : ∀ w : List Nat, (y ++ w).take ((y ++ w).length - (z ++ w).length) =
      y.take (y.length - z.length) := by
    intro w
    rw [List.length_append, List.length_append, Nat.add_sub_add_right,
      List.take_append_of_le_length (Nat.sub_le _ _)]
  dsimp only
  rw [hd.captures, hc, hc', hz, hz', hlen, hlen]

theorem across (h : Alike t (s :: u) (s :: v) c c') : Alike (t ++ [s]) u v c c' := by
  obtain ⟨y, hy, hc, hc'⟩ := h.rest
  refine ⟨h.prev, h.captures, y ++ [s], ?_, by simp [hc], by simp [hc']⟩
  obtain ⟨z, rfl⟩ := hy
  exact ⟨z, by simp⟩

theorem before_or_behind (h : Alike (t ++ [s]) u v c c') :
    Alike t (s :: u) (s :: v) c c' ∨ c.rest = u ∧ c'.rest = v := by
  obtain ⟨y, hy, hc, hc'⟩ := h.rest
  rcases List.suffix_concat_iff.mp hy with rfl | ⟨z, rfl, hz⟩
  · exact .inr ⟨hc, hc'⟩
  · exact .inl ⟨h.prev, h.captures, z, hz, by simp [hc], by simp [hc']⟩

end Alike

/-! ## Running over the common part -/

theorem rel_or {S : α → β → Prop} {a b : Option α} {a' b' : Option β} (h : Option.Rel S a a')
    (h' : Option.Rel S b b') : Option.Rel S (a.or b) (a'.or b') := by
  cases h with
  | some h => exact .some h
  | none => exact h'

theorem class_run {p : Nat → Bool} {c : Cursor} {r : Nat} {rest : List Nat}
    (h : c.rest = r :: rest) (k : Cursor → Option α) :
    (Regexp.class p).run c k =
      if p r = true then k { c with prev := some r, rest := rest } else none := by
  unfold run
  rw [h]

theorem run_seq (a b : Regexp) (c : Cursor) (k : Cursor → Option α) :
    (Regexp.seq a b).run c k = a.run c fun c => b.run c k :=
  rfl

theorem class_stop {p : Nat → Bool} {c : Cursor}
    (h : ∀ r ∈ c.rest.head?, (Regexp.class p).rejects r = true) (k : Cursor → Option α) :
    (Regexp.class p).run c k = none := by
  refine class_none fun r rest hrest hr => ?_
  have hreject := h r (by rw [hrest]; rfl)
  rw [rejects, hr] at hreject
  cases hreject

theorem repeated_nil {greedy : Bool} {a : Regexp} {c : Cursor} (h : c.rest = []) (n : Nat)
    (k : Cursor → Option α) : repeated greedy (fun c k => a.run c k) n c k = k c := by
  cases n with
  | zero => rfl
  | succ n =>
    have hmore : (a.run c fun c' => if c'.rest.length < c.rest.length then
        repeated greedy (fun c k => a.run c k) n c' k else none) = none :=
      a.run_none fun c' _ => if_neg (by rw [h]; exact Nat.not_lt_zero _)
    unfold repeated
    dsimp only
    rw [hmore]
    cases greedy <;> simp

section

variable {t u v : List Nat} (hempty : u = [] ↔ v = [])
include hempty

theorem repeated_alike {S : α → β → Prop} {greedy : Bool} {a : Regexp}
    {k : Cursor → Option α} {k' : Cursor → Option β}
    (ha : ∀ {c c' : Cursor} {k : Cursor → Option α} {k' : Cursor → Option β}, Alike t u v c c' →
      (∀ d d', Alike t u v d d' → Option.Rel S (k d) (k' d')) →
      Option.Rel S (a.run c k) (a.run c' k'))
    (hk : ∀ d d', Alike t u v d d' → Option.Rel S (k d) (k' d')) {n n' : Nat} {c c' : Cursor}
    (h : Alike t u v c c') (hn : c.rest.length ≤ n) (hn' : c'.rest.length ≤ n') :
    Option.Rel S (repeated greedy (fun c k => a.run c k) n c k)
      (repeated greedy (fun c k => a.run c k) n' c' k') := by
  have hend : ∀ {n n' c c'}, Alike t u v c c' → c.rest = [] →
      Option.Rel S (repeated greedy (fun c k => a.run c k) n c k)
        (repeated greedy (fun c k => a.run c k) n' c' k') := by
    intro n n' c c' h hnil
    rw [repeated_nil hnil, repeated_nil ((h.rest_nil_iff hempty).mp hnil)]
    exact hk c c' h
  -- the fuel of the two runs is different, and enough for what each has left to read
  induction n generalizing n' c c' with
  | zero => exact hend h (List.length_eq_zero_iff.mp (Nat.le_zero.mp hn))
  | succ n ih =>
    cases n' with
    | zero =>
      exact hend h ((h.rest_nil_iff hempty).mpr (List.length_eq_zero_iff.mp (Nat.le_zero.mp hn')))
    | succ n' =>
      have hmore : Option.Rel S
          (a.run c fun d => if d.rest.length < c.rest.length then
            repeated greedy (fun c k => a.run c k) n d k else none)
          (a.run c' fun d => if d.rest.length < c'.rest.length then
            repeated greedy (fun c k => a.run c k) n' d k' else none) := by
        refine ha h fun d d' hd => ?_
        have hiff := h.length_lt_iff hd
        by_cases hless : d.rest.length < c.rest.length
        · have hless' := hiff.mp hless
          rw [if_pos hless, if_pos hless']
          exact ih hd (by omega) (by omega)
        · rw [if_neg hless, if_neg fun hless' => hless (hiff.mpr hless')]
          exact .none
      cases greedy with
      | true => exact rel_or hmore (hk c c' h)
      | false => exact rel_or (hk c c' h) hmore

variable (hword : u.head?.any isWord = v.head?.any isWord)
include hword

theorem run_alike {S : α → β → Prop} {re : Regexp} (hu : ∀ r ∈ u.head?, re.rejects r = true)
    (hv : ∀ r ∈ v.head?, re.rejects r = true) {c c' : Cursor} (h : Alike t u v c c')
    {k : Cursor → Option α} {k' : Cursor → Option β}
    (hk : ∀ d d', Alike t u v d d' → Option.Rel S (k d) (k' d')) :
    Option.Rel S (re.run c k) (re.run c' k') := by
  induction re generalizing c c' k k' with
  | empty => exact hk c c' h
  | «class» p =>
    obtain ⟨y, hy, hc, hc'⟩ := h.rest
    cases y with
    | nil =>
      rw [List.nil_append] at hc hc'
      rw [class_stop (hc ▸ hu), class_stop (hc' ▸ hv)]
      exact .none
    | cons r y =>
      rw [class_run hc, class_run hc']
      split
      · exact hk _ _ (h.advance hy)
      · exact .none
  | seq a b iha ihb =>
    simp only [rejects, Bool.and_eq_true] at hu hv
    exact iha (fun r hr => (hu r hr).1) (fun r hr => (hv r hr).1) h fun d d' hd =>
      ihb (fun r hr => (hu r hr).2) (fun r hr => (hv r hr).2) hd hk
  | alt a b iha ihb =>
    simp only [rejects, Bool.and_eq_true] at hu hv
    exact rel_or (iha (fun r hr => (hu r hr).1) (fun r hr => (hv r hr).1) h hk)
      (ihb (fun r hr => (hu r hr).2) (fun r hr => (hv r hr).2) h hk)
  | star greedy a ih =>
    exact repeated_alike hempty (fun h hk => ih hu hv h hk) hk h (Nat.le_refl _) (Nat.le_refl _)
  | group i a ih => exact ih hu hv h fun d d' hd => hk _ _ (h.capture hd i)
  | wordBoundary =>
    obtain ⟨y, -, hc, hc'⟩ := h.rest
    have hhead : c.rest.head?.any isWord = c'.rest.head?.any isWord := by
      cases y with
      | nil => rw [hc, hc']; exact hword
      | cons r y => rw [hc, hc']; rfl
    unfold run atBoundary
    rw [h.prev, hhead]
    split
    · exact hk c c' h
    · exact .none
  | endText =>
    have hisEmpty : c.rest.isEmpty = c'.rest.isEmpty := by
      rw [Bool.eq_iff_iff, List.isEmpty_iff, List.isEmpty_iff, h.rest_nil_iff hempty]
    unfold run
    rw [hisEmpty]
    split
    · exact hk c c' h
    · exact .none

end

/-! ## All matches -/

section

variable {re : Regexp} (hconsumes : re.consumes = true) (bad : List (Nat × List Nat) → Bool)

/-- Some match of the pattern from the cursor on has bad captures. -/
def flagged (re : Regexp) (bad : List (Nat × List Nat) → Bool) (n : Nat) (c : Cursor) : Bool :=
  (re.findAll n c).any (bad ·.captures)

theorem flagged_of_match {bad : List (Nat × List Nat) → Bool} {n : Nat} {c d : Cursor}
    (h : re.matchAt c = some d) :
    re.flagged bad (n + 1) c = (bad d.captures || re.flagged bad n d) := by
  rw [flagged, findAll, h]
  rfl

theorem flagged_of_miss {bad : List (Nat × List Nat) → Bool} {n : Nat} {c : Cursor} {r : Nat}
    {rest : List Nat} (h : re.matchAt c = none) (hrest : c.rest = r :: rest) :
    re.flagged bad (n + 1) c = re.flagged bad n { c with prev := some r, rest := rest } := by
  rw [flagged, findAll, h]
  dsimp only
  rw [hrest]
  rfl

theorem flagged_of_end {bad : List (Nat × List Nat) → Bool} {n : Nat} {c : Cursor}
    (h : re.matchAt c = none) (hrest : c.rest = []) : re.flagged bad (n + 1) c = false := by
  rw [flagged, findAll, h]
  dsimp only
  rw [hrest]
  rfl

include hconsumes

theorem length_lt_of_matchAt {c d : Cursor} (h : re.matchAt c = some d) :
    d.rest.length < c.rest.length := by
  obtain ⟨c', -, hless, hc'⟩ := exists_end_of_run h
  exact Option.some.inj hc' ▸ hless hconsumes

/-- The matches depend on what is left to read and on whether a word stands before it. -/
theorem flagged_congr {n n' : Nat} {c c' : Cursor}
    (hprev : c.prev.any isWord = c'.prev.any isWord) (hrest : c.rest = c'.rest)
    (hn : c.rest.length < n) (hn' : c'.rest.length < n') :
    re.flagged bad n c = re.flagged bad n' c' := by
  induction n generalizing n' c c' with
  | zero => exact absurd hn (Nat.not_lt_zero _)
  | succ n ih =>
    obtain ⟨n', rfl⟩ := Nat.exists_eq_succ_of_ne_zero (Nat.ne_zero_of_lt hn')
    have hmatch : Option.Rel (Alike c.rest [] []) (re.matchAt c) (re.matchAt c') := by
      refine run_alike Iff.rfl rfl (by simp) (by simp) ?_ fun _ _ => .some
      exact ⟨hprev, rfl, c.rest, List.suffix_refl _, (List.append_nil _).symm,
        hrest.symm.trans (List.append_nil _).symm⟩
    generalize hc : re.matchAt c = o, hc' : re.matchAt c' = o' at hmatch
    cases hmatch with
    | @some d d' hd =>
      obtain ⟨y, -, hy, hy'⟩ := hd.rest
      have hless := length_lt_of_matchAt hconsumes hc
      have hless' := length_lt_of_matchAt hconsumes hc'
      have hnext : re.flagged bad n d = re.flagged bad n' d' :=
        ih hd.prev (hy.trans hy'.symm) (by omega) (by omega)
      rw [flagged_of_match hc, flagged_of_match hc', hd.captures, hnext]
    | none =>
      cases hcursor : c.rest with
      | nil => rw [flagged_of_end hc hcursor, flagged_of_end hc' (hrest ▸ hcursor)]
      | cons r rest =>
        rw [flagged_of_miss hc hcursor, flagged_of_miss hc' (hrest ▸ hcursor)]
        rw [hcursor, List.length_cons] at hn
        rw [← hrest, hcursor, List.length_cons] at hn'
        exact ih rfl rfl (Nat.lt_of_succ_lt_succ hn) (Nat.lt_of_succ_lt_succ hn')

/-- Matches that start in the common part agree, or are bad in both texts; behind the separator each
text is on its own. -/
theorem flagged_joint {t u v : List Nat} {s : Nat}
    (hmatch : ∀ {c c'}, Alike t (s :: u) (s :: v) c c' →
      Option.Rel (fun d d' => Alike t (s :: u) (s :: v) d d' ∨
        bad d.captures = true ∧ bad d'.captures = true) (re.matchAt c) (re.matchAt c'))
    {n n' : Nat} {c c' : Cursor} (h : Alike t (s :: u) (s :: v) c c') (hn : c.rest.length < n)
    (hn' : c'.rest.length < n') (hu : re.flagged bad (u.length + 1) ⟨some s, u, []⟩ = false) :
    re.flagged bad n' c' =
      (re.flagged bad n c || re.flagged bad (v.length + 1) ⟨some s, v, []⟩) := by
  induction n generalizing n' c c' with
  | zero => exact absurd hn (Nat.not_lt_zero _)
  | succ n ih =>
    obtain ⟨n', rfl⟩ := Nat.exists_eq_succ_of_ne_zero (Nat.ne_zero_of_lt hn')
    have hstep := hmatch h
    generalize hc : re.matchAt c = o, hc' : re.matchAt c' = o' at hstep
    cases hstep with
    | some hd =>
      have hless := length_lt_of_matchAt hconsumes hc
      have hless' := length_lt_of_matchAt hconsumes hc'
      rw [flagged_of_match hc, flagged_of_match hc']
      rcases hd with hd | ⟨hbad, hbad'⟩
      · rw [ih hd (by omega) (by omega), hd.captures, Bool.or_assoc]
      · rw [hbad, hbad', Bool.true_or, Bool.true_or, Bool.true_or]
    | none =>
      obtain ⟨y, hy, hrest, hrest'⟩ := h.rest
      rw [hrest, List.length_append, List.length_cons] at hn
      rw [hrest', List.length_append, List.length_cons] at hn'
      cases y with
      | nil =>
        have hleft : re.flagged bad n { c with prev := some s, rest := u } = false := by
          rw [← hu]
          exact flagged_congr hconsumes bad rfl rfl (by dsimp only; omega) (Nat.lt_succ_self _)
        rw [flagged_of_miss hc hrest, flagged_of_miss hc' hrest', hleft, Bool.false_or]
        exact flagged_congr hconsumes bad rfl rfl (by dsimp only; omega) (Nat.lt_succ_self _)
      | cons r y =>
        rw [flagged_of_miss hc hrest, flagged_of_miss hc' hrest']
        rw [List.length_cons] at hn hn'
        refine ih (h.advance hy) ?_ ?_
        · change (y ++ s :: u).length < n
          rw [List.length_append, List.length_cons]
          omega
        · change (y ++ s :: v).length < n'
          rw [List.length_append, List.length_cons]
          omega

end

/-! ## Texts -/

/-- Some match in the text has bad captures. -/
def flags (re : Regexp) (bad : List (Nat × List Nat) → Bool) (s : Bytes) : Bool :=
  re.flagged bad ((Utf8.runes s).length + 1) ⟨none, Utf8.runes s, []⟩

theorem search_eq_flagged (re : Regexp) (n : Nat) (c : Cursor) :
    re.search n c = re.flagged (fun _ => true) (n + 1) c := by
  induction n generalizing c
  all_goals
    unfold search
    cases hc : re.matchAt c with
    | some d => simp [flagged_of_match hc]
    | none =>
      cases hrest : c.rest with
      | nil => simp [flagged_of_end hc hrest]
      | cons r rest => simp_all [flagged, findAll]

theorem matchString_eq_flags (re : Regexp) (s : Bytes) :
    re.matchString s = re.flags (fun _ => true) s :=
  search_eq_flagged re _ _

theorem any_findAllGroup (re : Regexp) (i : Nat) (bad : List Nat → Bool) (s : Bytes) :
    (re.findAllGroup i s).any bad =
      re.flags (fun captures => bad ((captures.lookup i).getD [])) s := by
  rw [findAllGroup, List.any_map]
  rfl

theorem flags_joint {re : Regexp} (hconsumes : re.consumes = true)
    (bad : List (Nat × List Nat) → Bool) {a b b' : Bytes} {s : UInt8} (hs : s < 128)
    (hword : isWord s.toNat = false)
    (hmatch : ∀ {c c'},
      Alike (Utf8.runes a) (s.toNat :: Utf8.runes b) (s.toNat :: Utf8.runes b') c c' →
      Option.Rel (fun d d' =>
          Alike (Utf8.runes a) (s.toNat :: Utf8.runes b) (s.toNat :: Utf8.runes b') d d' ∨
          bad d.captures = true ∧ bad d'.captures = true)
        (re.matchAt c) (re.matchAt c'))
    (hmiss : re.flags bad b = false) :
    re.flags bad (a ++ s :: b') = (re.flags bad (a ++ s :: b) || re.flags bad b') := by
  have hfresh : ∀ w : Bytes, re.flagged bad ((Utf8.runes w).length + 1)
      ⟨some s.toNat, Utf8.runes w, []⟩ = re.flags bad w := fun w =>
    flagged_congr hconsumes bad hword rfl (Nat.lt_succ_self _) (Nat.lt_succ_self _)
  rw [← hfresh] at hmiss
  rw [← hfresh b']
  refine flagged_joint hconsumes bad hmatch ?_ (Nat.lt_succ_self _) (Nat.lt_succ_self _) hmiss
  exact ⟨rfl, rfl, _, List.suffix_refl _, Utf8.runes_append_ascii hs a b,
    Utf8.runes_append_ascii hs a b'⟩

end Go.Regexp
