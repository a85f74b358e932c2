import PulseAgent.Go.RegexpJoint
import PulseAgent.Redaction

/-!
# Sensitive values in a text that is put together

What is sensitive in a text with a field `name=value` behind it is sensitive in the field, or in the
text with any word behind it: a label at its end takes the field's name for its value.
-/

namespace PulseAgent.Redaction

open Go Go.Regexp

/-- The runes a name may begin with: letters and the underscore. -/
def wordStarts : List Nat := (List.range 128).filter fun r => isWord r && !digit r

theorem wordStart_spec : ∀ r ∈ wordStarts, isWord r = true ∧ space r = false ∧
    chars ",;" r = false ∧ r ≠ 91 := by decide

/-- A name that begins with a letter or an underscore and has neither white space nor control
characters nor other runes than ASCII in it. -/
def plainName (name : Bytes) : Bool :=
  name.head?.any (fun b => wordStarts.contains b.toNat) && name.all fun b => 32 < b && b < 127

/-- A text that begins with a plain name and an equals sign. -/
def Named (s : Bytes) : Prop :=
  ∃ name value, plainName name = true ∧ s = name ++ lit "=" ++ value

theorem Named.append {s : Bytes} (h : Named s) (t : Bytes) : Named (s ++ t) := by
  obtain ⟨name, value, hname, rfl⟩ := h
  exact ⟨name, value ++ t, hname, by rw [List.append_assoc]⟩

/-- The runes of such a text. -/
structure Opens (v : List Nat) : Prop where
  start : ∃ r ∈ wordStarts, ∃ rest, v = r :: rest
  plain : ∃ name value, v = name ++ 61 :: value ∧ ∀ r ∈ name, space r = false

theorem Named.opens {s : Bytes} (h : Named s) : Opens (Utf8.runes s) := by
  obtain ⟨name, value, hname, rfl⟩ := h
  obtain ⟨hstart, hall⟩ := (Bool.and_eq_true _ _).mp hname
  have hbytes : ∀ b ∈ name, 32 < b ∧ b < 127 := by simpa using hall
  have hascii : ∀ b ∈ name, b < 128 := fun b hb => UInt8.lt_trans (hbytes b hb).2 (by decide)
  have hrunes : Utf8.runes (name ++ lit "=" ++ value) =
      name.map UInt8.toNat ++ 61 :: Utf8.runes value := by
    rw [List.append_assoc, ← Utf8.runes_ascii hascii]
    exact Utf8.runes_append_ascii (by decide) name value
  rw [hrunes]
  refine ⟨?_, _, _, rfl, ?_⟩
  · cases name with
    | nil => cases hstart
    | cons b name => exact ⟨b.toNat, List.contains_iff_mem.mp hstart, _, rfl⟩
  · intro r hr
    obtain ⟨b, hb, rfl⟩ := List.mem_map.mp hr
    have hlow := UInt8.lt_iff_toNat_lt.mp (hbytes b hb).1
    simp only [show (32 : UInt8).toNat = 32 from rfl] at hlow
    simp only [space, Bool.or_eq_false_iff, beq_eq_false_iff_ne]
    omega

/-! ## Reading up to the field and over the separator -/

/-- No class takes a rune that a name may begin with. -/
def stopsAtNames (re : Regexp) : Bool := wordStarts.all fun r => re.rejects r

/-- Two matches that end in front of the field, or are bad in both texts. -/
def Matched (bad : List (Nat × List Nat) → Bool) (t u v : List Nat) (s : Nat) (c c' : Cursor) :
    Prop :=
  Alike t (s :: u) (s :: v) c c' ∨ bad c.captures = true ∧ bad c'.captures = true

section

variable {t u v : List Nat} {s : Nat} {c c' : Cursor} {bad : List (Nat × List Nat) → Bool}

theorem run_before {α β : Type} {S : α → β → Prop} {re : Regexp} (hre : re.rejects s = true)
    (h : Alike t (s :: u) (s :: v) c c') {k : Cursor → Option α} {k' : Cursor → Option β}
    (hk : ∀ d d', Alike t (s :: u) (s :: v) d d' → Option.Rel S (k d) (k' d')) :
    Option.Rel S (re.run c k) (re.run c' k') := by
  refine run_alike (u := s :: u) (v := s :: v)
    (iff_of_false (List.cons_ne_nil _ _) (List.cons_ne_nil _ _)) rfl ?_ ?_ h hk
  all_goals
    rintro r hr
    cases hr
    exact hre

variable (hu : Opens u) (hv : Opens v)
include hu hv

theorem run_over {α β : Type} {S : α → β → Prop} {re : Regexp} (hre : stopsAtNames re = true)
    (h : Alike t u v c c') {k : Cursor → Option α} {k' : Cursor → Option β}
    (hk : ∀ d d', Alike t u v d d' → Option.Rel S (k d) (k' d')) :
    Option.Rel S (re.run c k) (re.run c' k') := by
  obtain ⟨r, hr, _, rfl⟩ := hu.start
  obtain ⟨r', hr', _, rfl⟩ := hv.start
  refine run_alike (iff_of_false (List.cons_ne_nil _ _) (List.cons_ne_nil _ _)) ?_ ?_ ?_ h hk
  · exact (wordStart_spec r hr).1.trans (wordStart_spec r' hr').1.symm
  · rintro q hq
    cases hq
    exact List.all_eq_true.mp hre r hr
  · rintro q hq
    cases hq
    exact List.all_eq_true.mp hre r' hr'

/-- A pattern with a part in front of the separator, a part that may read the separator but no
name, and a last part. -/
theorem matchAt_joint {a m z : Regexp} (ha : a.rejects s = true) (hm : stopsAtNames m = true)
    (hz : ∀ {d d'}, Alike (t ++ [s]) u v d d' →
      Option.Rel (Matched bad t u v s) (z.run d some) (z.run d' some))
    (h : Alike t (s :: u) (s :: v) c c') :
    Option.Rel (Matched bad t u v s)
      ((Regexp.seq a (.seq m z)).matchAt c) ((Regexp.seq a (.seq m z)).matchAt c') := by
  have huncaptured : Alike t (s :: u) (s :: v) { c with captures := [] }
      { c' with captures := [] } := ⟨h.prev, rfl, h.rest⟩
  exact run_before ha huncaptured fun d d' hd => run_over hu hv hm hd.across fun e e' he => hz he

end

/-! ## Values -/

theorem star_isSome {α : Type} {greedy : Bool} {a : Regexp} {k : Cursor → Option α}
    (hk : ∀ c, (k c).isSome = true) (c : Cursor) :
      ((Regexp.star greedy a).run c k).isSome = true := by
  change (repeated greedy (fun c k => a.run c k) c.rest.length c k).isSome = true
  cases c.rest.length with
  | zero => exact hk c
  | succ n => cases greedy <;> simp [repeated, hk]

theorem not_isMarker {r : Nat} (hr : r ∈ wordStarts) (rest : List Nat) :
    isMarker (r :: rest) = false := by
  have hhead : ∀ m ∈ markers, m.head? = some 91 := by decide
  refine Bool.eq_false_iff.mpr fun h => (wordStart_spec r hr).2.2.2 ?_
  exact Option.some.inj (hhead _ (List.contains_iff_mem.mp h))

/-- The value a group has captured is not a marker. -/
def raw (i : Nat) (captures : List (Nat × List Nat)) : Bool :=
  !isMarker ((captures.lookup i).getD [])

theorem bareValue_run {c : Cursor} (hc : Opens c.rest) (i : Nat) :
    ∃ d, (Regexp.group i bareValue).run c some = some d ∧ raw i d.captures = true := by
  obtain ⟨r, hr, rest, hrest⟩ := hc.start
  obtain ⟨-, hspace, hchars, -⟩ := wordStart_spec r hr
  have htakes : (!(space r || chars ",;" r)) = true := by rw [hspace, hchars]; rfl
  have hsome : ((Regexp.group i bareValue).run c some).isSome = true := by
    change (bareValue.run c _).isSome = true
    rw [bareValue, some1, run_seq, class_run hrest, if_pos htakes]
    exact star_isSome (fun _ => rfl) _
  obtain ⟨d, hd⟩ := Option.isSome_iff_exists.mp hsome
  refine ⟨d, hd, ?_⟩
  obtain ⟨e, -, hless, he⟩ := exists_end_of_run (show bareValue.run c _ = some d from hd)
  rw [← Option.some.inj he]
  obtain ⟨n, hn⟩ := Nat.exists_eq_succ_of_ne_zero (Nat.sub_ne_zero_of_lt (hless rfl))
  rw [raw, List.lookup_cons_self, Option.getD_some, hn, hrest, List.take_succ_cons,
    not_isMarker hr]
  rfl

theorem bareValue_rejects : ∀ s ∈ [32, 10], bareValue.rejects s = true := by decide

/-- `bearer\s+` -/
def bearer : Regexp := seqs [text "bearer", some1 (.class space)]

theorem bearer_rejects : ∀ s ∈ [32, 10, 61], (text "bearer").rejects s = true := by decide

theorem bearer_miss {c : Cursor} (hc : Opens c.rest) (k : Cursor → Option Cursor) :
    bearer.run c k = none := by
  obtain ⟨name, value, hrest, hname⟩ := hc.plain
  have hspace : ∀ {d : Cursor} {y : List Nat}, y <:+ name → d.rest = y ++ 61 :: value →
      (some1 (.class space)).run d k = none := by
    intro d y hy hd
    rw [some1, run_seq]
    refine class_stop (fun r hr => ?_) _
    rw [hd] at hr
    cases y with
    | nil =>
      cases hr
      rfl
    | cons q y =>
      obtain rfl : q = r := Option.some.inj hr
      rw [rejects, hname q (hy.subset List.mem_cons_self)]
      rfl
  have hbearer : ∀ r ∈ (61 :: value).head?, (text "bearer").rejects r = true := by
    rintro r hr
    cases hr
    exact bearer_rejects 61 (by simp)
  have hnone : Option.Rel (fun _ _ => False) (bearer.run c k) (bearer.run c k) := by
    change Option.Rel _ ((text "bearer").run c fun c => (some1 (.class space)).run c k)
      ((text "bearer").run c fun c => (some1 (.class space)).run c k)
    refine run_alike (t := name) (u := 61 :: value) (v := 61 :: value) Iff.rfl rfl hbearer hbearer
      ⟨rfl, rfl, name, List.suffix_refl _, hrest, hrest⟩ fun d d' hd => ?_
    obtain ⟨y, hy, hd, hd'⟩ := hd.rest
    rw [hspace hy hd, hspace hy hd']
    exact .none
  generalize bearer.run c k = o at hnone
  cases hnone with
  | none => rfl
  | some h => exact h.elim

/-- The part of the authorization pattern behind its separator. -/
def authorizationValue : Regexp := .seq (.group 1 (opt bearer)) (.group 2 bareValue)

theorem authorizationValue_run {c : Cursor} (hc : Opens c.rest) :
    ∃ d, authorizationValue.run c some = some d ∧ raw 2 d.captures = true := by
  obtain ⟨d, hd, hraw⟩ := bareValue_run
    (c := { c with captures := (1, c.rest.take (c.rest.length - c.rest.length)) :: c.captures })
    hc 2
  refine ⟨d, ?_, hraw⟩
  change ((bearer.run c _).or _) = _
  rw [bearer_miss hc, Option.none_or]
  exact hd

section

variable {t u v : List Nat} {s : Nat} {c c' : Cursor} (hu : Opens u) (hv : Opens v)
  (hs : bareValue.rejects s = true)
include hu hv hs

theorem bareValue_joint (i : Nat) (h : Alike (t ++ [s]) u v c c') :
    Option.Rel (Matched (raw i) t u v s) ((Regexp.group i bareValue).run c some)
      ((Regexp.group i bareValue).run c' some) := by
  rcases h.before_or_behind with h | ⟨hc, hc'⟩
  · have hgroup : (Regexp.group i bareValue).rejects s = true := hs
    exact run_before hgroup h fun e e' he => .some (.inl he)
  · obtain ⟨e, he, hraw⟩ := bareValue_run (hc ▸ hu) i
    obtain ⟨e', he', hraw'⟩ := bareValue_run (hc' ▸ hv) i
    rw [he, he']
    exact .some (.inr ⟨hraw, hraw'⟩)

theorem authorizationValue_joint (hbearer : (text "bearer").rejects s = true)
    (h : Alike (t ++ [s]) u v c c') :
    Option.Rel (Matched (raw 2) t u v s) (authorizationValue.run c some)
      (authorizationValue.run c' some) := by
  rcases h.before_or_behind with hbefore | ⟨hc, hc'⟩
  · have hvalue : ∀ d d', Alike (t ++ [s]) u v d d' → Option.Rel (Matched (raw 2) t u v s)
        ((Regexp.group 2 bareValue).run
          { d with captures := (1, c.rest.take (c.rest.length - d.rest.length)) :: d.captures }
          some)
        ((Regexp.group 2 bareValue).run
          { d' with captures := (1, c'.rest.take (c'.rest.length - d'.rest.length)) :: d'.captures }
          some) := fun d d' hd => bareValue_joint hu hv hs 2 (h.capture hd 1)
    refine rel_or ?_ (hvalue c c' h)
    refine run_before hbearer hbefore fun d d' hd => ?_
    have hspaces : stopsAtNames (some1 (.class space)) = true :=
      List.all_eq_true.mpr fun r hr => by simp [some1, many, rejects, (wordStart_spec r hr).2.1]
    exact run_over hu hv hspaces hd.across hvalue
  · obtain ⟨e, he, hraw⟩ := authorizationValue_run (hc ▸ hu)
    obtain ⟨e', he', hraw'⟩ := authorizationValue_run (hc' ▸ hv)
    rw [he, he']
    exact .some (.inr ⟨hraw, hraw'⟩)

end

/-! ## The checks of a text -/

/-- A further field, whatever it is. -/
def furtherField : Bytes := lit "x="

theorem named_furtherField : Named furtherField := ⟨lit "x", [], by decide, rfl⟩

theorem furtherField_harmless : containsSensitive furtherField = false := by decide +kernel

/-- The first part of the pattern reads no separator and the second no name. -/
def separable (re front middle : Regexp) : Bool :=
  re.consumes && [32, 10].all (rejects · front) && stopsAtNames middle

/-- The patterns with their parts; what follows the two parts is a value or nothing. -/
def patternParts : List (Regexp × Regexp × Regexp) :=
  [(emptyLabelPattern, seqs [.wordBoundary, sensitiveLabel, .wordBoundary],
      seqs [spaces, separator, spaces, .alt .endText (.class (chars ",;"))]),
    (labeledValuePattern, seqs [.wordBoundary, .group 1 sensitiveLabel, .wordBoundary],
      seqs [spaces, .group 2 separator, spaces]),
    (authorizationPattern, seqs [.wordBoundary, text "authorization"],
      seqs [spaces, separator, spaces]),
    (emailPattern, emailPattern, .empty), (phonePattern, .empty, phonePattern),
    (opaqueTokenPattern, opaqueTokenPattern, .empty),
    (unknownTokenPattern, unknownTokenPattern, .empty)]

theorem separable_of_mem : ∀ p ∈ patternParts, separable p.1 p.2.1 p.2.2 = true := by decide

section

variable {a b : Bytes} {s : UInt8} (hs : s = 32 ∨ s = 10) (hb : Named b)
include hs hb

theorem flags_parts {re front middle : Regexp} (last : Regexp)
    {bad : List (Nat × List Nat) → Bool} (hparts : (re, front, middle) ∈ patternParts)
    (hre : ∀ c, re.matchAt c = (Regexp.seq front (.seq middle last)).matchAt c)
    (hmiss : re.flags bad furtherField = false)
    (hlast : ∀ {s t u v d d'}, s ∈ [32, 10] → Opens u → Opens v → Alike (t ++ [s]) u v d d' →
      Option.Rel (Matched bad t u v s) (last.run d some) (last.run d' some)) :
    re.flags bad (a ++ s :: b) = (re.flags bad (a ++ s :: furtherField) || re.flags bad b) := by
  have hseparable := separable_of_mem _ hparts
  simp only [separable, Bool.and_eq_true, List.all_eq_true] at hseparable
  obtain ⟨⟨hconsumes, hfront⟩, hmiddle⟩ := hseparable
  have hmem : s.toNat ∈ [32, 10] := by rcases hs with rfl | rfl <;> decide
  have hopens := named_furtherField.opens
  refine flags_joint hconsumes bad (by rcases hs with rfl | rfl <;> decide)
    (by rcases hs with rfl | rfl <;> decide) (fun {c c'} h => ?_) hmiss
  rw [hre, hre]
  exact matchAt_joint hopens hb.opens (hfront _ hmem) hmiddle (hlast hmem hopens hb.opens) h

theorem matchString_joint {re front middle : Regexp} (hparts : (re, front, middle) ∈ patternParts)
    (hre : ∀ c, re.matchAt c = (Regexp.seq front (.seq middle .empty)).matchAt c)
    (hmiss : re.matchString furtherField = false) : re.matchString (a ++ s :: b) =
      (re.matchString (a ++ s :: furtherField) || re.matchString b) := by
  simp only [matchString_eq_flags] at hmiss ⊢
  exact flags_parts hs hb .empty hparts hre hmiss fun _ _ _ _ => .some (.inr ⟨rfl, rfl⟩)

theorem labeledValue_joint
    (hmiss : (labeledValuePattern.findAllGroup 3 furtherField).any (!isMarker ·) = false) :
    (labeledValuePattern.findAllGroup 3 (a ++ s :: b)).any (!isMarker ·) =
      ((labeledValuePattern.findAllGroup 3 (a ++ s :: furtherField)).any (!isMarker ·) ||
        (labeledValuePattern.findAllGroup 3 b).any (!isMarker ·)) := by
  simp only [any_findAllGroup] at hmiss ⊢
  refine flags_parts hs hb (.group 3 bareValue) (List.mem_of_getElem? (i := 1) rfl) (fun _ => rfl)
    hmiss fun hs hu hv h => ?_
  exact bareValue_joint hu hv (bareValue_rejects _ hs) 3 h

theorem authorization_joint
    (hmiss : (authorizationPattern.findAllGroup 2 furtherField).any (!isMarker ·) = false) :
    (authorizationPattern.findAllGroup 2 (a ++ s :: b)).any (!isMarker ·) =
      ((authorizationPattern.findAllGroup 2 (a ++ s :: furtherField)).any (!isMarker ·) ||
        (authorizationPattern.findAllGroup 2 b).any (!isMarker ·)) := by
  simp only [any_findAllGroup] at hmiss ⊢
  refine flags_parts hs hb authorizationValue (List.mem_of_getElem? (i := 2) rfl) (fun _ => rfl)
    hmiss fun hs hu hv h => ?_
  exact authorizationValue_joint hu hv (bareValue_rejects _ hs)
    (bearer_rejects _ (List.mem_append_left [61] hs)) h

/-- A text and a field behind it hold something sensitive if the field does, or the text does with a
further field behind it. -/
theorem containsSensitive_joint : containsSensitive (a ++ s :: b) =
    (containsSensitive (a ++ s :: furtherField) || containsSensitive b) := by
  have hascii : s < 128 := by rcases hs with rfl | rfl <;> decide
  have hnonzero : (0 == s) = false := by rcases hs with rfl | rfl <;> decide
  have hmiss := furtherField_harmless
  simp only [containsSensitive, Bool.or_eq_false_iff, Bool.not_eq_false'] at hmiss
  obtain ⟨⟨⟨⟨⟨⟨⟨⟨hvalid, hzero⟩, hempty⟩, hlabeled⟩, hauthorization⟩, hemail⟩, hphone⟩, hopaque⟩,
    hunknown⟩ := hmiss
  unfold containsSensitive
  rw [matchString_joint hs hb (List.mem_of_getElem? (i := 0) rfl) (fun _ => rfl) hempty,
    labeledValue_joint hs hb hlabeled, authorization_joint hs hb hauthorization,
    matchString_joint hs hb (List.mem_of_getElem? (i := 3) rfl) (fun _ => rfl) hemail,
    matchString_joint hs hb (List.mem_of_getElem? (i := 4) rfl) (fun _ => rfl) hphone,
    matchString_joint hs hb (List.mem_of_getElem? (i := 5) rfl) (fun _ => rfl) hopaque,
    matchString_joint hs hb (List.mem_of_getElem? (i := 6) rfl) (fun _ => rfl) hunknown,
    Utf8.validString_append_ascii hascii, Utf8.validString_append_ascii hascii, hvalid,
    List.contains_append, List.contains_append, List.contains_cons, List.contains_cons, hzero,
    hnonzero]
  simp only [Bool.and_true, Bool.not_and, Bool.or_false, Bool.false_or]
  ac_rfl

end

end PulseAgent.Redaction
