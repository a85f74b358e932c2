import PulseAgent.Go.RegexpMiss
import PulseAgent.Redaction

/-!
# Texts that are not sensitive

The IDs of reports are a word and a digest in hexadecimal; a telephone number needs a digit in front
of the hyphen, which they lack.
-/

namespace PulseAgent.Redaction

open Go Go.Regexp

/-! ## Telephone numbers -/

section Phone

variable {α : Type} {runes : List Nat}
  (hpair : ∀ r g rest, r :: g :: rest <:+ runes → digit r = true → chars " -" g = false)
include hpair

theorem gap_none {r : Nat} (hr : digit r = true) {c : Cursor} (hc : r :: c.rest <:+ runes)
    (k : Cursor → Option α) : (Regexp.class (chars " -")).run c k = none := by
  refine class_none fun g rest hrest hg => ?_
  rw [hrest] at hc
  rw [hpair r g rest hc hr] at hg
  cases hg

theorem phonePattern_none {c : Cursor} (hc : c.rest <:+ runes) (k : Cursor → Option α) :
    phonePattern.run c k = none := by
  let gap := Regexp.class (chars " -")
  let d := Regexp.class digit
  -- in front of the gap are three digits and perhaps a fourth
  let tail := Regexp.seq gap (.seq (times d 0 4) .wordBoundary)
  change Regexp.run .wordBoundary c (fun c => (opt _).run c fun c => (opt _).run c fun c =>
    d.run c fun c => d.run c fun c => d.run c fun c =>
      (d.run c fun c => tail.run c k).or (tail.run c k)) =
      none
  refine run_none _ fun c1 h1 => run_none _ fun c2 h2 => run_none _ fun c3 h3 => ?_
  refine run_none _ fun c4 h4 => run_none _ fun c5 h5 => class_none fun r rest hrest hr => ?_
  have hc5 : r :: rest <:+ runes := by
    rw [← hrest]
    exact h5.trans (h4.trans (h3.trans (h2.trans (h1.trans hc))))
  have hgap : ∀ {r : Nat} {c : Cursor}, digit r = true → r :: c.rest <:+ runes →
    tail.run c k = none := by
    intro r c hr hc
    change gap.run c (fun c => (Regexp.seq (times d 0 4) .wordBoundary).run c k) = none
    exact gap_none hpair hr hc _
  have hthree : tail.run { c5 with prev := some r, rest := rest } k = none := hgap hr hc5
  have hfour : (d.run { c5 with prev := some r, rest := rest } fun c => tail.run c k) = none := by
    refine class_none fun r' rest' hrest' hr' => hgap hr' ?_
    change rest = _ at hrest'
    exact hrest' ▸ (List.suffix_cons r rest).trans hc5
  rw [hthree, hfour]
  rfl

theorem phonePattern_matchAt (c : Cursor) (hc : c.rest <:+ runes) : phonePattern.matchAt c = none :=
  @phonePattern_none _ _ hpair { c with captures := [] } hc some

end Phone

/-! ## Alphabets -/

/-- Over the alphabet no pattern but that of a telephone number finds anything. -/
def harmless (alphabet : Bytes) : Bool :=
  alphabet.all (fun b => b < 128 && b ≠ 0) &&
    [emptyLabelPattern, labeledValuePattern, authorizationPattern, emailPattern, opaqueTokenPattern,
      unknownTokenPattern].all fun re => re.blocked (alphabet.map UInt8.toNat)

section Alphabet

variable {alphabet s : Bytes} (halphabet : harmless alphabet = true) (hs : ∀ b ∈ s, b ∈ alphabet)
include halphabet hs

theorem ascii_of_harmless : ∀ b ∈ s, b < 128 := by
  intro b hb
  simp only [harmless, Bool.and_eq_true, List.all_eq_true, decide_eq_true_eq] at halphabet
  exact (halphabet.1 b (hs b hb)).1

theorem not_containsSensitive_of_harmless (hphone : phonePattern.matchString s = false) :
    containsSensitive s = false := by
  have hascii := ascii_of_harmless halphabet hs
  have hrunes : ∀ r ∈ Utf8.runes s, r ∈ alphabet.map UInt8.toNat := by
    rw [Utf8.runes_ascii hascii]
    intro r hr
    obtain ⟨b, hb, rfl⟩ := List.mem_map.mp hr
    exact List.mem_map_of_mem (hs b hb)
  simp only [harmless, Bool.and_eq_true, List.all_eq_true, decide_eq_true_eq, List.forall_mem_cons,
    List.not_mem_nil, false_imp_iff, implies_true, and_true] at halphabet
  obtain ⟨hbytes, hempty, hlabeled, hauthorization, hemail, hopaque, hunknown⟩ := halphabet
  have hzero : s.contains 0 = false := by
    rw [Bool.eq_false_iff]
    intro h
    exact (hbytes 0 (hs 0 (List.contains_iff_mem.mp h))).2 rfl
  unfold containsSensitive
  rw [Utf8.validString_ascii hascii, hzero, hphone, matchString_of_blocked hempty hrunes,
    findAllGroup_of_blocked hlabeled hrunes, findAllGroup_of_blocked hauthorization hrunes,
    matchString_of_blocked hemail hrunes, matchString_of_blocked hopaque hrunes,
    matchString_of_blocked hunknown hrunes]
  rfl

end Alphabet

/-! ## Identifiers with a digest -/

def digestAlphabet : Bytes := lit "report-0123456789abcdef"

theorem mem_digestAlphabet (s : Bytes) : ∀ b ∈ lit "report-" ++ Hex.encode s,
    b ∈ digestAlphabet := by
  intro b hb
  obtain hb | hb := List.mem_append.mp hb
  · exact List.mem_append_left _ hb
  · exact List.mem_append_right (lit "report-") (Hex.mem_encode hb)

theorem runes_digest (s : Bytes) : Utf8.runes (lit "report-" ++ Hex.encode s) =
    [114, 101, 112, 111, 114, 116, 45] ++ (Hex.encode s).map UInt8.toNat := by
  have hascii : ∀ b ∈ digestAlphabet, b < 128 := by decide +kernel
  rw [Utf8.runes_ascii fun b hb => hascii b (mem_digestAlphabet s b hb), List.map_append]
  rfl

theorem no_gap_digest (s : Bytes) (r g : Nat) (rest : List Nat)
    (h : r :: g :: rest <:+ Utf8.runes (lit "report-" ++ Hex.encode s)) (hr : digit r = true) :
    chars " -" g = false := by
  rw [runes_digest] at h
  simp only [List.cons_append, List.nil_append, List.suffix_cons_iff, List.cons.injEq] at h
  have hdigit : ∀ b ∈ lit "0123456789abcdef", chars " -" b.toNat = false := by decide +kernel
  rcases h with ⟨rfl, -⟩ | ⟨rfl, -⟩ | ⟨rfl, -⟩ | ⟨rfl, -⟩ | ⟨rfl, -⟩ | ⟨rfl, -⟩ | ⟨rfl, -⟩ | h
  case inr.inr.inr.inr.inr.inr.inr =>
    have hg : g ∈ (Hex.encode s).map UInt8.toNat :=
      h.subset (List.mem_cons_of_mem _ List.mem_cons_self)
    obtain ⟨b, hb, rfl⟩ := List.mem_map.mp hg
    exact hdigit b (Hex.mem_encode hb)
  all_goals exact absurd hr (by decide)

theorem not_containsSensitive_digest (s : Bytes) :
    containsSensitive (lit "report-" ++ Hex.encode s) = false := by
  have hphone : phonePattern.matchString (lit "report-" ++ Hex.encode s) = false :=
    search_none (phonePattern_matchAt (no_gap_digest s))
  have hharmless : harmless digestAlphabet = true := by decide
  exact not_containsSensitive_of_harmless hharmless (mem_digestAlphabet s) hphone

theorem trimSpace_digest (s : Bytes) :
    Strings.trimSpace (lit "report-" ++ Hex.encode s) = lit "report-" ++ Hex.encode s :=
  Strings.trimSpace_self (by decide) (mem_digestAlphabet s)

end PulseAgent.Redaction
