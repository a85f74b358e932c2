import PulseAgent.Go.TreeMap
import PulseAgent.Observer.Debounce

/-!
# Bounded measurements

The signal of a rule survives when fewer than sixteen keys come before it, and the clamp changes its
verdict only where the threshold is the limit itself.
-/

namespace PulseAgent.Observer

open Go Contract Std

variable {rule : ProbeRule}

/-! ## Which keys are kept -/

def keysBefore (values : Values) (key : Bytes) : Nat :=
  (values.toList.filter fun entry => compare entry.1 key = .lt).length

theorem bound_of_full {bounded : Values} (h : bounded.size = maxValues)
    (entries : List (Bytes × Float64)) : bound bounded entries = bounded := by
  cases entries with
  | nil => rfl
  | cons entry entries => exact if_pos h

theorem getElem_bound_of_not_mem {key : Bytes} {entries : List (Bytes × Float64)}
    (h : key ∉ entries.map Prod.fst) (bounded : Values) :
    (bound bounded entries)[key]? = bounded[key]? := by
  induction entries generalizing bounded with
  | nil => rfl
  | cons entry entries ih =>
    obtain ⟨k, value⟩ := entry
    obtain ⟨hne, hrest⟩ := not_or.mp (List.mem_cons.not.mp h)
    unfold bound
    split_ifs
    · rfl
    · rw [ih hrest, ExtTreeMap.getElem?_insert, if_neg]
      exact fun heq => hne (LawfulEqCmp.eq_of_compare heq).symm
    · exact ih hrest bounded

theorem getElem_bound {key : Bytes} {value : Float64} {before after : List (Bytes × Float64)}
    (hfinite : ∀ entry ∈ before ++ (key, value) :: after, entry.2.isFinite = true)
    (hnodup : ((before ++ (key, value) :: after).map Prod.fst).Nodup) {bounded : Values}
    (hfresh : ∀ entry ∈ before ++ (key, value) :: after, entry.1 ∉ bounded)
    (hsize : bounded.size ≤ maxValues) :
    (bound bounded (before ++ (key, value) :: after))[key]? =
      if bounded.size + before.length < maxValues then some (clamp value) else none := by
  by_cases hfull : bounded.size = maxValues
  · rw [bound_of_full hfull, if_neg (by omega)]
    exact ExtTreeMap.getElem?_eq_none (hfresh (key, value) List.mem_append_cons_self)
  · induction before generalizing bounded with
    | nil =>
      rw [List.nil_append] at *
      rw [bound, if_neg hfull, if_pos (hfinite _ List.mem_cons_self),
        getElem_bound_of_not_mem (List.nodup_cons.mp hnodup).1, ExtTreeMap.getElem?_insert_self,
        List.length_nil, if_pos (by omega)]
    | cons entry before ih =>
      obtain ⟨k, v⟩ := entry
      rw [List.cons_append] at *
      obtain ⟨hk, hrest⟩ := List.nodup_cons.mp hnodup
      have hinserted : (bounded.insert k (clamp v)).size = bounded.size + 1 := by
        have hmem : ¬k ∈ bounded := hfresh (k, v) List.mem_cons_self
        rw [ExtTreeMap.size_insert, if_neg (ExtTreeMap.mem_iff_contains.not.mp hmem)]
      have hfresh' : ∀ entry ∈ before ++ (key, value) :: after,
          entry.1 ∉ bounded.insert k (clamp v) := by
        intro entry hmem hin
        rcases ExtTreeMap.mem_insert.mp hin with heq | hin
        · exact hk (List.mem_map.mpr ⟨entry, hmem, (LawfulEqCmp.eq_of_compare heq).symm⟩)
        · exact hfresh entry (List.mem_cons_of_mem _ hmem) hin
      have hfinite' := fun entry hmem => hfinite entry (List.mem_cons_of_mem _ hmem)
      rw [bound, if_neg hfull, if_pos (hfinite _ List.mem_cons_self), List.length_cons]
      by_cases hnow : bounded.size + 1 = maxValues
      · rw [bound_of_full (hinserted.trans hnow), if_neg (by omega)]
        exact ExtTreeMap.getElem?_eq_none (hfresh' (key, value) List.mem_append_cons_self)
      · rw [ih hfinite' hrest hfresh' (by omega) (by omega), hinserted]
        simp only [Nat.add_assoc, Nat.add_comm 1]

theorem getElem_boundedValues {values : Values} {key : Bytes} {value : Float64}
    (hfinite : ∀ entry ∈ values.toList, entry.2.isFinite = true) (h : values[key]? = some value) :
    (boundedValues values)[key]? =
      if keysBefore values key < maxValues then some (clamp value) else none := by
  obtain ⟨before, after, hsplit⟩ :=
    List.append_of_mem (ExtTreeMap.mem_toList_iff_getElem?_eq_some.mpr h)
  have hordered : values.toList.Pairwise fun a b => compare a.1 b.1 = .lt :=
    ExtTreeMap.ordered_keys_toList
  have hnodup : (values.toList.map Prod.fst).Nodup := by
    refine List.pairwise_map.mpr (hordered.imp ?_)
    intro a b hlt heq
    have hself : compare b.1 b.1 = .lt := heq ▸ hlt
    exact absurd (hself.symm.trans ReflCmp.compare_self) (by decide)
  -- in key order, the keys in front of this one are those below it
  have hcount : keysBefore values key = before.length := by
    rw [keysBefore, hsplit]
    rw [hsplit] at hordered
    obtain ⟨-, hafter, hbefore⟩ := List.pairwise_append.mp hordered
    rw [List.filter_append, List.filter_eq_self.mpr, List.filter_eq_nil_iff.mpr, List.append_nil]
    · intro entry hmem
      rcases List.mem_cons.mp hmem with rfl | hmem
      · simp [ReflCmp.compare_self]
      · have hgt := (List.pairwise_cons.mp hafter).1 entry hmem
        simp [OrientedCmp.not_lt_of_lt hgt]
    · intro entry hmem
      simpa using hbefore entry hmem _ List.mem_cons_self
  rw [boundedValues, hcount]
  rw [hsplit] at hfinite hnodup ⊢
  rw [getElem_bound hfinite hnodup (fun _ _ => ExtTreeMap.not_mem_empty) (by simp)]
  simp

/-! ## What the clamp does to a verdict -/

def exceeds (rule : ProbeRule) (value : Float64) : Bool :=
  if rule.signalType = lit "availability" then value.lt rule.threshold
  else rule.threshold.lt value

theorem failedSample_eq (rule : ProbeRule) (values : Values) :
    failedSample rule values = values[rule.signalType]?.map (exceeds rule) := by
  unfold failedSample exceeds
  split
  · next h => rw [h, Option.map_none]
  · next value h =>
    rw [h, Option.map_some]
    split_ifs <;> rfl

theorem toRat_maxValue : maxValue.toRat = 1000000 := by
  have h : maxValue = ⟨false, 1, 6, by decide⟩ := by decide
  rw [h, Dec.toRat]
  norm_num

theorem toRat_minValue : minValue.toRat = -1000000 := by
  have h : minValue = ⟨true, 1, 6, by decide⟩ := by decide
  rw [h, Dec.toRat]
  norm_num

theorem toRat_zero : Dec.zero.toRat = 0 := by
  simp [Dec.toRat, Dec.zero]

theorem clamp_finite (value : Dec) :
    ∃ clamped, clamp (.finite value) = .finite clamped ∧
      clamped.toRat = max (-1000000) (min 1000000 value.toRat) := by
  unfold clamp
  by_cases hhigh : Float64.lt (.finite maxValue) (.finite value) = true
  · have hvalue := Float64.lt_finite.mp hhigh
    have hlow : Float64.lt (.finite maxValue) (.finite minValue) = false :=
      Float64.not_lt_finite.mpr (by rw [toRat_maxValue, toRat_minValue]; norm_num)
    refine ⟨maxValue, by simp only [hhigh, if_true, hlow, Bool.false_eq_true, if_false], ?_⟩
    rw [toRat_maxValue] at *
    rw [min_eq_left hvalue.le]
    norm_num
  · have hvalue := Float64.not_lt_finite.mp (Bool.eq_false_iff.mpr hhigh)
    rw [toRat_maxValue] at hvalue
    rw [min_eq_right hvalue]
    simp only [hhigh, Bool.false_eq_true, if_false]
    by_cases hlow : Float64.lt (.finite value) (.finite minValue) = true
    · have hbelow := Float64.lt_finite.mp hlow
      rw [toRat_minValue] at hbelow
      exact ⟨minValue, if_pos hlow, by rw [toRat_minValue, max_eq_left hbelow.le]⟩
    · have habove := Float64.not_lt_finite.mp (Bool.eq_false_iff.mpr hlow)
      rw [toRat_minValue] at habove
      exact ⟨value, if_neg hlow, (max_eq_right habove).symm⟩

/-- A threshold lies in `(0, 1000000]`, so only an upper threshold at the limit can be met by a
value and not by its clamped one. -/
theorem exceeds_clamp_iff (hrule : Target.ValidRule rule) {value : Float64}
    (hvalue : value.isFinite = true) :
    exceeds rule (clamp value) = exceeds rule value ↔
      rule.signalType = lit "availability" ∨ rule.threshold.lt (.finite maxValue) = true ∨
        Float64.lt (.finite maxValue) value = false := by
  obtain ⟨value, rfl⟩ := Float64.eq_finite hvalue
  obtain ⟨threshold, hthreshold⟩ := Float64.eq_finite hrule.finite
  obtain ⟨clamped, hclamp, hrat⟩ := clamp_finite value
  have hpositive : 0 < threshold.toRat := by
    have h := hrule.positive
    rw [hthreshold] at h
    simpa only [toRat_zero] using Float64.lt_finite.mp h
  have hlimit : threshold.toRat ≤ 1000000 := by
    have h := hrule.threshold
    rw [hthreshold] at h
    exact (Float64.not_lt_finite.mp h).trans_eq toRat_maxValue
  rw [hclamp, exceeds, exceeds, hthreshold, Float64.not_lt_finite, Float64.lt_finite,
    toRat_maxValue,
    Bool.eq_iff_iff]
  by_cases hsignal : rule.signalType = lit "availability"
  · simp only [hsignal, if_true, true_or, iff_true, Float64.lt_finite, hrat, max_lt_iff, min_lt_iff]
    constructor
    · rintro ⟨-, h | h⟩
      · linarith
      · exact h
    · exact fun h => ⟨by linarith, .inr h⟩
  · simp only [hsignal, if_false, false_or, Float64.lt_finite, hrat, lt_max_iff, lt_min_iff]
    constructor
    · intro h
      by_contra hcon
      obtain ⟨hat, habove⟩ := not_or.mp hcon
      rcases h.mpr (by linarith) with hlow | hhigh
      · linarith
      · exact hat hhigh.1
    · rintro (hbelow | hinside)
      · exact ⟨fun h => h.elim (fun hlow => by linarith) And.right, fun h => .inr ⟨hbelow, h⟩⟩
      · exact ⟨fun h => h.elim (fun hlow => by linarith) And.right,
          fun h => .inr ⟨by linarith, h⟩⟩

/-- The bounded measurements give the verdict of the raw value exactly if fewer than sixteen keys
come before the signal and the clamp does not reach an upper threshold at the limit. -/
theorem bounded_verdict_iff {rule : ProbeRule} (hrule : Target.validateProbeRule rule = .ok ())
    {values : Values} (hfinite : ∀ entry ∈ values.toList, entry.2.isFinite = true)
    {value : Float64} (h : values[rule.signalType]? = some value) :
    failedSample rule (boundedValues values) = some (exceeds rule value) ↔
      keysBefore values rule.signalType < maxValues ∧
        (rule.signalType = lit "availability" ∨ rule.threshold.lt (.finite maxValue) = true ∨
          Float64.lt (.finite maxValue) value = false) := by
  have hvalue := hfinite _ (ExtTreeMap.mem_toList_iff_getElem?_eq_some.mpr h)
  rw [failedSample_eq, getElem_boundedValues hfinite h,
    ← exceeds_clamp_iff (Target.valid_of_validateProbeRule hrule) hvalue]
  split_ifs with hroom
  · rw [Option.map_some, Option.some.injEq, and_iff_right hroom]
  · simp only [Option.map_none, reduceCtorEq, hroom, false_and]

/-- A rule over the latency with a threshold at the limit. -/
def latencyRule : ProbeRule :=
  { sampleRule (lit "slow") with
    signalType := lit "latency_ms", threshold := .finite (.normalize false 1000000 0) }

def quickRule : ProbeRule :=
  { latencyRule with threshold := .finite (.normalize false 500 0) }

/-- Fifteen keys in front of a latency over the limit. -/
def crowdedValues : Values :=
  ((List.range 15).foldl (fun values k =>
    Std.ExtTreeMap.insert values (lit "a" ++ Decimal.pad 2 k) Float64.zero) (∅ : Values)).insert
    (lit "latency_ms") (.finite (.normalize false 1002000 0))

theorem bounded_verdict_iff_clamped :
    (boundedValues crowdedValues)[lit "latency_ms"]? = some (.finite maxValue) ∧
      failedSample quickRule (boundedValues crowdedValues) = some true := by
  have hrule : Target.validateProbeRule quickRule = .ok () := by decide +kernel
  have hvalue : crowdedValues[quickRule.signalType]? =
    some (.finite (.normalize false 1002000 0)) :=
    by decide +kernel
  exact ⟨by decide +kernel, (bounded_verdict_iff hrule (by decide +kernel) hvalue).mpr
    ⟨by decide +kernel, .inr (.inl (by decide +kernel))⟩⟩

/-- Two seconds over the limit are a failure, and none once clamped; sixteen keys in front of the
signal hide it. -/
theorem bounded_verdict_differs :
    (let values := (∅ : Values).insert (lit "latency_ms") (.finite (.normalize false 1002000 0))
     Target.validateProbeRule latencyRule = .ok () ∧ exceeds latencyRule
       (.finite (.normalize false 1002000 0)) = true ∧
       failedSample latencyRule (boundedValues values) = some false) ∧
    (let values := ((List.range 16).foldl (fun values k =>
        Std.ExtTreeMap.insert values (lit "a" ++ Decimal.pad 2 k) Float64.zero) (∅ : Values)).insert
        (lit "availability") .zero
     Target.validateProbeRule (sampleRule (lit "up")) = .ok () ∧
       failedSample (sampleRule (lit "up")) values = some true ∧
       failedSample (sampleRule (lit "up")) (boundedValues values) = none) := by
  decide +kernel

end PulseAgent.Observer
