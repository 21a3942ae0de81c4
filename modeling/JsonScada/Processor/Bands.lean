/- path: JsonScada/Processor/Bands
   source: src/cs_data_processor/cs_data_processor.js, limits and hysteresis
   digest: The alarm range and the value agree, save for a jump between the bands. -/

import JsonScada.Processor.Limits

set_option autoImplicit false
set_option relaxedAutoImplicit false

namespace JsonScada.Processor.Bands

open JsonScada.Lib.Binary64 JsonScada.Model.Documents JsonScada.Processor.Limits

/-- A hysteresis that is no negative number, and bands of the two limits that do
not touch. -/
structure Separated (l : LimitSet) : Prop where
  hysteresis : Number.le (.fin 0) l.hysteresis = true
  bands : (l.loLimit.add l.hysteresis).lt (l.hiLimit.sub l.hysteresis) = true

/-- What the schema says of the range of a value. -/
structure InBand (l : LimitSet) (range : DocField Number) (value : Number) : Prop where
  high : (l.hiLimit.add l.hysteresis).lt value = true → range = .val (.fin 1)
  low : value.lt (l.loLimit.sub l.hysteresis) = true → range = .val (.fin (-1))
  keptHigh : range = .val (.fin 1) → (l.hiLimit.sub l.hysteresis).le value = true
  keptLow : range = .val (.fin (-1)) → value.le (l.loLimit.add l.hysteresis) = true

/-- From the range of one limit the value jumps into the band of the other. -/
def Crosses (l : LimitSet) (range : DocField Number) (value : Number) : Prop :=
  (range = .val (.fin (-1)) ∧ (l.hiLimit.sub l.hysteresis).le value = true ∧
      (l.hiLimit.add l.hysteresis).lt value = false) ∨
    (range = .val (.fin 1) ∧ value.le (l.loLimit.add l.hysteresis) = true ∧
      value.lt (l.loLimit.sub l.hysteresis) = false)

instance (l : LimitSet) (range : DocField Number) (value : Number) :
    Decidable (Crosses l range value) := by unfold Crosses; infer_instance

/-- The rule keeps the range of the value it is stored with. -/
def Stable (l : LimitSet) (range : DocField Number) (value : Number) : Prop :=
  range = .val (l.range range value)

def alarmRanges : List (DocField Number) := [.val (.fin (-1)), .val (.fin 0), .val (.fin 1)]

section Thresholds

variable {l : LimitSet} {value : Number}

theorem Separated.width (h : Separated l) : ∃ w, 0 ≤ w ∧ l.hysteresis = .fin w := by
  obtain ⟨hh, hb⟩ := h
  cases hw : l.hysteresis with
  | nan =>
    rw [hw] at hh
    cases hh
  | inf s =>
    rw [hw] at hh hb
    cases s with
    | true => cases hh
    | false =>
      -- with an infinite half-width the two bands touch
      rcases hlo : l.loLimit with _ | (_ | _) | lo <;>
        rcases hhi : l.hiLimit with _ | (_ | _) | hi <;>
        rw [hlo, hhi] at hb <;> cases hb
  | fin w =>
    refine ⟨w, ?_, rfl⟩
    rw [hw] at hh
    simpa [Number.le, le_iff_lt_or_eq] using hh

theorem Separated.hi (h : Separated l) :
    (l.hiLimit.add l.hysteresis).lt (l.hiLimit.sub l.hysteresis) = false := by
  obtain ⟨w, hw, heq⟩ := h.width
  rw [heq]
  exact Number.sub_le_add l.hiLimit hw

theorem Separated.lo (h : Separated l) :
    (l.loLimit.add l.hysteresis).lt (l.loLimit.sub l.hysteresis) = false := by
  obtain ⟨w, hw, heq⟩ := h.width
  rw [heq]
  exact Number.sub_le_add l.loLimit hw

/-- A value beyond the high limit is past the whole band of that limit. -/
theorem Separated.of_above (h : Separated l) (ha : l.above value = true) :
    (l.hiLimit.sub l.hysteresis).lt value = true := by
  have hne := (Number.ne_nan_of_lt h.bands).2
  have hle := Number.le_of_not_lt (Number.ne_nan_of_lt ha).1 hne h.hi
  exact Number.lt_of_le_of_lt hle ha

theorem Separated.of_below (h : Separated l) (hb : l.below value = true) :
    value.lt (l.loLimit.add l.hysteresis) = true := by
  have hne := (Number.ne_nan_of_lt h.bands).1
  have hle := Number.le_of_not_lt hne (Number.ne_nan_of_lt hb).2 h.lo
  exact Number.lt_of_lt_of_le hb hle

theorem Separated.not_below_of_high (h : Separated l)
    (hv : (l.hiLimit.sub l.hysteresis).le value = true) : l.below value = false := by
  cases hb : l.below value with
  | false => rfl
  | true =>
    have hlt := Number.lt_of_le_of_lt hv (Number.lt_trans (h.of_below hb) h.bands)
    rw [Number.lt_irrefl] at hlt
    cases hlt

theorem Separated.not_above_of_low (h : Separated l)
    (hv : value.le (l.loLimit.add l.hysteresis) = true) : l.above value = false := by
  cases ha : l.above value with
  | false => rfl
  | true =>
    have hlt := Number.lt_of_lt_of_le (Number.lt_trans h.bands (h.of_above ha)) hv
    rw [Number.lt_irrefl] at hlt
    cases hlt

/-- The two bands have no value in common. -/
theorem Separated.disjoint (h : Separated l)
    (hhi : (l.hiLimit.sub l.hysteresis).le value = true)
    (hlo : value.le (l.loLimit.add l.hysteresis) = true) : False := by
  have hlt := Number.lt_of_lt_of_le (Number.lt_of_lt_of_le h.bands hhi) hlo
  rw [Number.lt_irrefl] at hlt
  cases hlt

theorem not_normal_of_high (hv : (l.hiLimit.sub l.hysteresis).le value = true) :
    l.normal value = false := by
  simp [LimitSet.normal, Number.not_lt_of_le hv]

theorem not_normal_of_low (hv : value.le (l.loLimit.add l.hysteresis) = true) :
    l.normal value = false := by
  simp [LimitSet.normal, Number.not_lt_of_le hv]

/-- A finite value that is not normal lies past the inner threshold of a limit. -/
theorem Separated.near (h : Separated l) (hv : value.IsFinite) (hn : l.normal value = false) :
    (l.hiLimit.sub l.hysteresis).le value = true ∨
      value.le (l.loLimit.add l.hysteresis) = true := by
  obtain ⟨hlo, hhi⟩ := Number.ne_nan_of_lt h.bands
  simp only [LimitSet.normal, Bool.and_eq_false_iff] at hn
  rcases hn with hn | hn
  · exact .inl (Number.le_of_not_lt hv.ne_nan hhi hn)
  · exact .inr (Number.le_of_not_lt hlo hv.ne_nan hn)

end Thresholds

section Rule

variable {l : LimitSet} {old : DocField Number} {value : Number}

/-- Near a limit the rule keeps a range the schema knows. -/
theorem range_of_near (hold : old ∈ alarmRanges) (ha : l.above value = false)
    (hb : l.below value = false) (hn : l.normal value = false) :
    .val (l.range old value) = old := by
  simp only [alarmRanges, List.mem_cons, List.not_mem_nil, or_false] at hold
  rcases hold with rfl | rfl | rfl <;>
    simp [LimitSet.range, ha, hb, hn, DocField.truthy, DocField.toNumber]

theorem range_mem (hold : old ∈ alarmRanges) : .val (l.range old value) ∈ alarmRanges := by
  by_cases ha : l.above value = true
  · simp [range_of_above ha, alarmRanges]
  by_cases hb : l.below value = true
  · rw [Bool.not_eq_true] at ha
    simp [range_of_below ha hb, alarmRanges]
  by_cases hn : l.normal value = true
  · simp [LimitSet.range, ha, hb, hn, alarmRanges]
  · rw [Bool.not_eq_true] at ha hb hn
    rw [range_of_near hold ha hb hn]
    exact hold

theorem stable_range : Stable l (.val (l.range old value)) value :=
  congrArg DocField.val (range_idempotent l old value).symm

/-- A range in band is one the rule keeps. -/
theorem InBand.stable (hold : old ∈ alarmRanges) (h : InBand l old value) :
    Stable l old value := by
  unfold Stable
  by_cases ha : l.above value = true
  · rw [range_of_above ha]
    exact h.high ha
  rw [Bool.not_eq_true] at ha
  by_cases hb : l.below value = true
  · rw [range_of_below ha hb]
    exact h.low hb
  rw [Bool.not_eq_true] at hb
  by_cases hn : l.normal value = true
  · have hzero : l.range old value = .fin 0 := by simp [LimitSet.range, ha, hb, hn]
    rw [hzero]
    simp only [alarmRanges, List.mem_cons, List.not_mem_nil, or_false] at hold
    rcases hold with rfl | rfl | rfl
    · rw [not_normal_of_low (h.keptLow rfl)] at hn
      cases hn
    · rfl
    · rw [not_normal_of_high (h.keptHigh rfl)] at hn
      cases hn
  · rw [Bool.not_eq_true] at hn
    exact (range_of_near hold ha hb hn).symm

/-- A value in band with its range is no jump from it. -/
theorem InBand.not_crosses (hl : Separated l) (h : InBand l old value) :
    ¬ Crosses l old value := by
  rintro (⟨rfl, hhi, -⟩ | ⟨rfl, hlo, -⟩)
  · exact hl.disjoint hhi (h.keptLow rfl)
  · exact hl.disjoint (h.keptHigh rfl) hlo

/-- The rule takes every finite value in band, a jump between the bands apart. -/
theorem inBand_range (hl : Separated l) (hold : old ∈ alarmRanges) (hv : value.IsFinite) :
    InBand l (.val (l.range old value)) value ↔ ¬ Crosses l old value := by
  constructor
  · rintro h (⟨rfl, hhi, ha⟩ | ⟨rfl, hlo, hb⟩)
    · have hb := hl.not_below_of_high hhi
      rw [range_of_near hold ha hb (not_normal_of_high hhi)] at h
      exact hl.disjoint hhi (h.keptLow rfl)
    · have ha := hl.not_above_of_low hlo
      rw [range_of_near hold ha hb (not_normal_of_low hlo)] at h
      exact hl.disjoint (h.keptHigh rfl) hlo
  · intro hc
    have hne : ∀ {b : Bool}, b = false → ¬ b = true := by simp
    have hsides : (.val (.fin 1) : DocField Number) ≠ .val (.fin (-1)) := by decide
    by_cases ha : l.above value = true
    · have hhi := Number.le_of_lt (hl.of_above ha)
      have hb := hl.not_below_of_high hhi
      rw [range_of_above ha]
      exact ⟨fun _ => rfl, fun hb' => absurd hb' (hne hb), fun _ => hhi, fun h => absurd h hsides⟩
    rw [Bool.not_eq_true] at ha
    by_cases hb : l.below value = true
    · rw [range_of_below ha hb]
      have hlo := Number.le_of_lt (hl.of_below hb)
      exact ⟨fun ha' => absurd ha' (hne ha), fun _ => rfl, fun h => absurd h.symm hsides,
        fun _ => hlo⟩
    rw [Bool.not_eq_true] at hb
    refine ⟨fun h => absurd h (hne ha), fun h => absurd h (hne hb), fun h => ?_, fun h => ?_⟩
    · by_cases hn : l.normal value = true
      · simp [LimitSet.range, ha, hb, hn] at h
      rw [Bool.not_eq_true] at hn
      rw [range_of_near hold ha hb hn] at h
      rcases hl.near hv hn with hhi | hlo
      · exact hhi
      · exact absurd (.inr ⟨h, hlo, hb⟩) hc
    · by_cases hn : l.normal value = true
      · simp [LimitSet.range, ha, hb, hn] at h
      rw [Bool.not_eq_true] at hn
      rw [range_of_near hold ha hb hn] at h
      rcases hl.near hv hn with hhi | hlo
      · exact absurd (.inl ⟨h, hhi, ha⟩) hc
      · exact hlo

end Rule

end JsonScada.Processor.Bands
