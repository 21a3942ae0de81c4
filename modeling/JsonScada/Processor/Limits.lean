/- path: JsonScada/Processor/Limits
   source: src/cs_data_processor/cs_data_processor.js, limits and hysteresis
   digest: The range rule of an analog point and the band it keeps. -/

import JsonScada.Model.Documents

set_option autoImplicit false
set_option relaxedAutoImplicit false

namespace JsonScada.Processor.Limits

open JsonScada.Lib.Binary64 JsonScada.Lib.EcmaScript JsonScada.Model.Documents

/-- High limit, low limit and hysteresis, when the limits are to be checked. -/
structure LimitSet where
  hiLimit : Number
  loLimit : Number
  hysteresis : Number
  deriving DecidableEq

def hysteresis (doc : Point) : Number :=
  if doc.hysteresis.truthy then doc.hysteresis.toNumber else .fin 0

def limitSet (doc : Point) : Option LimitSet :=
  if doc.alarmDisabled.truthy then none else
    match doc.hiLimit, doc.loLimit with
    | .val hi, .val lo => some ⟨hi, lo, hysteresis doc⟩
    | _, _ => none

namespace LimitSet

/-- Beyond the high limit and its hysteresis. -/
def above (l : LimitSet) (value : Number) : Bool := (l.hiLimit.add l.hysteresis).lt value

/-- Beyond the low limit and its hysteresis. -/
def below (l : LimitSet) (value : Number) : Bool := value.lt (l.loLimit.sub l.hysteresis)

/-- Strictly inside both limits by more than the hysteresis. -/
def normal (l : LimitSet) (value : Number) : Bool :=
  value.lt (l.hiLimit.sub l.hysteresis) && (l.loLimit.add l.hysteresis).lt value

/-- The new alarm range; near a limit the old range is kept. -/
def range (l : LimitSet) (old : DocField Number) (value : Number) : Number :=
  if l.above value then .fin 1
  else if l.below value then .fin (-1)
  else if l.normal value then .fin 0
  else if old.truthy then old.toNumber
  else .fin 0

/-- The range stored is the one the value is in; near a limit it may be any number. -/
def Keeps (l : LimitSet) (old : DocField Number) (value : Number) : Prop :=
  if l.above value then old = .val (.fin 1)
  else if l.below value then old = .val (.fin (-1))
  else if l.normal value then old = .val (.fin 0)
  else ∃ range, old = .val range ∧ range ≠ .nan

/-- The normalisation branch is reached. -/
def normalizes (l : LimitSet) (value : Number) : Bool :=
  !l.above value && !l.below value && l.normal value

end LimitSet

/-- What the limit check decides for one value: the range to store, the alarm
flag, and whether a limit event is inserted. -/
structure LimitCheck where
  alarmRange : Number
  alarmed : Bool
  event : Bool
  deriving DecidableEq

def checkLimits (doc : Point) (value : Number) (alarmed : Bool) : LimitCheck :=
  match limitSet doc with
  | none => ⟨.fin 0, alarmed, false⟩
  | some l =>
    let alarmRange := l.range doc.alarmRange value
    let alarmed := if l.normalizes value then false else alarmed
    if doc.alarmRange.looseNe alarmRange then
      ⟨alarmRange, alarmed || alarmRange ≠ .fin 0, true⟩
    else ⟨alarmRange, alarmed, false⟩

/-- The settings the range rule reads. -/
structure SameLimits (a b : Point) : Prop where
  alarmDisabled : a.alarmDisabled = b.alarmDisabled
  hiLimit : a.hiLimit = b.hiLimit
  loLimit : a.loLimit = b.loLimit
  hysteresis : a.hysteresis = b.hysteresis

theorem limitSet_congr {a b : Point} (h : SameLimits a b) : limitSet a = limitSet b := by
  unfold limitSet hysteresis
  rw [h.alarmDisabled, h.hiLimit, h.loLimit, h.hysteresis]

theorem range_of_above {l : LimitSet} {old : DocField Number} {value : Number}
    (h : l.above value = true) : l.range old value = .fin 1 := by
  simp [LimitSet.range, h]

theorem range_of_below {l : LimitSet} {old : DocField Number} {value : Number}
    (ha : l.above value = false) (h : l.below value = true) : l.range old value = .fin (-1) := by
  simp [LimitSet.range, ha, h]

theorem range_ne_nan (l : LimitSet) (old : DocField Number) (value : Number) :
    l.range old value ≠ .nan := by
  unfold LimitSet.range
  split_ifs with _ _ _ ht
  · simp
  · simp
  · simp
  · cases old with
    | absent => cases ht
    | null => cases ht
    | val x =>
      intro hx
      obtain rfl : x = .nan := hx
      cases ht
  · simp

theorem keeps_iff (l : LimitSet) (old : DocField Number) (value : Number) :
    l.Keeps old value ↔ old = .val (l.range old value) := by
  rw [LimitSet.Keeps, LimitSet.range]
  split_ifs with _ _ _ htruthy
  · rfl
  · rfl
  · rfl
  · cases old with
    | absent => simp [DocField.truthy] at htruthy
    | null => simp [DocField.truthy] at htruthy
    | val x =>
      have hx : x ≠ .nan ∧ x ≠ .fin 0 := by simpa [DocField.truthy] using htruthy
      simp [DocField.toNumber, hx.1]
  · cases old with
    | absent => simp
    | null => simp
    | val x =>
      have hx : x ≠ .nan → x = .fin 0 := by simpa [DocField.truthy] using htruthy
      simp only [DocField.val.injEq, exists_eq_left']
      constructor
      · exact hx
      · rintro rfl
        simp

/-- The rule applied again to the value it has just judged keeps its answer. -/
theorem range_idempotent (l : LimitSet) (old : DocField Number) (value : Number) :
    l.range (.val (l.range old value)) value = l.range old value := by
  by_cases ha : l.above value = true
  · rw [range_of_above ha, range_of_above ha]
  by_cases hb : l.below value = true
  · rw [Bool.not_eq_true] at ha
    rw [range_of_below ha hb, range_of_below ha hb]
  by_cases hn : l.normal value = true
  · simp [LimitSet.range, ha, hb, hn]
  · -- the value is near a limit: the old range is kept, whatever it is
    cases old with
    | absent => simp [LimitSet.range, ha, hb, hn, DocField.truthy]
    | null => simp [LimitSet.range, ha, hb, hn, DocField.truthy]
    | val x =>
      by_cases hx : x = .nan ∨ x = .fin 0
      · rcases hx with rfl | rfl <;>
          simp [LimitSet.range, ha, hb, hn, DocField.truthy]
      · rw [not_or] at hx
        simp [LimitSet.range, ha, hb, hn, DocField.truthy, DocField.toNumber, hx]

/-- The value is in the normal range of a point whose limits are checked. -/
def normalizes (doc : Point) (value : Number) : Bool :=
  match limitSet doc with
  | some l => l.normalizes value
  | none => false

/-- When the check leaves no alarm: there was none or the value is normal, and the
range is the normal one or the one the document already has. -/
theorem checkLimits_alarmed {doc : Point} {value : Number} {alarmed : Bool} :
    (checkLimits doc value alarmed).alarmed = false ↔
      (alarmed = false ∨ normalizes doc value = true) ∧
        ((checkLimits doc value alarmed).alarmRange = .fin 0 ∨
          doc.alarmRange = .val (checkLimits doc value alarmed).alarmRange) := by
  unfold checkLimits normalizes
  cases limitSet doc with
  | none => simp
  | some l =>
    have hnan := range_ne_nan l doc.alarmRange value
    by_cases hne : doc.alarmRange.looseNe (l.range doc.alarmRange value) = true
    · have hold : doc.alarmRange ≠ .val (l.range doc.alarmRange value) := by
        intro heq
        rw [DocField.looseNe_eq_false.mpr ⟨heq, hnan⟩] at hne
        cases hne
      simp only [hne, if_true, hold, or_false]
      cases hl : l.normalizes value <;> cases alarmed <;> simp
    · rw [Bool.not_eq_true] at hne
      have hold := (DocField.looseNe_eq_false.mp hne).1
      simp only [hne, Bool.false_eq_true, if_false]
      rw [← hold]
      cases hl : l.normalizes value <;> cases alarmed <;> simp

end JsonScada.Processor.Limits
