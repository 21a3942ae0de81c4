/- path: JsonScada/System/SqlMirror
   source: src/cs_data_processor/cs_data_processor.js, mongoRtDataQueue and sqlRtDataQueue
   digest: When the row of the SQL mirror is the document the database comes to hold. -/

import JsonScada.Processor.Flush
import JsonScada.Processor.Mirror

set_option autoImplicit false
set_option relaxedAutoImplicit false

namespace JsonScada.System.SqlMirror

open JsonScada.Lib.Binary64 JsonScada.Lib.EcmaScript JsonScada.Model.Documents
open JsonScada.Processor.Convert JsonScada.Processor.Limits JsonScada.Processor.Change
open JsonScada.Processor.Flush JsonScada.Processor.Mirror

/-- Two documents alike in what an update of its point decides. -/
structure SameRow (a b : Point) : Prop where
  value : a.value = b.value
  valueString : a.valueString = b.valueString
  valueJson : a.valueJson = b.valueJson
  alarmed : a.alarmed = b.alarmed
  alarmRange : a.alarmRange = b.alarmRange
  invalid : a.invalid = b.invalid
  transient : a.transient = b.transient
  overflow : a.overflow = b.overflow
  timeTag : a.timeTag = b.timeTag
  timeTagAtSource : a.timeTagAtSource = b.timeTagAtSource
  timeTagAtSourceOk : a.timeTagAtSourceOk = b.timeTagAtSourceOk
  updatesCnt : a.updatesCnt = b.updatesCnt

/-- The updates of the point itself among the entries of mongoRtDataQueue. -/
def pointUpdates (enqueued : List RtUpdate) : List PointUpdate :=
  enqueued.filterMap fun
    | .point u => some u
    | _ => none

/-- A row for each update of the database and none besides, each with the document the
update makes; and the document itself for one inserted. -/
def Mirrors (h : Handled) : Notification → Prop
  | .insert doc => ∃ row, h.sqlRtDataQueue = [row] ∧ row.json_data = doc
  | .update doc _ => List.Forall₂
      (fun row u => SameRow row.json_data ((BulkOp.setPoint u).apply doc))
      h.sqlRtDataQueue (pointUpdates h.outcome.enqueued)

/-- The range stored is the one of the value; without limits it is the normal one. -/
def RangeKept (doc : Point) (value : Number) : Prop :=
  match if doc.type = .analog then limitSet doc else none with
  | none => doc.alarmRange = .val (.fin 0)
  | some l => l.Keeps doc.alarmRange value

/-- The update changes nothing that the edit of fullDocument leaves as it was, and is not
held back from the database. -/
structure Complete (doc : Point) (sdu : SourceDataUpdate) : Prop where
  stored : doc.isDigitalEvent = true → (convert doc sdu).value.eqv (.fin 0) = false
  alarmRange : RangeKept doc (convert doc sdu).value
  timeTagAtSource : doc.timeTagAtSource = sdu.timeTagAtSource
  timeTagAtSourceOk : doc.timeTagAtSourceOk =
    if sdu.timeTagAtSource.isSome then sdu.timeTagAtSourceOk else none
  alarmed : doc.alarmDisabled = .bool true → doc.alarmed = false

/-- An update that the handler takes is complete. No insertion qualifies. -/
def Faithful (DivideProcessingExpression : Point → Bool) (clock : Clock) (active : Bool) :
    Notification → Prop
  | .insert _ => False
  | .update doc sdu => ∀ u ∈ sdu, DivideProcessingExpression doc = true → active = true →
      accepted doc u (readUpdate clock doc u) = true → Complete doc u

section Reading

variable {doc : Point} {sdu : SourceDataUpdate} {clock : Clock} {count : ℕ}

theorem rangeKept_iff : RangeKept doc (convert doc sdu).value ↔
    doc.alarmRange = .val (readUpdate clock doc sdu).alarmRange := by
  rw [RangeKept]
  by_cases ht : doc.type = .analog
  · cases hl : limitSet doc with
    | none =>
      have hrange : (readUpdate clock doc sdu).alarmRange = .fin 0 := by
        rw [(readUpdate_analog ht).1, checkLimits, hl]
      rw [if_pos ht, hrange]
    | some l =>
      rw [if_pos ht, (readUpdate_limits ht hl).1]
      exact keeps_iff l doc.alarmRange _
  · have hrange : (readUpdate clock doc sdu).alarmRange = .fin 0 := by simp [readUpdate, ht]
    rw [if_neg ht, hrange]

/-- With its alarms disabled a point keeps the alarm it has. -/
theorem alarmed_of_disabled (h : doc.alarmDisabled = .bool true) :
    (readUpdate clock doc sdu).alarmed = doc.alarmed := by
  have htruthy : doc.alarmDisabled.truthy = true := by rw [h]; rfl
  have hraised : raised doc (convert doc sdu) = doc.alarmed := by simp [raised, htruthy]
  have hlimits : limitSet doc = none := by simp [limitSet, htruthy]
  simp [readUpdate, checkLimits, hraised, hlimits]

theorem pointUpdates_change : pointUpdates (change clock count doc sdu).enqueued =
    if accepted doc sdu (readUpdate clock doc sdu) && stored doc (readUpdate clock doc sdu) then
      [pointUpdate clock doc sdu (readUpdate clock doc sdu)] else [] := by
  have hbeep : pointUpdates (beepUpdate clock doc (readUpdate clock doc sdu)) = [] := by
    rw [beepUpdate]
    split_ifs <;> rfl
  have hcount : pointUpdates (counterUpdate clock count doc) = [] := by
    rw [counterUpdate]
    split_ifs <;> rfl
  rw [pointUpdates] at hbeep hcount ⊢
  simp only [change]
  cases accepted doc sdu (readUpdate clock doc sdu) <;>
    cases stored doc (readUpdate clock doc sdu) <;> simp [hbeep, hcount]

/-- The row agrees with the update exactly on what the edit does not leave out. -/
theorem sameRow_iff :
    SameRow (edited clock doc (readUpdate clock doc sdu))
        ((BulkOp.setPoint (pointUpdate clock doc sdu (readUpdate clock doc sdu))).apply doc) ↔
      doc.alarmRange = .val (readUpdate clock doc sdu).alarmRange ∧
        doc.timeTagAtSource = sdu.timeTagAtSource ∧
        (doc.timeTagAtSourceOk =
          if sdu.timeTagAtSource.isSome then sdu.timeTagAtSourceOk else none) ∧
        (doc.alarmDisabled = .bool true → doc.alarmed = false) := by
  rw [BulkOp.apply_setPoint rfl]
  have halarm : (readUpdate clock doc sdu).alarmed =
        (if doc.alarmDisabled = .bool true then false else (readUpdate clock doc sdu).alarmed) ↔
      (doc.alarmDisabled = .bool true → doc.alarmed = false) := by
    split_ifs with hdis
    · simp [alarmed_of_disabled hdis, hdis]
    · simp [hdis]
  constructor
  · intro h
    exact ⟨h.alarmRange, h.timeTagAtSource, h.timeTagAtSourceOk, halarm.mp h.alarmed⟩
  · rintro ⟨hrange, htime, hok, hdis⟩
    exact ⟨rfl, rfl, rfl, halarm.mpr hdis, hrange, rfl, rfl, rfl, rfl, htime, hok, rfl⟩

theorem stored_iff : stored doc (readUpdate clock doc sdu) = true ↔
    (doc.isDigitalEvent = true → (convert doc sdu).value.eqv (.fin 0) = false) := by
  have hvalue : (readUpdate clock doc sdu).conv = convert doc sdu := rfl
  rw [stored, hvalue, Point.isDigitalEvent]
  cases (convert doc sdu).value.eqv (.fin 0) <;> simp [imp_iff_not_or, or_comm]

theorem mirrors_update_iff :
    Mirrors (handle clock true count (.update doc (some sdu))) (.update doc (some sdu)) ↔
      (accepted doc sdu (readUpdate clock doc sdu) = true → Complete doc sdu) := by
  simp only [Mirrors, handle, if_true, pointUpdates_change]
  cases hacc : accepted doc sdu (readUpdate clock doc sdu) with
  | false => simp
  | true =>
    simp only [if_true, Bool.true_and, forall_const]
    cases hst : stored doc (readUpdate clock doc sdu) with
    | false =>
      -- an event to OFF gives a row and no update
      have hnot : ¬ Complete doc sdu := by
        intro hc
        rw [stored_iff.mpr hc.stored] at hst
        cases hst
      simp [hnot]
    | true =>
      simp only [if_true, List.forall₂_cons, List.Forall₂.nil, and_true, updateRow]
      rw [sameRow_iff]
      constructor
      · rintro ⟨hrange, htime, hok, hdis⟩
        exact ⟨stored_iff.mp hst, rangeKept_iff.mpr hrange, htime, hok, hdis⟩
      · intro hc
        exact ⟨rangeKept_iff.mp hc.alarmRange, hc.timeTagAtSource, hc.timeTagAtSourceOk,
          hc.alarmed⟩

end Reading

section Example

def breaker : Point :=
  { _id := .fin 3201, tag := "KAW2XSWI5207", type := .digital }

def protection : Point := { breaker with isEvent := some true, value := .fin 1 }

def timed (value : ℚ) : SourceDataUpdate :=
  { valueAtSource := .val (.fin value), timeTag := 900, timeTagAtSource := some 800 }

end Example

end JsonScada.System.SqlMirror
