/- path: JsonScada/System/HistoricalBackfill
   source: src/cs_data_processor/cs_data_processor.js, src/mongofw/customized_module.js, isHistorical
   digest: What a replayed change does beyond the historian, and where it is lost to it. -/

import JsonScada.Processor.Change

set_option autoImplicit false
set_option relaxedAutoImplicit false

namespace JsonScada.System.HistoricalBackfill

open JsonScada.Lib.Binary64 JsonScada.Lib.EcmaScript JsonScada.Model.Documents
open JsonScada.Processor.Convert JsonScada.Processor.Limits JsonScada.Processor.Historian
open JsonScada.Processor.Change

/-- The update as the replay marks it. -/
def backfilled (sdu : SourceDataUpdate) : SourceDataUpdate := { sdu with isHistorical := true }

/-- The same update without the flag. -/
def current (sdu : SourceDataUpdate) : SourceDataUpdate := { sdu with isHistorical := false }

/-- A replayed update changes nothing in realtimeData, makes no limit event, and goes to
the historian as it would without the flag. -/
structure LeavesPresent (clock : Clock) (count : ℕ) (doc : Point) (sdu : SourceDataUpdate) :
    Prop where
  enqueued : (change clock count doc (backfilled sdu)).enqueued = []
  limitEvents : (change clock count doc (backfilled sdu)).limitEvents = []
  hist : (change clock count doc (backfilled sdu)).hist = (change clock count doc (current sdu)).hist

/-- The value is in the alarm range stored, where the limits are checked, and the update is
none that the historian would be given without the flag. -/
structure Unremarkable (clock : Clock) (doc : Point) (sdu : SourceDataUpdate) : Prop where
  alarmRange : doc.type = .analog → ∀ l ∈ limitSet doc,
    l.Keeps doc.alarmRange (convert doc sdu).value
  notRecorded : accepted doc (current sdu) (readUpdate clock doc (current sdu)) = true →
    insertIntoHistorian doc sdu (convert doc sdu).value = false

section Flag

variable {doc : Point} {sdu : SourceDataUpdate} {clock : Clock} {count : ℕ}

theorem not_accepted_backfilled (r : Reading) : accepted doc (backfilled sdu) r = false := by
  rw [accepted]
  exact Bool.and_false _

/-- A replayed update is dropped. -/
theorem enqueued_backfilled : (change clock count doc (backfilled sdu)).enqueued = [] := by
  simp [change, not_accepted_backfilled]

theorem hist_backfilled : (change clock count doc (backfilled sdu)).hist = [] := by
  simp [change, not_accepted_backfilled]

theorem hist_current : (change clock count doc (current sdu)).hist = [] ↔
    (accepted doc (current sdu) (readUpdate clock doc (current sdu)) = true →
      insertIntoHistorian doc sdu (convert doc sdu).value = false) := by
  have hinsert : insertIntoHistorian doc (current sdu) (convert doc (current sdu)).value =
      insertIntoHistorian doc sdu (convert doc sdu).value := rfl
  have hvalue : (readUpdate clock doc (current sdu)).conv = convert doc (current sdu) := rfl
  simp only [change, hvalue, hinsert]
  cases accepted doc (current sdu) (readUpdate clock doc (current sdu)) <;>
    cases insertIntoHistorian doc sdu (convert doc sdu).value <;> simp

/-- The limits are checked before the flag is. -/
theorem limitEvents_backfilled : (change clock count doc (backfilled sdu)).limitEvents = [] ↔
    (doc.type = .analog → ∀ l ∈ limitSet doc, l.Keeps doc.alarmRange (convert doc sdu).value) := by
  have hevents : (change clock count doc (backfilled sdu)).limitEvents = [] ↔
      (readUpdate clock doc sdu).limitEvent = false := by
    change (if (readUpdate clock doc sdu).limitEvent then
      [limitEvent clock doc (readUpdate clock doc sdu)] else []) = [] ↔ _
    split_ifs with h
    · simp [h]
    · simp [h]
  rw [hevents]
  by_cases ht : doc.type = .analog
  · cases hl : limitSet doc with
    | none => simp [(readUpdate_analog ht).2.2, checkLimits, hl]
    | some l =>
      have hnan := range_ne_nan l doc.alarmRange (convert doc sdu).value
      rw [(readUpdate_limits ht hl).2, DocField.looseNe_eq_false]
      simp [ht, keeps_iff, hnan]
  · simp [readUpdate, ht]

end Flag

/-- A replayed update leaves the present alone and is in the historian like a current one
exactly where there is nothing new in it. -/
theorem leavesPresent_iff (clock : Clock) (count : ℕ) (doc : Point) (sdu : SourceDataUpdate) :
    LeavesPresent clock count doc sdu ↔ Unremarkable clock doc sdu := by
  constructor
  · rintro ⟨-, hlimits, hhist⟩
    rw [hist_backfilled] at hhist
    exact ⟨limitEvents_backfilled.mp hlimits, hist_current.mp hhist.symm⟩
  · rintro ⟨hrange, hrecord⟩
    refine ⟨enqueued_backfilled, limitEvents_backfilled.mpr hrange, ?_⟩
    rw [hist_backfilled]
    exact (hist_current.mpr hrecord).symm

section Example

def switchPosition : Point := { _id := .fin 9, tag := "KAW2XSWI5204", type := .digital }

def feederCurrent : Point :=
  { _id := .fin 10, tag := "KAW2AL-21MTA", type := .analog,
    hiLimit := .val (.fin 10), loLimit := .val (.fin 0) }

def reading (value : ℚ) : SourceDataUpdate := { valueAtSource := .val (.fin value), timeTag := 900 }

end Example

/-- The record of a replayed change is lost, and a replayed value beyond a limit is alarmed. -/
theorem replay_not_leavesPresent :
    (change ⟨0, 1000⟩ 0 switchPosition (backfilled (reading 1))).hist = [] ∧
      (change ⟨0, 1000⟩ 0 switchPosition (current (reading 1))).hist ≠ [] ∧
      (change ⟨0, 1000⟩ 0 feederCurrent (backfilled (reading 12))).limitEvents ≠ [] ∧
      ¬ LeavesPresent ⟨0, 1000⟩ 0 switchPosition (reading 1) ∧
      ¬ LeavesPresent ⟨0, 1000⟩ 0 feederCurrent (reading 12) := by
  have hrecord : (change ⟨0, 1000⟩ 0 switchPosition (current (reading 1))).hist ≠ [] := by decide
  have hlimit : (change ⟨0, 1000⟩ 0 feederCurrent (backfilled (reading 12))).limitEvents ≠ [] := by
    decide +kernel
  refine ⟨hist_backfilled, hrecord, hlimit, ?_, ?_⟩
  · intro h
    rw [← h.hist] at hrecord
    exact hrecord hist_backfilled
  · intro h
    exact hlimit h.limitEvents

end JsonScada.System.HistoricalBackfill
