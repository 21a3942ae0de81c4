/- path: JsonScada/System/UntimedValue
   source: src/dnp3/Dnp3ClientCpp, src/cs_data_processor/cs_data_processor.js
   digest: Measurements without a time, as the processor takes them for events. -/

import JsonScada.Dnp3Client.Acquisition
import JsonScada.System.PointFeed

set_option autoImplicit false
set_option relaxedAutoImplicit false

namespace JsonScada.System.UntimedValue

open JsonScada.Lib.Binary64 JsonScada.Lib.EcmaScript JsonScada.Model.Documents
open JsonScada.Processor.Convert JsonScada.Processor.Change JsonScada.Dnp3Client.Acquisition

/-- The update says of the point what its document says already. -/
structure Unchanged (doc : Point) (sdu : SourceDataUpdate) : Prop where
  value : (convert doc sdu).value.eqv doc.value = true
  invalid : (convert doc sdu).invalid = doc.invalid
  transient : (convert doc sdu).transient = doc.transient
  overflow : (convert doc sdu).overflow = doc.overflow
  upToDate : doc.timeTag ≠ .null

instance (doc : Point) (sdu : SourceDataUpdate) : Decidable (Unchanged doc sdu) :=
  decidable_of_iff ((convert doc sdu).value.eqv doc.value = true ∧
      (convert doc sdu).invalid = doc.invalid ∧ (convert doc sdu).transient = doc.transient ∧
      (convert doc sdu).overflow = doc.overflow ∧ doc.timeTag ≠ .null)
    ⟨fun h => ⟨h.1, h.2.1, h.2.2.1, h.2.2.2.1, h.2.2.2.2⟩,
      fun h => ⟨h.value, h.invalid, h.transient, h.overflow, h.upToDate⟩⟩

/-- The change handler neither updates the database nor registers an alarm time nor a record
of the historian. -/
structure Quiet (clock : Clock) (count : ℕ) (doc : Point) (sdu : SourceDataUpdate) : Prop where
  enqueued : (change clock count doc sdu).enqueued = []
  newAlarm : newAlarm doc (readUpdate clock doc sdu) = false
  hist : (change clock count doc sdu).hist = []

/-- A measurement without a time is no event, and does nothing where nothing has changed; one
with a plausible time has that time in its update. -/
structure TimeKept (h : SOEHandler) (item : Indexed) (clock : Clock) (count : ℕ) (doc : Point) :
    Prop where
  noEvent : item.time.value = 0 →
    isSOE clock doc (sourceDataUpdate (h.Process item)) = false ∧
      (Unchanged doc (sourceDataUpdate (h.Process item)) →
        Quiet clock count doc (sourceDataUpdate (h.Process item)))
  timeTag : item.time.value ≠ 0 → safe item.time.value.toInt = true →
    (sourceDataUpdate (h.Process item)).timeTagAtSource = some item.time.value.toInt

/-- The instant zero is in 1969 or 1970, in any zone. -/
theorem epoch_year {zone : ℤ} (hlow : -86400000 ≤ zone) (hhigh : zone ≤ 86400000) :
    1899 < getFullYear zone 0 := by
  have hdays : (0 + zone) / 86400000 = -1 ∨ (0 + zone) / 86400000 = 0 ∨
      (0 + zone) / 86400000 = 1 := by omega
  unfold getFullYear
  rcases hdays with h | h | h <;> rw [h] <;> decide

/-- Of a digital point every update with the instant zero is an event. -/
theorem isSOE_of_epoch {clock : Clock} {doc : Point} {sdu : SourceDataUpdate}
    (hdoc : doc.type = .digital) (hlow : -86400000 ≤ clock.zone) (hhigh : clock.zone ≤ 86400000)
    (htime : sdu.timeTagAtSource = some 0) : isSOE clock doc sdu = true := by
  have hyear := epoch_year hlow hhigh
  unfold isSOE
  rw [htime]
  simp [hdoc, hyear]

/-- Every poll of a digital point without a time is accepted, and registers the alarm of an
alarmed point anew. -/
theorem poll_alarms {h : SOEHandler} {item : Indexed} {clock : Clock} {doc : Point}
    (hdoc : doc.type = .digital) (hlow : -86400000 ≤ clock.zone) (hhigh : clock.zone ≤ 86400000)
    (hzero : item.time.value = 0) (halarmed : doc.alarmed = true)
    (henabled : doc.alarmDisabled.truthy = false) :
    accepted doc (sourceDataUpdate (h.Process item))
        (readUpdate clock doc (sourceDataUpdate (h.Process item))) = true ∧
      newAlarm doc (readUpdate clock doc (sourceDataUpdate (h.Process item))) = true := by
  have hnone : (h.Process item).hasSourceTimestamp = false := by
    rw [(h.process_time item).1, hzero]
    rfl
  have htime : (sourceDataUpdate (h.Process item)).timeTagAtSource = some 0 :=
    congrArg some (safeSourceTime_of_none hnone)
  have hsoe := isSOE_of_epoch hdoc hlow hhigh htime
  have hnow : (sourceDataUpdate (h.Process item)).isHistorical = false := rfl
  constructor
  · simp [accepted, readUpdate, hsoe, hnow]
  · simp [newAlarm, readUpdate, hsoe, hdoc, halarmed, henabled, raised]

/-- A zone is less than a day away from UTC. -/
theorem time_kept_iff (h : SOEHandler) (item : Indexed) (clock : Clock) (count : ℕ) (doc : Point)
    (hdoc : doc.type = .digital) (hlow : -86400000 ≤ clock.zone)
    (hhigh : clock.zone ≤ 86400000) :
    TimeKept h item clock count doc ↔ item.time.value ≠ 0 := by
  obtain ⟨hhas, htime⟩ := h.process_time item
  constructor
  · intro hkept hzero
    have hnone : (h.Process item).hasSourceTimestamp = false := by
      rw [hhas, hzero]
      rfl
    have hsoe : isSOE clock doc (sourceDataUpdate (h.Process item)) = true :=
      isSOE_of_epoch hdoc hlow hhigh (congrArg some (safeSourceTime_of_none hnone))
    rw [(hkept.noEvent hzero).1] at hsoe
    cases hsoe
  · intro hne
    refine ⟨fun hzero => absurd hzero hne, fun _ hsafe => ?_⟩
    have hsome : (h.Process item).hasSourceTimestamp = true := by
      rw [hhas]
      exact decide_eq_true hne
    rw [← htime] at hsafe ⊢
    exact congrArg some (safeSourceTime_of_safe hsome hsafe)

section Example

def sampleHandler : SOEHandler :=
  { protocolConnectionNumber := 1, nowMs := 1700000000000, to_string := fun _ => "" }

/-- A binary input polled without a time. -/
def polledInput : Indexed :=
  { index := 5, value := .Binary true, time := { value := 0, quality := .INVALID } }

/-- The point of the input, in the state that is polled, its alarm acknowledged. -/
def samplePoint : Point :=
  { PointFeed.samplePoint with
    type := .digital
    alarmed := true
    value := .fin 1 }

theorem timed_input_kept :
    TimeKept sampleHandler { polledInput with
      time := { value := 1700000000000, quality := .SYNCHRONIZED } }
      PointFeed.sampleClock 0 samplePoint :=
  (time_kept_iff _ _ _ _ _ rfl (by decide) (by decide)).mpr (by decide)

/-- A poll that changes nothing is registered as an alarm and recorded. -/
theorem polled_input_alarms :
    polledInput.time.value = 0 ∧
      Unchanged samplePoint (sourceDataUpdate (sampleHandler.Process polledInput)) ∧
      ¬ TimeKept sampleHandler polledInput PointFeed.sampleClock 0 samplePoint := by
  obtain ⟨-, hnew⟩ := @poll_alarms sampleHandler polledInput PointFeed.sampleClock samplePoint
    rfl (by decide) (by decide) rfl rfl rfl
  have hsame : Unchanged samplePoint (sourceDataUpdate (sampleHandler.Process polledInput)) := by
    decide +kernel
  refine ⟨rfl, hsame, fun hkept => ?_⟩
  have hquiet := (hkept.noEvent rfl).2 hsame
  rw [hquiet.newAlarm] at hnew
  cases hnew

end Example

end JsonScada.System.UntimedValue
