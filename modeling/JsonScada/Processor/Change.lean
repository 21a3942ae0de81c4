/- path: JsonScada/Processor/Change
   source: src/cs_data_processor/cs_data_processor.js, changeStream.on('change')
   digest: The change handler: what one update enqueues, and the events it inserts. -/

import JsonScada.Processor.Convert
import JsonScada.Processor.Limits
import JsonScada.Processor.Historian

set_option autoImplicit false
set_option relaxedAutoImplicit false

namespace JsonScada.Processor.Change

open JsonScada.Lib.Binary64 JsonScada.Lib.EcmaScript JsonScada.Model.Documents
open JsonScada.Processor.Convert JsonScada.Processor.Limits JsonScada.Processor.Historian

def LowestPriorityThatBeeps : Number := .fin 1

/-- The fields one update sets in the document of its point. -/
structure PointUpdate where
  _id : Number
  value : Number
  valueString : String
  valueJson : String
  historianLastValue : Option Number
  timeTag : Date
  overflow : Bool
  invalid : Bool
  transient : Bool
  timeTagAtSource : Option Date
  timeTagAtSourceOk : Option Bool
  updatesCnt : Number
  alarmRange : Number
  alarmed : Bool
  timeTagAlarm : Option Date
  deriving DecidableEq

/-- Entries of mongoRtDataQueue: an update of the point itself, a new beep, and
the count of digital updates. -/
inductive RtUpdate where
  | point (u : PointUpdate)
  | beep (beepType : Option Number) (timeTag : Date) (group1 : String)
  | counter (value : ℕ) (timeTag : Date)
  deriving DecidableEq

/-- The settings of the running process: zone offset and the clock reading. -/
structure Clock where
  zone : ℤ
  now : Date
  deriving DecidableEq

structure Outcome where
  enqueued : List RtUpdate := []
  limitEvents : List SoeEvent := []
  valueEvents : List SoeEvent := []
  digitalEvents : List SoeEvent := []
  hist : List HistEntry := []
  digitalUpdatesCount : ℕ
  deriving DecidableEq

/-- Digital changes with a field timestamp, or analog ones marked as events. -/
def isSOE (clock : Clock) (doc : Point) (sdu : SourceDataUpdate) : Bool :=
  match sdu.timeTagAtSource with
  | none => false
  | some t =>
    (doc.type = .digital || (doc.type = .analog && doc.isEvent = some true)) &&
      1899 < getFullYear clock.zone t

/-- All that is decided about an update before it is accepted or dropped. -/
structure Reading where
  isSOE : Bool
  conv : Conversion
  valueJson : String
  alarmRange : Number
  alarmed : Bool
  limitEvent : Bool
  deriving DecidableEq

/-- The alarm flag after conversion: a changed digital value raises it. -/
def raised (doc : Point) (conv : Conversion) : Bool :=
  doc.alarmed ||
    (doc.type = .digital && !conv.value.eqv doc.value && !doc.alarmDisabled.truthy)

def readUpdate (clock : Clock) (doc : Point) (sdu : SourceDataUpdate) : Reading :=
  let conv := convert doc sdu
  let limits :=
    if doc.type = .analog then checkLimits doc conv.value (raised doc conv)
    else ⟨.fin 0, raised doc conv, false⟩
  { isSOE := isSOE clock doc sdu
    conv := conv
    valueJson := sdu.valueJsonAtSource.getD ""
    alarmRange := limits.alarmRange
    alarmed := limits.alarmed
    limitEvent := limits.event }

/-- Update realtimeData only if changed or for SOE; must not be historical backfill. -/
def accepted (doc : Point) (sdu : SourceDataUpdate) (r : Reading) : Bool :=
  (r.isSOE || (match sdu.rangeCheck with | some t => t ≠ 0 | none => false) ||
    (!r.conv.value.eqv doc.value &&
      !(!r.isSOE && doc.type = .digital && doc.isEvent = some true)) ||
    (doc.type = .string && r.conv.valueString ≠ doc.valueString) ||
    (doc.type = .json && .val r.valueJson ≠ doc.valueJson) ||
    sdu.timeTagAtSource.isSome ||
    doc.timeTag = .null ||
    r.conv.invalid ≠ doc.invalid) &&
  !sdu.isHistorical

/-- Changed to alarmed state, or digital change or SOE: register a new alarm time. -/
def newAlarm (doc : Point) (r : Reading) : Bool :=
  !doc.alarmDisabled.truthy && r.alarmed &&
    (!doc.alarmed || (doc.type = .digital && !r.conv.value.eqv doc.value) ||
      (doc.type = .digital && r.isSOE))

/-- The condition of the beep variable. -/
def beeps (doc : Point) (r : Reading) : Bool :=
  !doc.alarmDisabled.truthy &&
    ((r.alarmed && r.isSOE && doc.isEvent = some true && doc.type = .digital &&
        !r.conv.value.eqv (.fin 0)) ||
      (r.alarmed && doc.isEvent = some false && doc.type = .digital) ||
      (r.alarmed && !doc.alarmed))

def beepUpdate (clock : Clock) (doc : Point) (r : Reading) : List RtUpdate :=
  if beeps doc r then
    -- an alarm of priority zero signals an important beep
    if doc.priority.eqv (.fin 0) then [.beep (some (.fin 2)) clock.now doc.group1]
    else if doc.priority.le LowestPriorityThatBeeps then
      [.beep none clock.now doc.group1]
    else []
  else []

def counts (doc : Point) : Bool := !doc.alarmDisabled.truthy && doc.type = .digital

def counterUpdate (clock : Clock) (count : ℕ) (doc : Point) : List RtUpdate :=
  if counts doc then [.counter (count + 1) clock.now] else []

/-- The historian takes the update: not excluded and outside the dead band. -/
def insertIntoHistorian (doc : Point) (sdu : SourceDataUpdate) (value : Number) : Bool :=
  match doc.historianPeriod with
  | .absent => true
  | period =>
    if period.toNumber.lt (.fin 0) || sdu.isNotForHistorical then false
    else match doc.historianDeadBand, doc.historianLastValue with
      | .val band, .val last =>
        !(doc.type = .analog && (Number.lt (.fin 0) band) && (value.sub last).abs.lt band.abs)
      | _, _ => true

def pointUpdate (clock : Clock) (doc : Point) (sdu : SourceDataUpdate) (r : Reading) :
    PointUpdate :=
  { _id := doc._id
    value := r.conv.value
    valueString := r.conv.valueString
    valueJson := r.valueJson
    historianLastValue :=
      if doc.type = .analog && insertIntoHistorian doc sdu r.conv.value then some r.conv.value
      else none
    timeTag := clock.now
    overflow := r.conv.overflow
    invalid := r.conv.invalid
    transient := r.conv.transient
    timeTagAtSource := sdu.timeTagAtSource
    timeTagAtSourceOk := if sdu.timeTagAtSource.isSome then sdu.timeTagAtSourceOk else none
    updatesCnt := doc.updatesCnt.toNumber.add (.fin 1)
    alarmRange := r.alarmRange
    alarmed := if doc.alarmDisabled = .bool true then false else r.alarmed
    timeTagAlarm := if newAlarm doc r then some clock.now else none }

/-- Do not update protection-like events for state OFF. -/
def stored (doc : Point) (r : Reading) : Bool :=
  !(doc.isEvent = some true && doc.type = .digital && r.conv.value.eqv (.fin 0))

def histEntry (doc : Point) (sdu : SourceDataUpdate) (r : Reading) : HistEntry :=
  { tag := doc.tag
    type := doc.type
    timeTag := sdu.timeTag
    value := r.conv.value
    valueString := r.conv.valueString
    valueJson := r.valueJson
    invalid := r.conv.invalid
    timeTagAtSource := sdu.timeTagAtSource
    timeTagAtSourceOk := if sdu.timeTagAtSource.isSome then sdu.timeTagAtSourceOk else none
    causeOfTransmissionAtSource := sdu.causeOfTransmissionAtSource }

def arrow (up down : String) (value old : Number) : String :=
  if old.abs.lt value.abs then up else if value.abs.lt old.abs then down else ""

def eventValue (doc : Point) (value : Number) : String :=
  String.ofList (numToString (parseFloat (toFixed 3 value))) ++ " " ++ doc.unit

/-- SOE entry for the limits alarm or normalisation. -/
def limitEvent (clock : Clock) (doc : Point) (r : Reading) : SoeEvent :=
  { tag := doc.tag, pointKey := doc._id, group1 := doc.group1, description := doc.description
    eventText := eventValue doc r.conv.value ++ arrow " ⤉" " ⤈" r.conv.value doc.value ++
      (if r.alarmed then " 🚩" else " 🆗")
    invalid := false, priority := doc.priority, timeTag := clock.now
    timeTagAtSource := some clock.now, timeTagAtSourceOk := some true
    ack := if r.alarmed then 0 else 1 }

/-- Analog tags produce SOE events when marked so and validly changed, or with source time. -/
def valueEvents (clock : Clock) (doc : Point) (sdu : SourceDataUpdate) (r : Reading) :
    List SoeEvent :=
  if doc.type = .analog && !doc.alarmDisabled.truthy &&
      ((doc.isEvent = some true && !r.conv.invalid && !r.conv.value.eqv doc.value) || r.isSOE) then
    [{ tag := doc.tag, pointKey := doc._id, group1 := doc.group1, description := doc.description
       eventText := eventValue doc r.conv.value ++ arrow " ↑" " ↓" r.conv.value doc.value
       invalid := false, priority := doc.priority, timeTag := clock.now
       timeTagAtSource := if r.isSOE then sdu.timeTagAtSource else some clock.now
       timeTagAtSourceOk := if r.isSOE then sdu.timeTagAtSourceOk else some false
       ack := 1 }]
  else []

def digitalEvents (clock : Clock) (doc : Point) (sdu : SourceDataUpdate) (r : Reading) :
    List SoeEvent :=
  if r.isSOE && doc.type ≠ .analog && !doc.alarmDisabled.truthy && !sdu.isNotForHistorical &&
      !(r.conv.value.eqv (.fin 0) && doc.isEvent = some true) then
    [{ tag := doc.tag, pointKey := doc._id, group1 := doc.group1, description := doc.description
       eventText := if r.conv.value.eqv (.fin 0) then doc.eventTextFalse else doc.eventTextTrue
       invalid := r.conv.invalid, priority := doc.priority, timeTag := clock.now
       timeTagAtSource := sdu.timeTagAtSource, timeTagAtSourceOk := sdu.timeTagAtSourceOk
       ack := 0 }]
  else []

/-- The handler of one change event of an active process: `doc` is the document
looked up for the event, `sdu` the update the event carries. -/
def change (clock : Clock) (count : ℕ) (doc : Point) (sdu : SourceDataUpdate) : Outcome :=
  let r := readUpdate clock doc sdu
  let taken := accepted doc sdu r
  { enqueued :=
      if taken then
        beepUpdate clock doc r ++ counterUpdate clock count doc ++
          (if stored doc r then [.point (pointUpdate clock doc sdu r)] else [])
      else []
    limitEvents := if r.limitEvent then [limitEvent clock doc r] else []
    valueEvents := valueEvents clock doc sdu r
    digitalEvents := digitalEvents clock doc sdu r
    hist :=
      if taken && insertIntoHistorian doc sdu r.conv.value then [histEntry doc sdu r] else []
    digitalUpdatesCount := if taken && counts doc then count + 1 else count }

/-- What a change enqueues: nothing when dropped, else a beep, a count and an update. -/
theorem mem_enqueued {clock : Clock} {count : ℕ} {doc : Point} {sdu : SourceDataUpdate}
    {q : RtUpdate} :
    q ∈ (change clock count doc sdu).enqueued ↔
      accepted doc sdu (readUpdate clock doc sdu) = true ∧
        (q ∈ beepUpdate clock doc (readUpdate clock doc sdu) ∨ q ∈ counterUpdate clock count doc ∨
          (stored doc (readUpdate clock doc sdu) = true ∧
            q = .point (pointUpdate clock doc sdu (readUpdate clock doc sdu)))) := by
  simp only [change]
  cases accepted doc sdu (readUpdate clock doc sdu) <;>
    cases stored doc (readUpdate clock doc sdu) <;> simp

theorem readUpdate_analog {clock : Clock} {doc : Point} {sdu : SourceDataUpdate}
    (h : doc.type = .analog) :
    (readUpdate clock doc sdu).alarmRange =
        (checkLimits doc (convert doc sdu).value doc.alarmed).alarmRange ∧
      (readUpdate clock doc sdu).alarmed =
        (checkLimits doc (convert doc sdu).value doc.alarmed).alarmed ∧
      (readUpdate clock doc sdu).limitEvent =
        (checkLimits doc (convert doc sdu).value doc.alarmed).event := by
  have hraised : raised doc (convert doc sdu) = doc.alarmed := by simp [raised, h]
  simp [readUpdate, h, hraised]

/-- The range an update of a point with limits computes, and when it makes an event. -/
theorem readUpdate_limits {clock : Clock} {doc : Point} {sdu : SourceDataUpdate} {l : LimitSet}
    (h : doc.type = .analog) (hl : limitSet doc = some l) :
    (readUpdate clock doc sdu).alarmRange = l.range doc.alarmRange (convert doc sdu).value ∧
      (readUpdate clock doc sdu).limitEvent =
        doc.alarmRange.looseNe (l.range doc.alarmRange (convert doc sdu).value) := by
  obtain ⟨hrange, -, hevent⟩ := @readUpdate_analog clock doc sdu h
  rw [hrange, hevent, checkLimits, hl]
  cases hne : doc.alarmRange.looseNe (l.range doc.alarmRange (convert doc sdu).value) <;>
    simp [hne]

end JsonScada.Processor.Change
