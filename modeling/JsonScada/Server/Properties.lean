/- path: JsonScada/Server/Properties
   source: src/server_realtime_auth/index.js, Write Properties
   digest: Writing the properties of a point: rights, the fields set, and the events inserted. -/

import JsonScada.Server.Database

set_option autoImplicit false
set_option relaxedAutoImplicit false

namespace JsonScada.Server.Properties

open JsonScada.Lib.Binary64 JsonScada.Lib.EcmaScript JsonScada.Lib.Collection
open JsonScada.Model.Documents JsonScada.Server.Request JsonScada.Server.Database

/-- The `$set` of the update: the properties that differ and that the user may write. -/
structure PropertySet where
  alarmDisabled : Option JsVal
  annotation : Option JsVal
  loLimit : Option Number
  hiLimit : Option Number
  hysteresis : Option Number
  notes : Option JsVal
  value : Option Number
  deriving DecidableEq

section Set

variable (h : Host) (s : Session)

/-- The user may write the property, and `prevData?.property !== value`. -/
def differs (right : Rights → Bool) (prev value : JsVal) : Bool :=
  s.may right && !prev.strictEq value

/-- A field of the document found, undefined when none was found. -/
def field (prevData : Option Point) (f : Point → JsVal) : JsVal :=
  match prevData with
  | some p => f p
  | none => .undefined

/-- The new value of a property, when it is to be written. -/
def written {α : Type} (b : Bool) (value : α) : Option α := if b then some value else none

def propertySet (prevData : Option Point) (props : Properties) : PropertySet :=
  let text (right : Rights → Bool) (f : Point → JsVal) (value : JsVal) : Option JsVal :=
    written (differs s right (field prevData f) value) value
  let double (right : Rights → Bool) (f : Point → JsVal) (value : JsVal) : Option Number :=
    written (differs s right (field prevData f) value) (h.number value)
  { alarmDisabled := text Rights.disableAlarms Point.alarmDisabled props.alarmDisabled
    annotation := text Rights.enterAnnotations Point.annotation props.annotation
    loLimit := double Rights.enterLimits (fun p => p.loLimit.toJs) props.loLimit
    hiLimit := double Rights.enterLimits (fun p => p.hiLimit.toJs) props.hiLimit
    hysteresis := double Rights.enterLimits (fun p => p.hysteresis.toJs) props.hysteresis
    notes := text Rights.enterNotes Point.notes props.notes
    value := match props.newValue with
      | some newValue =>
        if props.hasSubstituted then
          double Rights.substituteValues (fun p => .num p.value) newValue
        else none
      | none => none }

/-- The driver stores an undefined value as null. -/
def storedValue : JsVal → JsVal
  | .undefined => .null
  | v => v

def PropertySet.update (set : PropertySet) (p : Point) : Point :=
  { p with
    alarmDisabled := (set.alarmDisabled.map storedValue).getD p.alarmDisabled
    annotation := (Option.map storedValue set.annotation).getD p.annotation
    loLimit := (set.loLimit.map .val).getD p.loLimit
    hiLimit := (set.hiLimit.map .val).getD p.hiLimit
    hysteresis := (set.hysteresis.map .val).getD p.hysteresis
    notes := (set.notes.map storedValue).getD p.notes
    value := set.value.getD p.value }

/-- The properties in the entry of the action log. -/
def PropertySet.logged (set : PropertySet) : List (String × JsVal) :=
  let entry (name : String) (v : Option JsVal) : List (String × JsVal) :=
    v.toList.map fun v => (name, v)
  entry "alarmDisabled" set.alarmDisabled ++ entry "annotation" set.annotation ++
    entry "loLimit" (set.loLimit.map .num) ++ entry "hiLimit" (set.hiLimit.map .num) ++
    entry "hysteresis" (set.hysteresis.map .num) ++ entry "notes" set.notes ++
    entry "value" (set.value.map .num)

/-- Limits or the alarm state changed: the range is to be checked again. -/
def PropertySet.rechecksRange (set : PropertySet) : Bool :=
  set.alarmDisabled.isSome || set.hiLimit.isSome || set.loLimit.isSome || set.hysteresis.isSome

/-- `{ ...prevData.sourceDataUpdate, rangeCheck: now }`. -/
def withRangeCheck (now : Date) : SourceField → SourceField
  | .none => .bare now
  | .bare _ => .bare now
  | .data u => .data { u with rangeCheck := some now }

/-- The update for the range check, made of the document as it was before. -/
def rangeCheckUpdate (prevData p : Point) : Point :=
  { p with sourceDataUpdate := withRangeCheck s.now prevData.sourceDataUpdate }

def pointEvent (prevData : Point) (eventText : String) : SoeEvent :=
  { tag := prevData.tag, pointKey := prevData._id, group1 := prevData.group1
    description := prevData.description, eventText := eventText, invalid := false
    priority := prevData.priority, timeTag := s.now, timeTagAtSource := some s.now
    timeTagAtSourceOk := some true, ack := 1 }

/-- The event of a changed annotation. An annotation that is no text has no trim. -/
def annotationStage (prevData : Point) (set : PropertySet) (db : Db) : Option Db :=
  match set.annotation with
  | none => some db
  | some (.str a) =>
    some (db.insertSoe h (pointEvent s prevData (if trim a.toList = [] then "🏷️🗑️" else "🏷️🔒")))
  | some _ => none

/-- The event of a changed value. The value is a BSON double, which has no toFixed. -/
def valueStage (prevData : Point) (set : PropertySet) (db : Db) : Option Db :=
  match set.value with
  | none => some db
  | some v =>
    if prevData.type = .digital then
      some (db.insertSoe h (pointEvent s prevData
        (if v.eqv (.fin 0) then prevData.eventTextFalse else prevData.eventTextTrue)))
    else none

def propertyAction (id : JsVal) (set : PropertySet) : UserAction :=
  { username := s.username, action := "Update Properties", pointKey := id
    properties := set.logged, timeTag := s.now }

/-- From the updates on: a point that was not found, and an event that cannot be made, are
exceptions after the update. -/
def setProperties (q : Point → Bool) (id : JsVal) (props : Properties) (db : Db) : Db × Flow :=
  let prevData := db.realtimeData.find? q
  let set := propertySet h s prevData props
  let db := db.updatePoints (updateOne q set.update)
  if !h.acknowledged then (db, .next [.BadNodeIdUnknown])
  else
    let db := db.logAction (propertyAction s id set)
    match prevData with
    | none => (db, .thrown)
    | some prevData =>
      let db :=
        if prevData.type = .analog && set.rechecksRange then
          db.updatePoints (updateOne q (rangeCheckUpdate s prevData))
        else db
      match annotationStage h s prevData set db with
      | none => (db, .thrown)
      | some db₁ => match valueStage h s prevData set db₁ with
        | none => (db₁, .thrown)
        | some db₂ => (db₂, .next [.Good])

/-- A node that writes properties. The point is looked up by key or tag alone. -/
def writeProperties (db : Db) (n : Node) : Db × Flow :=
  match n.nodeId with
  | none => (db, .next [])
  | some nodeId => match nodeId.id with
    | none => (db, .next [.BadNodeIdInvalid])
    | some id => match h.findPoint nodeId with
      | .null => (db, .reply .BadNodeIdInvalid)
      | .rejected => (db, .thrown)
      | .filter q => match n.value.bind WriteValue.properties with
        | none => (db, .thrown)
        | some props => setProperties h s q id props db

/-- What a node is to hold for its properties to be written. -/
def Writes (n : Node) (nodeId : NodeId) (q : Point → Bool) (props : Properties) : Prop :=
  n.nodeId = some nodeId ∧ nodeId.id.isSome = true ∧ h.findPoint nodeId = .filter q ∧
    n.value.bind WriteValue.properties = some props

/-- Properties are written, or the database is left alone. -/
theorem writeProperties_cases (db : Db) (n : Node) :
    (∃ nodeId q props id, Writes h n nodeId q props ∧
        writeProperties h s db n = setProperties h s q id props db) ∨
      ((¬ ∃ nodeId q props, Writes h n nodeId q props) ∧ (writeProperties h s db n).1 = db) := by
  unfold writeProperties Writes
  cases hn : n.nodeId with
  | none => exact .inr ⟨by simp, rfl⟩
  | some nodeId =>
    simp only []
    cases hid : nodeId.id with
    | none =>
      refine .inr ⟨?_, rfl⟩
      rintro ⟨nodeId', q, props, hn', hsome, -⟩
      cases hn'
      rw [hid] at hsome
      cases hsome
    | some id =>
      simp only []
      cases hf : h.findPoint nodeId with
      | null =>
        refine .inr ⟨?_, rfl⟩
        rintro ⟨nodeId', q, props, hn', -, hf', -⟩
        cases hn'
        rw [hf] at hf'
        cases hf'
      | rejected =>
        refine .inr ⟨?_, rfl⟩
        rintro ⟨nodeId', q, props, hn', -, hf', -⟩
        cases hn'
        rw [hf] at hf'
        cases hf'
      | filter q =>
        simp only []
        cases hp : n.value.bind WriteValue.properties with
        | none =>
          refine .inr ⟨?_, rfl⟩
          rintro ⟨nodeId', q', props, -, -, -, hp'⟩
          cases hp'
        | some props =>
          exact .inl ⟨nodeId, q, props, id, ⟨rfl, by rw [hid]; rfl, hf, rfl⟩, rfl⟩

end Set

end JsonScada.Server.Properties
