/- path: JsonScada/System/Confinement
   source: src/server_realtime_auth/index.js, WRITE SERVICE
   digest: Which write requests change documents outside the groups of the user. -/

import JsonScada.Server.Write

set_option autoImplicit false
set_option relaxedAutoImplicit false

namespace JsonScada.System.Confinement

open JsonScada.Lib.Binary64 JsonScada.Lib.EcmaScript JsonScada.Lib.Machine
open JsonScada.Lib.Collection JsonScada.Model.Documents JsonScada.Server.Request
open JsonScada.Server.Database JsonScada.Server.Acknowledge JsonScada.Server.Silence
open JsonScada.Server.Command JsonScada.Server.EventAck JsonScada.Server.Properties
open JsonScada.Server.Write

/-- A point outside the groups of the user, the beep point excepted. -/
def Foreign (s : Session) (p : Point) : Prop :=
  p.group1 ∉ s.rights.group1List ∧ p._id ≠ beepPointKey

def ForeignEvent (s : Session) (d : SoeDoc) : Prop := d.event.group1 ∉ s.rights.group1List

/-- No document outside the groups of the user is changed. -/
structure Confined (s : Session) (db db' : Db) : Prop where
  realtimeData : Keeps (Foreign s) db.realtimeData db'.realtimeData
  soeData : Keeps (ForeignEvent s) db.soeData db'.soeData

/-- What no write changes of a point: the fields that say whether it is foreign. -/
def key (p : Point) : Number × String := (p._id, p.group1)

/-- What every write keeps: keys and groups of the points, and foreign events. -/
structure Frame (s : Session) (db db' : Db) : Prop where
  keys : db'.realtimeData.map key = db.realtimeData.map key
  soeData : Keeps (ForeignEvent s) db.soeData db'.soeData

theorem foreign_of_key {s : Session} (a b : Point) (h : key a = key b) :
    Foreign s a ↔ Foreign s b := by
  obtain ⟨hid, hgroup⟩ := Prod.mk.inj h
  rw [Foreign, Foreign, hid, hgroup]

section Frame

variable {s : Session} {db db' db'' : Db}

theorem Frame.refl (db : Db) : Frame s db db := ⟨rfl, Keeps.refl _⟩

theorem Frame.trans (h₁ : Frame s db db') (h₂ : Frame s db' db'') : Frame s db db'' :=
  ⟨h₂.keys.trans h₁.keys, h₁.soeData.trans h₂.soeData⟩

theorem Confined.refl (db : Db) : Confined s db db := ⟨Keeps.refl _, Keeps.refl _⟩

theorem Confined.trans (h₁ : Confined s db db') (h₂ : Confined s db' db'') : Confined s db db'' :=
  ⟨h₁.realtimeData.trans h₂.realtimeData, h₁.soeData.trans h₂.soeData⟩

/-- Inserting an event changes no document. -/
theorem frame_insertSoe (h : Host) (e : SoeEvent) (db : Db) :
    Frame s db (db.insertSoe h e) ∧ (db.insertSoe h e).realtimeData = db.realtimeData :=
  ⟨⟨rfl, keeps_append _ _⟩, rfl⟩

end Frame

section Acknowledge

variable {h : Host} {s : Session}

/-- A filter on the user's groups matches no foreign document. -/
theorem not_foreign_of_inGroup (ha : s.authentication = true) (hg : s.rights.group1List ≠ [])
    {p : Point} (hp : s.inGroup p.group1 = true) : ¬ Foreign s p :=
  fun hf => hf.1 ((Session.inGroup_eq_true ha hg).mp hp)

theorem confined_ackEvents (ha : s.authentication = true) (hg : s.rights.group1List ≠ [])
    (cond : SoeDoc → Bool) (ack : ℕ) (db : Db) : Confined s db (ackEvents s cond ack db) := by
  refine ⟨Keeps.refl _, keeps_updateMany_of_not ?_⟩
  intro d _ hd hf
  have hin : s.inGroup d.event.group1 = true := (Bool.and_eq_true_iff.mp hd).2
  exact hf ((Session.inGroup_eq_true ha hg).mp hin)

theorem eventStage_spec (ha : s.authentication = true) (hg : s.rights.group1List ≠ [])
    {body id : JsVal} {event_id : Option JsVal} {db db' : Db}
    (he : eventStage h s body id event_id db = some db') :
    Confined s db db' ∧ db'.realtimeData = db.realtimeData := by
  have hack : ∀ cond ack a, Confined s db ((ackEvents s cond ack db).logAction a) ∧
      ((ackEvents s cond ack db).logAction a).realtimeData = db.realtimeData := by
    intro cond ack a
    obtain ⟨hpoints, hevents⟩ := confined_ackEvents ha hg cond ack db
    exact ⟨⟨hpoints, hevents⟩, rfl⟩
  unfold eventStage at he
  split_ifs at he
  · cases he
    exact hack _ _ _
  · cases he
    exact hack _ _ _
  · obtain ⟨q, -, rfl⟩ := Option.map_eq_some_iff.mp he
    exact hack _ _ _
  · obtain ⟨q, -, rfl⟩ := Option.map_eq_some_iff.mp he
    exact hack _ _ _
  · obtain ⟨eventId, -, rfl⟩ := Option.map_eq_some_iff.mp he
    exact hack _ _ _
  · obtain ⟨eventId, -, rfl⟩ := Option.map_eq_some_iff.mp he
    exact hack _ _ _
  · cases he
    exact ⟨Confined.refl db, rfl⟩

theorem key_clearAlarm (p : Point) : key (clearAlarm p) = key p := rfl

theorem key_resetEvent (p : Point) : key (resetEvent p) = key p := rfl

theorem keeps_ackAllAlarmsIn (ha : s.authentication = true) (hg : s.rights.group1List ≠ [])
    (points : List Point) : Keeps (Foreign s) points (ackAllAlarmsIn s points) := by
  refine (keeps_updateMany_of_not ?_).trans (keeps_updateMany_of_not ?_)
  · intro p _ hp
    exact not_foreign_of_inGroup ha hg hp
  · intro p _ hp
    simp only [Bool.and_eq_true] at hp
    exact not_foreign_of_inGroup ha hg hp.1.1

theorem keeps_ackOneAlarmIn (ha : s.authentication = true) (hg : s.rights.group1List ≠ [])
    (q : Point → Bool) (points : List Point) :
    Keeps (Foreign s) points (ackOneAlarmIn s q points) := by
  refine (keeps_updateOne ?_).trans (keeps_updateOne ?_)
  · intro p _ hp
    simp only [Bool.and_eq_true] at hp
    exact not_foreign_of_inGroup ha hg hp.2
  · intro p _ hp
    simp only [Bool.and_eq_true] at hp
    exact not_foreign_of_inGroup ha hg hp.1.2

theorem alarmStage_spec (ha : s.authentication = true) (hg : s.rights.group1List ≠ [])
    {body : JsVal} {nodeId : NodeId} {db db' : Db} (he : alarmStage h s body nodeId db = some db') :
    Frame s db db' ∧ Keeps (Foreign s) db.realtimeData db'.realtimeData := by
  unfold alarmStage at he
  split_ifs at he
  · cases he
    refine ⟨⟨?_, Keeps.refl _⟩, keeps_ackAllAlarmsIn ha hg _⟩
    exact (map_updateMany key_resetEvent _).trans (map_updateMany key_clearAlarm _)
  · cases hf : h.findPoint nodeId with
    | null =>
      rw [hf] at he
      cases he
    | rejected =>
      rw [hf] at he
      cases he
    | filter q =>
      rw [hf] at he
      cases he
      refine ⟨⟨?_, Keeps.refl _⟩, keeps_ackOneAlarmIn ha hg q _⟩
      exact (map_updateOne key_resetEvent _).trans (map_updateOne key_clearAlarm _)
  · cases he
    exact ⟨Frame.refl db, Keeps.refl _⟩

theorem key_update (op : SilenceOp) (p : Point) : key (op.update p) = key p := by
  cases op with
  | pullAll gs => rfl
  | zeroIfEmpty =>
    show key (if p.beepGroup1List = some [] then zeroBeep p else p) = key p
    split_ifs <;> rfl
  | clear => rfl

theorem silencePoints_spec (points : List Point) :
    (silencePoints s points).map key = points.map key ∧
      Keeps (Foreign s) points (silencePoints s points) := by
  unfold silencePoints
  generalize silenceOps s.authentication s.rights.group1List = ops
  induction ops generalizing points with
  | nil => exact ⟨rfl, Keeps.refl _⟩
  | cons op ops ih =>
    obtain ⟨hkeys, hkeep⟩ := ih (updateOne (fun p => p._id = beepPointKey) op.update points)
    refine ⟨hkeys.trans (map_updateOne (key_update op) points),
      Keeps.trans (keeps_updateOne ?_) hkeep⟩
    intro p _ hp hf
    exact hf.2 (by simpa using hp)

theorem silenceStage_spec (body : JsVal) (db : Db) :
    Frame s db (silenceStage h s body db) ∧
      Keeps (Foreign s) db.realtimeData (silenceStage h s body db).realtimeData := by
  unfold silenceStage
  split_ifs
  · obtain ⟨hkeys, hkeep⟩ := @silencePoints_spec s db.realtimeData
    exact ⟨⟨hkeys, Keeps.refl _⟩, hkeep⟩
  · exact ⟨Frame.refl db, Keeps.refl _⟩

/-- An acknowledge changes no foreign document. -/
theorem writeAck_spec (ha : s.authentication = true) (hg : s.rights.group1List ≠ []) (db : Db)
    (n : Node) : Frame s db (writeAck h s db n).1 ∧
      Keeps (Foreign s) db.realtimeData (writeAck h s db n).1.realtimeData := by
  have hrefl : Frame s db db ∧ Keeps (Foreign s) db.realtimeData db.realtimeData :=
    ⟨Frame.refl db, Keeps.refl _⟩
  unfold writeAck
  cases n.value with
  | none => exact hrefl
  | some v =>
    simp only []
    split_ifs
    · exact hrefl
    · cases n.nodeId with
      | none => exact hrefl
      | some nodeId =>
        simp only []
        cases he : eventStage h s v.body (nodeId.id.getD .undefined) n.event_id db with
        | none => exact hrefl
        | some db₁ =>
          obtain ⟨hconf, hsame⟩ := eventStage_spec ha hg he
          have hframe₁ : Frame s db db₁ := ⟨by rw [hsame], hconf.soeData⟩
          simp only []
          cases hal : alarmStage h s v.body nodeId db₁ with
          | none => exact ⟨hframe₁, hconf.realtimeData⟩
          | some db₂ =>
            obtain ⟨hframe₂, hkeep₂⟩ := alarmStage_spec ha hg hal
            obtain ⟨hframe₃, hkeep₃⟩ := @silenceStage_spec h s v.body db₂
            exact ⟨(hframe₁.trans hframe₂).trans hframe₃,
              (hconf.realtimeData.trans hkeep₂).trans hkeep₃⟩

end Acknowledge

/-- A command inserts documents and changes none. -/
theorem applyEffects_spec {h : Host} {s : Session} (es : List Effect) (db : Db) :
    Frame s db (applyEffects h es db) ∧ (applyEffects h es db).realtimeData = db.realtimeData := by
  unfold applyEffects
  induction es generalizing db with
  | nil => exact ⟨Frame.refl db, rfl⟩
  | cons e es ih =>
    have hone : Frame s db (e.apply h db) ∧ (e.apply h db).realtimeData = db.realtimeData := by
      cases e with
      | canSendCommandTo data => exact ⟨Frame.refl db, rfl⟩
      | insertCommand c => exact ⟨⟨rfl, Keeps.refl _⟩, rfl⟩
      | insertSoe e => exact frame_insertSoe h e db
      | logAction a => exact ⟨⟨rfl, Keeps.refl _⟩, rfl⟩
    obtain ⟨hframe, hsame⟩ := ih (e.apply h db)
    exact ⟨hone.1.trans hframe, hsame.trans hone.2⟩

section Properties

variable (h : Host) (s : Session)

/-- Writing the properties to a point changes it: a property the user may write is not the
stored one and is stored as something else, or the range check sets another time. -/
inductive Alters (p : Point) (props : Properties) : Prop where
  | alarmDisabled (hd : differs s Rights.disableAlarms p.alarmDisabled props.alarmDisabled = true)
      (hv : storedValue props.alarmDisabled ≠ p.alarmDisabled)
  | annotation (hd : differs s Rights.enterAnnotations p.annotation props.annotation = true)
      (hv : storedValue props.annotation ≠ p.annotation)
  | loLimit (hd : differs s Rights.enterLimits p.loLimit.toJs props.loLimit = true)
      (hv : .val (h.number props.loLimit) ≠ p.loLimit)
  | hiLimit (hd : differs s Rights.enterLimits p.hiLimit.toJs props.hiLimit = true)
      (hv : .val (h.number props.hiLimit) ≠ p.hiLimit)
  | hysteresis (hd : differs s Rights.enterLimits p.hysteresis.toJs props.hysteresis = true)
      (hv : .val (h.number props.hysteresis) ≠ p.hysteresis)
  | notes (hd : differs s Rights.enterNotes p.notes props.notes = true)
      (hv : storedValue props.notes ≠ p.notes)
  | value (newValue : JsVal) (hn : props.newValue = some newValue)
      (hs : props.hasSubstituted = true)
      (hd : differs s Rights.substituteValues (.num p.value) newValue = true)
      (hv : h.number newValue ≠ p.value)
  | rangeCheck (hack : h.acknowledged = true) (ht : p.type = .analog)
      (hd : (differs s Rights.disableAlarms p.alarmDisabled props.alarmDisabled ||
        differs s Rights.enterLimits p.hiLimit.toJs props.hiLimit ||
        differs s Rights.enterLimits p.loLimit.toJs props.loLimit ||
        differs s Rights.enterLimits p.hysteresis.toJs props.hysteresis) = true)
      (hv : withRangeCheck s.now p.sourceDataUpdate ≠ p.sourceDataUpdate)

/-- A node that writes properties to a point outside the groups of the user, and changes it. -/
def AltersForeign (db : Db) (n : Node) : Prop :=
  (∃ attributeId, n.attributeId = some attributeId ∧
    h.looseEq attributeId AttributeId.ExtendedAlarmEventsAck = false ∧
    h.looseEq attributeId AttributeId.Value = false ∧
    h.looseEq attributeId AttributeId.Description = true) ∧
  ∃ nodeId q props p, Writes h n nodeId q props ∧ db.realtimeData.find? q = some p ∧
    Foreign s p ∧ Alters h s p props

variable {h s}

/-- A property keeps its old value just when it is not written or is written as it was. -/
theorem getD_written_iff {α β : Type} {b : Bool} {g : α → β} {v : α} {old : β} :
    ((written b v).map g).getD old = old ↔ ¬ (b = true ∧ g v ≠ old) := by
  cases b <;> simp [written]

theorem isSome_written {α : Type} {b : Bool} {v : α} : (written b v).isSome = b := by
  cases b <;> rfl

/-- What setProperties makes of the point it finds. -/
def edited (h : Host) (s : Session) (props : Properties) (prevData p : Point) : Point :=
  let set := propertySet h s (some prevData) props
  if h.acknowledged && (prevData.type = .analog && set.rechecksRange) then
    rangeCheckUpdate s prevData (set.update p)
  else set.update p

theorem update_eq_self_iff {set : PropertySet} {p : Point} :
    set.update p = p ↔
      (set.alarmDisabled.map storedValue).getD p.alarmDisabled = p.alarmDisabled ∧
      (Option.map storedValue set.annotation).getD p.annotation = p.annotation ∧
      (set.loLimit.map .val).getD p.loLimit = p.loLimit ∧
      (set.hiLimit.map .val).getD p.hiLimit = p.hiLimit ∧
      (set.hysteresis.map .val).getD p.hysteresis = p.hysteresis ∧
      (set.notes.map storedValue).getD p.notes = p.notes ∧
      set.value.getD p.value = p.value := by
  constructor
  · intro he
    exact ⟨congrArg Point.alarmDisabled he, congrArg Point.annotation he,
      congrArg Point.loLimit he, congrArg Point.hiLimit he, congrArg Point.hysteresis he,
      congrArg Point.notes he, congrArg Point.value he⟩
  · rintro ⟨h1, h2, h3, h4, h5, h6, h7⟩
    rw [PropertySet.update, h1, h2, h3, h4, h5, h6, h7]

theorem rangeCheckUpdate_eq_self_iff {set : PropertySet} {p : Point} :
    rangeCheckUpdate s p (set.update p) = p ↔
      set.update p = p ∧ withRangeCheck s.now p.sourceDataUpdate = p.sourceDataUpdate := by
  constructor
  · intro he
    refine ⟨update_eq_self_iff.mpr ?_, congrArg Point.sourceDataUpdate he⟩
    exact ⟨congrArg Point.alarmDisabled he, congrArg Point.annotation he,
      congrArg Point.loLimit he, congrArg Point.hiLimit he, congrArg Point.hysteresis he,
      congrArg Point.notes he, congrArg Point.value he⟩
  · rintro ⟨hset, hrange⟩
    rw [hset, rangeCheckUpdate, hrange]

/-- The value is left alone unless it is to be substituted by another one. -/
theorem value_eq_self_iff {p : Point} {props : Properties} :
    (propertySet h s (some p) props).value.getD p.value = p.value ↔
      ¬ ∃ newValue, props.newValue = some newValue ∧ props.hasSubstituted = true ∧
        differs s Rights.substituteValues (.num p.value) newValue = true ∧
        h.number newValue ≠ p.value := by
  simp only [propertySet, field]
  cases props.newValue with
  | none => simp
  | some v =>
    cases props.hasSubstituted with
    | false => simp
    | true =>
      simp only [if_true, Option.some.injEq, exists_eq_left', true_and]
      generalize differs s Rights.substituteValues (.num p.value) v = b
      cases b <;> simp [written]

theorem rechecksRange_iff {p : Point} {props : Properties} :
    (propertySet h s (some p) props).rechecksRange =
      (differs s Rights.disableAlarms p.alarmDisabled props.alarmDisabled ||
        differs s Rights.enterLimits p.hiLimit.toJs props.hiLimit ||
        differs s Rights.enterLimits p.loLimit.toJs props.loLimit ||
        differs s Rights.enterLimits p.hysteresis.toJs props.hysteresis) := by
  simp only [PropertySet.rechecksRange, propertySet, field, isSome_written]

/-- The point found is left as it is just when the properties do not alter it. -/
theorem edited_eq_self_iff {p : Point} {props : Properties} :
    edited h s props p p = p ↔ ¬ Alters h s p props := by
  have hset : (propertySet h s (some p) props).update p = p ↔
      ¬ (differs s Rights.disableAlarms p.alarmDisabled props.alarmDisabled = true ∧
        storedValue props.alarmDisabled ≠ p.alarmDisabled) ∧
      ¬ (differs s Rights.enterAnnotations p.annotation props.annotation = true ∧
        storedValue props.annotation ≠ p.annotation) ∧
      ¬ (differs s Rights.enterLimits p.loLimit.toJs props.loLimit = true ∧
        .val (h.number props.loLimit) ≠ p.loLimit) ∧
      ¬ (differs s Rights.enterLimits p.hiLimit.toJs props.hiLimit = true ∧
        .val (h.number props.hiLimit) ≠ p.hiLimit) ∧
      ¬ (differs s Rights.enterLimits p.hysteresis.toJs props.hysteresis = true ∧
        .val (h.number props.hysteresis) ≠ p.hysteresis) ∧
      ¬ (differs s Rights.enterNotes p.notes props.notes = true ∧
        storedValue props.notes ≠ p.notes) ∧
      ¬ ∃ newValue, props.newValue = some newValue ∧ props.hasSubstituted = true ∧
        differs s Rights.substituteValues (.num p.value) newValue = true ∧
        h.number newValue ≠ p.value := by
    rw [update_eq_self_iff, value_eq_self_iff]
    simp only [propertySet, field, getD_written_iff]
  have hedit : edited h s props p p = p ↔ (propertySet h s (some p) props).update p = p ∧
      ¬ (h.acknowledged = true ∧ p.type = .analog ∧
        (propertySet h s (some p) props).rechecksRange = true ∧
        withRangeCheck s.now p.sourceDataUpdate ≠ p.sourceDataUpdate) := by
    unfold edited
    simp only []
    split_ifs with hc
    · simp only [Bool.and_eq_true, decide_eq_true_eq] at hc
      obtain ⟨hack, ht, hr⟩ := hc
      rw [rangeCheckUpdate_eq_self_iff]
      simp [hack, ht, hr]
    · simp only [Bool.and_eq_true, decide_eq_true_eq] at hc
      constructor
      · exact fun hu => ⟨hu, fun hx => hc ⟨hx.1, hx.2.1, hx.2.2.1⟩⟩
      · exact fun hu => hu.1
  rw [hedit, hset, rechecksRange_iff]
  constructor
  · rintro ⟨⟨h1, h2, h3, h4, h5, h6, h7⟩, h8⟩ ha
    cases ha with
    | alarmDisabled hd hv => exact h1 ⟨hd, hv⟩
    | annotation hd hv => exact h2 ⟨hd, hv⟩
    | loLimit hd hv => exact h3 ⟨hd, hv⟩
    | hiLimit hd hv => exact h4 ⟨hd, hv⟩
    | hysteresis hd hv => exact h5 ⟨hd, hv⟩
    | notes hd hv => exact h6 ⟨hd, hv⟩
    | value newValue hn hs hd hv => exact h7 ⟨newValue, hn, hs, hd, hv⟩
    | rangeCheck hack ht hd hv => exact h8 ⟨hack, ht, hd, hv⟩
  · intro hno
    refine ⟨⟨?_, ?_, ?_, ?_, ?_, ?_, ?_⟩, ?_⟩
    · rintro ⟨hd, hv⟩
      exact hno (.alarmDisabled hd hv)
    · rintro ⟨hd, hv⟩
      exact hno ( Alters.annotation hd hv)
    · rintro ⟨hd, hv⟩
      exact hno (.loLimit hd hv)
    · rintro ⟨hd, hv⟩
      exact hno (.hiLimit hd hv)
    · rintro ⟨hd, hv⟩
      exact hno (.hysteresis hd hv)
    · rintro ⟨hd, hv⟩
      exact hno (.notes hd hv)
    · rintro ⟨newValue, hn, hs, hd, hv⟩
      exact hno (.value newValue hn hs hd hv)
    · rintro ⟨hack, ht, hd, hv⟩
      exact hno (.rangeCheck hack ht hd hv)

/-- The events a property write inserts change neither points nor events. -/
theorem annotationStage_spec {prevData : Point} {set : PropertySet} {db db' : Db}
    (he : annotationStage h s prevData set db = some db') :
    Frame s db db' ∧ db'.realtimeData = db.realtimeData := by
  unfold annotationStage at he
  cases hset : set.annotation with
  | none =>
    rw [hset] at he
    cases he
    exact ⟨Frame.refl db, rfl⟩
  | some v =>
    rw [hset] at he
    cases v with
    | str a =>
      cases he
      exact frame_insertSoe h _ db
    | undefined => cases he
    | null => cases he
    | bool b => cases he
    | num x => cases he
    | obj j => cases he

theorem valueStage_spec {prevData : Point} {set : PropertySet} {db db' : Db}
    (he : valueStage h s prevData set db = some db') :
    Frame s db db' ∧ db'.realtimeData = db.realtimeData := by
  unfold valueStage at he
  cases hset : set.value with
  | none =>
    rw [hset] at he
    cases he
    exact ⟨Frame.refl db, rfl⟩
  | some v =>
    rw [hset] at he
    by_cases ht : prevData.type = .digital
    · simp only [ht, if_true] at he
      cases he
      exact frame_insertSoe h _ db
    · simp only [ht, if_false] at he
      cases he

/-- A filter on a point reads its key and its tag alone. -/
theorem findPoint_congr {nodeId : NodeId} {q : Point → Bool} (hq : h.findPoint nodeId = .filter q)
    (a b : Point) (hid : a._id = b._id) (htag : a.tag = b.tag) : q a = q b := by
  unfold Host.findPoint at hq
  simp only [] at hq
  split_ifs at hq
  · cases hq
    simp only [hid]
  · cases ht : h.textFilter (nodeId.id.getD .undefined) with
    | none =>
      rw [ht] at hq
      cases hq
    | some f =>
      rw [ht] at hq
      cases hq
      simp only [htag]

theorem key_edited {props : Properties} {p : Point} (a : Point) :
    key (edited h s props p a) = key a := by
  unfold edited
  simp only []
  split_ifs <;> rfl

/-- The events written after the points change no point, whether they are written or an
exception ends them. -/
theorem frame_stages (p : Point) (set : PropertySet) (db₀ : Db) {points : List Point} {db : Db}
    {r : Db × Flow} (hbefore : Frame s db db₀ ∧ db₀.realtimeData = points)
    (hthrown : annotationStage h s p set db₀ = none → r.1 = db₀)
    (hnext : ∀ db₁, annotationStage h s p set db₀ = some db₁ →
      r.1 = (valueStage h s p set db₁).getD db₁) :
    Frame s db r.1 ∧ r.1.realtimeData = points := by
  obtain ⟨hframe₀, hsame₀⟩ := hbefore
  cases hann : annotationStage h s p set db₀ with
  | none =>
    rw [hthrown hann]
    exact ⟨hframe₀, hsame₀⟩
  | some db₁ =>
    obtain ⟨hframe₁, hsame₁⟩ := annotationStage_spec hann
    rw [hnext db₁ hann]
    cases hval : valueStage h s p set db₁ with
    | none => exact ⟨hframe₀.trans hframe₁, hsame₁.trans hsame₀⟩
    | some db₂ =>
      obtain ⟨hframe₂, hsame₂⟩ := valueStage_spec hval
      exact ⟨(hframe₀.trans hframe₁).trans hframe₂, hsame₂.trans (hsame₁.trans hsame₀)⟩

/-- The points after a property write. -/
theorem realtimeData_setProperties {q : Point → Bool}
    (hq : ∀ a b : Point, a._id = b._id → a.tag = b.tag → q a = q b) (id : JsVal)
    (props : Properties) (db : Db) :
    Frame s db (setProperties h s q id props db).1 ∧
      (setProperties h s q id props db).1.realtimeData =
        (db.realtimeData.find? q).elim
          (updateOne q (propertySet h s none props).update db.realtimeData)
          fun p => updateOne q (edited h s props p) db.realtimeData := by
  have hkey : ∀ set : PropertySet, ∀ a, key (set.update a) = key a := fun _ _ => rfl
  cases hf : db.realtimeData.find? q with
  | none =>
    simp only [setProperties, hf]
    split_ifs
    · exact ⟨⟨map_updateOne (hkey _) _, Keeps.refl _⟩, rfl⟩
    · exact ⟨⟨map_updateOne (hkey _) _, Keeps.refl _⟩, rfl⟩
  | some p =>
    simp only [Option.elim_some]
    cases hack : h.acknowledged with
    | false =>
      have hplain : edited h s props p = (propertySet h s (some p) props).update := by
        funext a
        simp [edited, hack]
      simp only [setProperties, hf, hack, hplain]
      exact ⟨⟨map_updateOne (hkey _) _, Keeps.refl _⟩, rfl⟩
    | true =>
      simp only [setProperties, hf, hack]
      let set := propertySet h s (some p) props
      let db₁ := (db.updatePoints (updateOne q set.update)).logAction (propertyAction s id set)
      refine @frame_stages h s p set (if (decide (p.type = .analog) && set.rechecksRange) = true
        then db₁.updatePoints (updateOne q (rangeCheckUpdate s p)) else db₁) _ _ _ ?_ ?_ ?_
      rotate_left
      · intro hann
        dsimp only [set, db₁] at hann
        rw [hann]
        rfl
      · intro db₂ hann
        dsimp only [set, db₁] at hann
        rw [hann]
        dsimp only
        cases valueStage h s p (propertySet h s (some p) props) db₂ <;> rfl
      cases hr : (decide (p.type = .analog) && (propertySet h s (some p) props).rechecksRange) with
      | false =>
        have hplain : edited h s props p = (propertySet h s (some p) props).update := by
          funext a
          simp [edited, hr]
        rw [hplain]
        exact ⟨⟨map_updateOne (hkey _) _, Keeps.refl _⟩, rfl⟩
      | true =>
        have hboth : edited h s props p =
            fun a => rangeCheckUpdate s p ((propertySet h s (some p) props).update a) := by
          funext a
          simp [edited, hack, hr]
        have hsame : (updateOne q (rangeCheckUpdate s p)
            (updateOne q (propertySet h s (some p) props).update db.realtimeData)) =
              updateOne q (edited h s props p) db.realtimeData := by
          rw [hboth]
          have hread : ∀ a, q ((propertySet h s (some p) props).update a) = q a := fun a =>
            hq _ a rfl rfl
          exact updateOne_updateOne hread _
        refine ⟨⟨?_, Keeps.refl _⟩, hsame⟩
        show (updateOne q (rangeCheckUpdate s p)
          (updateOne q (propertySet h s (some p) props).update db.realtimeData)).map key = _
        rw [hsame]
        exact map_updateOne key_edited _

/-- A property write changes no foreign point just when it does not alter a foreign one. -/
theorem writeProperties_spec (db : Db) (n : Node) :
    Frame s db (writeProperties h s db n).1 ∧
      (Keeps (Foreign s) db.realtimeData (writeProperties h s db n).1.realtimeData ↔
        ¬ ∃ nodeId q props p, Writes h n nodeId q props ∧ db.realtimeData.find? q = some p ∧
          Foreign s p ∧ Alters h s p props) := by
  rcases writeProperties_cases h s db n with ⟨nodeId, q, props, id, hw, heq⟩ | ⟨hno, heq⟩
  · obtain ⟨hn, hid, hf, hp⟩ := hw
    obtain ⟨hframe, hsame⟩ := @realtimeData_setProperties h s q (findPoint_congr hf) id props db
    rw [heq]
    refine ⟨hframe, ?_⟩
    rw [hsame]
    -- the node determines filter and properties
    have hunique : ∀ nodeId' q' props', Writes h n nodeId' q' props' → q' = q ∧ props' = props := by
      rintro nodeId' q' props' ⟨hn', -, hf', hp'⟩
      rw [hn] at hn'
      cases hn'
      rw [hf] at hf'
      rw [hp] at hp'
      exact ⟨(Find.filter.inj hf').symm, (Option.some.inj hp').symm⟩
    cases hfind : db.realtimeData.find? q with
    | none =>
      simp only [keeps_updateOne_iff, hfind, Option.elim_none]
      constructor
      · rintro - ⟨nodeId', q', props', p, hw', hfind', -⟩
        obtain ⟨rfl, -⟩ := hunique nodeId' q' props' hw'
        rw [hfind] at hfind'
        cases hfind'
      · intro _ a ha
        cases ha
    | some p =>
      simp only [keeps_updateOne_iff, hfind, Option.elim_some, Option.some.injEq]
      constructor
      · rintro hkeep ⟨nodeId', q', props', p', hw', hfind', hforeign, halters⟩
        obtain ⟨rfl, rfl⟩ := hunique nodeId' q' props' hw'
        rw [hfind] at hfind'
        cases hfind'
        exact edited_eq_self_iff.mp (hkeep p rfl hforeign) halters
      · rintro hno a rfl hforeign
        refine edited_eq_self_iff.mpr fun halters => hno ?_
        exact ⟨nodeId, q, props, p, ⟨hn, hid, hf, hp⟩, hfind, hforeign, halters⟩
  · rw [heq]
    refine ⟨Frame.refl db, ?_⟩
    constructor
    · rintro - ⟨nodeId, q, props, p, hw, -⟩
      exact hno ⟨nodeId, q, props, hw⟩
    · intro _
      exact Keeps.refl _

end Properties

section Request

variable {h : Host} {s : Session}

/-- One node changes no foreign point just when it does not alter one by its properties. -/
theorem writeNode_spec (ha : s.authentication = true) (hg : s.rights.group1List ≠ []) (db : Db)
    (n : Node) : Frame s db (writeNode h s db n).1 ∧
      (Keeps (Foreign s) db.realtimeData (writeNode h s db n).1.realtimeData ↔
        ¬ AltersForeign h s db n) := by
  -- a node of another kind, which keeps the points
  have hother : ∀ r : Db × Flow,
      Frame s db r.1 ∧ Keeps (Foreign s) db.realtimeData r.1.realtimeData →
      ¬ AltersForeign h s db n → Frame s db r.1 ∧
        (Keeps (Foreign s) db.realtimeData r.1.realtimeData ↔ ¬ AltersForeign h s db n) :=
    fun _ hr hno => ⟨hr.1, iff_of_true hr.2 hno⟩
  have hrefl : Frame s db db ∧ Keeps (Foreign s) db.realtimeData db.realtimeData :=
    ⟨Frame.refl db, Keeps.refl _⟩
  unfold writeNode
  cases hattr : n.attributeId with
  | none =>
    refine hother _ hrefl ?_
    rintro ⟨⟨a, hsome, -⟩, -⟩
    rw [hattr] at hsome
    cases hsome
  | some a =>
    simp only []
    cases hack : h.looseEq a AttributeId.ExtendedAlarmEventsAck with
    | true =>
      refine hother _ (writeAck_spec ha hg db n) ?_
      rintro ⟨⟨a', hsome, hnot, -⟩, -⟩
      rw [hattr] at hsome
      cases hsome
      rw [hack] at hnot
      cases hnot
    | false =>
      cases hval : h.looseEq a AttributeId.Value with
      | true =>
        obtain ⟨hframe, hsame⟩ :=
          @applyEffects_spec h s (writeCommand h s db.realtimeData n).1 db
        refine hother (applyEffects h (writeCommand h s db.realtimeData n).1 db, _)
          ⟨hframe, by rw [hsame]; exact Keeps.refl _⟩ ?_
        rintro ⟨⟨a', hsome, -, hnot, -⟩, -⟩
        rw [hattr] at hsome
        cases hsome
        rw [hval] at hnot
        cases hnot
      | false =>
        cases hdesc : h.looseEq a AttributeId.Description with
        | true =>
          obtain ⟨hframe, hkeep⟩ := @writeProperties_spec h s db n
          refine ⟨hframe, hkeep.trans (not_congr ?_)⟩
          constructor
          · exact fun hw => ⟨⟨a, hattr, hack, hval, hdesc⟩, hw⟩
          · exact fun hw => hw.2
        | false =>
          refine hother _ hrefl ?_
          rintro ⟨⟨a', hsome, -, -, hnot⟩, -⟩
          rw [hattr] at hsome
          cases hsome
          rw [hdesc] at hnot
          cases hnot

/-- The request serves no node that alters a point outside the user's groups. -/
def Admissible (h : Host) (s : Session) (st : Serving) (n : Node) : Prop :=
  st.ended = none → ¬ AltersForeign h s st.db n

/-- A write request changes no document outside the groups of the user, at any moment while
it is served, just when none of its nodes that are reached writes properties that alter a
point outside them. -/
theorem writeRequest_confined_iff (h : Host) (s : Session) (db : Db) (nodes : List Node)
    (ha : s.authentication = true) (hg : s.rights.group1List ≠ []) :
    ((∀ st, Visits (step h s) { db := db } nodes st → Confined s db st.db) ↔
        Every (step h s) (Admissible h s) { db := db } nodes) ∧
      (Every (step h s) (Admissible h s) { db := db } nodes →
        ∀ st, writeRequest h s db nodes = some st → Confined s db st.db) := by
  have hstep : ∀ st n t, True → Frame s db st.db → step h s st n = some t →
      Frame s db t.db ∧ (Keeps (Foreign s) db.realtimeData st.db.realtimeData →
        (Keeps (Foreign s) db.realtimeData t.db.realtimeData ↔ Admissible h s st n)) := by
    intro st n t _ hframe ht
    rcases step_db h s ht with ⟨hended, rfl⟩ | ⟨hended, hdb⟩
    · refine ⟨hframe, fun hkeep => iff_of_true hkeep fun hnone => ?_⟩
      rw [hnone] at hended
      cases hended
    · obtain ⟨hframe', hnode⟩ := @writeNode_spec h s ha hg st.db n
      rw [hdb]
      refine ⟨hframe.trans hframe', fun hkeep => ?_⟩
      rw [Admissible, ← hnode]
      constructor
      · exact fun hkeep' _ => hkeep.between foreign_of_key hframe.keys hkeep'
      · exact fun hkeep' => hkeep.trans (hkeep' hended)
  have hevery : Every (step h s) (fun _ _ => True) { db := db } nodes :=
    every_of_forall_mem fun _ _ => trivial
  have hpoints := visits_iff_every (I := fun st : Serving =>
      Keeps (Foreign s) db.realtimeData st.db.realtimeData) (J := fun st => Frame s db st.db) hstep
    (fun st n _ hnone => by
      obtain ⟨t, ht⟩ := step_isSome h s st n
      rw [hnone] at ht
      cases ht) hevery (Frame.refl db) (Keeps.refl _)
  have hiff : (∀ st, Visits (step h s) { db := db } nodes st → Confined s db st.db) ↔
      Every (step h s) (Admissible h s) { db := db } nodes := by
    rw [← hpoints]
    constructor
    · exact fun hall st hst => (hall st hst).realtimeData
    · intro hall st hst
      have hframe : Frame s db st.db := visits_invariant (I := fun st : Serving => Frame s db st.db)
        (fun st n t _ hf ht => (hstep st n t trivial hf ht).1) hevery (Frame.refl db) hst
      exact ⟨hall st hst, hframe.soeData⟩
  exact ⟨hiff, fun hp st hst => hiff.mpr hp st ⟨nodes, List.prefix_rfl, hst⟩⟩

end Request

section Example

def alarmedPump : Point := { pump with alarmed := true }

def alarms : Db := { realtimeData := [{ breaker with alarmed := true }, alarmedPump] }

def ackAll : Node :=
  { attributeId := some (.num (.fin 100000004))
    nodeId := some ⟨.num (.fin 1), some (.str "")⟩
    value := some { body := .num (.fin 0x400) } }

/-- All alarms of the group are acknowledged, and no others. -/
theorem ackAll_confined : ∃ st, writeRequest Host.plain operator alarms [ackAll] = some st ∧
    st.db.realtimeData.map (·.alarmed) = [false, true] ∧ Confined operator alarms st.db := by
  obtain ⟨hiff, hend⟩ := writeRequest_confined_iff Host.plain operator alarms [ackAll] rfl
    (by decide)
  obtain ⟨st, hst⟩ := writeRequest_isSome Host.plain operator alarms [ackAll]
  refine ⟨st, hst, ?_, hend ?_ st hst⟩
  · have halarmed : (writeRequest Host.plain operator alarms [ackAll]).map
        (fun st => st.db.realtimeData.map (·.alarmed)) = some [false, true] := by decide +kernel
    rw [hst] at halarmed
    exact Option.some.inj halarmed
  · refine ⟨?_, fun _ _ => trivial⟩
    rintro - ⟨⟨a, hattr, hack, -⟩, -⟩
    cases hattr
    exact absurd hack (by decide +kernel)

def noAlarms : Properties :=
  { alarmDisabled := .bool true, annotation := .str "", loLimit := .null, hiLimit := .null
    hysteresis := .num (.fin 0), notes := .str "" }

/-- Disable the alarms of a point of another group. -/
def disablePump : Node :=
  { attributeId := some (.num (.fin 5))
    nodeId := some ⟨.num (.fin 1), some (.str "PUMP")⟩
    value := some { properties := some noAlarms } }

/-- The point is found whatever its group is, and its alarms are disabled. -/
theorem not_disablePump_confined :
    ¬ ∀ (h : Host) (s : Session) (db : Db) (nodes : List Node), s.authentication = true →
      s.rights.group1List ≠ [] →
        ∀ st, writeRequest h s db nodes = some st → Confined s db st.db := by
  intro hall
  obtain ⟨st, hst⟩ := writeRequest_isSome Host.plain operator alarms [disablePump]
  have hconf := hall Host.plain operator alarms [disablePump] rfl (by decide) st hst
  have hforeign : Foreign operator alarmedPump := by
    refine ⟨?_, ?_⟩ <;> decide +kernel
  have hmem := hconf.realtimeData.mem (List.mem_cons_of_mem _ List.mem_cons_self) hforeign
  have hchanged : (writeRequest Host.plain operator alarms [disablePump]).map (fun st =>
      decide (alarmedPump ∈ st.db.realtimeData)) = some false := by decide +kernel
  rw [hst] at hchanged
  simp only [Option.map_some, Option.some.injEq, decide_eq_false_iff_not] at hchanged
  exact hchanged hmem

end Example

end JsonScada.System.Confinement
