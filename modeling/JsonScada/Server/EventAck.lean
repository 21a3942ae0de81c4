/- path: JsonScada/Server/EventAck
   source: src/server_realtime_auth/index.js, alarm / event ack
   digest: The acknowledge actions of a write request on the database. -/

import JsonScada.Server.Acknowledge
import JsonScada.Server.Database

set_option autoImplicit false
set_option relaxedAutoImplicit false

namespace JsonScada.Server.EventAck

open JsonScada.Lib.Binary64 JsonScada.Lib.EcmaScript JsonScada.Lib.Collection
open JsonScada.Model.Documents JsonScada.Server.Request JsonScada.Server.Database
open JsonScada.Server.Acknowledge JsonScada.Server.Silence

def EventsRemoveGuardSeconds : ℤ := 20

def AckOneEvent : ℕ := 0x1
def RemoveOneEvent : ℕ := 0x2
def AckPointEvents : ℕ := 0x4
def RemovePointEvents : ℕ := 0x8
def AckAllEvents : ℕ := 0x40
def RemoveAllEvents : ℕ := 0x80
def AckOneAlarm : ℕ := 0x100
def AckAllAlarms : ℕ := 0x400
def SilenceBeep : ℕ := 0x1000

def setAck (ack : ℕ) (d : SoeDoc) : SoeDoc := { d with event := { d.event with ack := ack } }

variable (h : Host) (s : Session)

/-- Set `ack` in the events of the user's groups that satisfy a further condition. -/
def ackEvents (cond : SoeDoc → Bool) (ack : ℕ) (db : Db) : Db :=
  db.updateSoe (updateMany (fun d => cond d && s.inGroup d.event.group1) (setAck ack))

def fromDate : Date := s.now - EventsRemoveGuardSeconds * 1000

/-- `ack: { $lte: 1 }` and older than the guard time. -/
def removable (d : SoeDoc) : Bool := d.event.ack ≤ 1 && d.event.timeTag ≤ fromDate s

def eventAction (action : String) (tag : JsVal) (eventId : Option String) (timeTag : Date) :
    UserAction :=
  { username := s.username, action := action, tag := tag, eventId := eventId, timeTag := timeTag }

/-- The first event action that is asked for. `none` is an exception, before anything is
written. -/
def eventStage (body : JsVal) (id : JsVal) (event_id : Option JsVal) (db : Db) : Option Db :=
  if h.hasBit body RemoveAllEvents then
    some ((ackEvents s (removable s) 2 db).logAction
      (eventAction s "Remove All Events" .undefined none (fromDate s)))
  else if h.hasBit body AckAllEvents then
    some ((ackEvents s (fun d => d.event.ack = 0) 1 db).logAction
      (eventAction s "Ack All Events" .undefined none s.now))
  else if h.hasBit body RemovePointEvents then
    (h.textFilter id).map fun q =>
      (ackEvents s (fun d => q d.event.tag && removable s d) 2 db).logAction
        (eventAction s "Remove Point Events" id none (fromDate s))
  else if h.hasBit body AckPointEvents then
    (h.textFilter id).map fun q =>
      (ackEvents s (fun d => q d.event.tag && d.event.ack = 0) 1 db).logAction
        (eventAction s "Ack Point Events" id none s.now)
  else if h.hasBit body RemoveOneEvent then
    (event_id.bind h.objectId).map fun eventId =>
      (ackEvents s (fun d => d._id = eventId && d.event.ack ≤ 1) 2 db).logAction
        (eventAction s "Remove One Event" id (some eventId) s.now)
  else if h.hasBit body AckOneEvent then
    (event_id.bind h.objectId).map fun eventId =>
      (ackEvents s (fun d => d._id = eventId && d.event.ack = 0) 1 db).logAction
        (eventAction s "Ack One Event" id (some eventId) s.now)
  else some db

/-- Clear the alarms of the user's groups, then make their active event tags return to zero. -/
def ackAllAlarmsIn (points : List Point) : List Point :=
  updateMany (fun p => s.inGroup p.group1 && eventTag p && p.value.eqv (.fin 1)) resetEvent
    (updateMany (fun p => s.inGroup p.group1) clearAlarm points)

/-- Clear the alarm of the point found in the user's groups, then reset it when it is an
event tag. -/
def ackOneAlarmIn (q : Point → Bool) (points : List Point) : List Point :=
  updateOne (fun p => q p && s.inGroup p.group1 && eventTag p) resetEvent
    (updateOne (fun p => q p && s.inGroup p.group1) clearAlarm points)

/-- The alarm action that is asked for. A filter that is null or rejected is an exception. -/
def alarmStage (body : JsVal) (nodeId : NodeId) (db : Db) : Option Db :=
  if h.hasBit body AckAllAlarms then
    some ((db.updatePoints (ackAllAlarmsIn s)).logAction
      { username := s.username, action := "Ack All Alarms", timeTag := s.now })
  else if h.hasBit body AckOneAlarm then
    match h.findPoint nodeId with
    | .filter q => some ((db.updatePoints (ackOneAlarmIn s q)).logAction
        { username := s.username, action := "Ack Point Alarm"
          pointKey := nodeId.id.getD .undefined, timeTag := s.now })
    | _ => none
  else some db

/-- The updates of a silence on the beep point, in order. -/
def silencePoints (points : List Point) : List Point :=
  (silenceOps s.authentication s.rights.group1List).foldl
    (fun ps op => updateOne (fun p => p._id = beepPointKey) op.update ps) points

def silenceStage (body : JsVal) (db : Db) : Db :=
  if h.hasBit body SilenceBeep then
    (db.updatePoints (silencePoints s)).logAction
      { username := s.username, action := "Silence Beep", timeTag := s.now }
  else db

/-- The user lacks a right that the action asks for. -/
def ackDenied (body : JsVal) : Bool :=
  (s.authentication && !s.rights.ackEvents &&
    [RemoveAllEvents, RemoveOneEvent, RemovePointEvents, AckAllEvents, AckOneEvent,
      AckPointEvents].any (h.hasBit body)) ||
  (s.authentication && !s.rights.ackAlarms &&
    [AckOneAlarm, AckAllAlarms, SilenceBeep].any (h.hasBit body))

/-- An acknowledge node ends the request. -/
def writeAck (db : Db) (n : Node) : Db × Flow :=
  match n.value with
  | none => (db, .thrown)
  | some v =>
    if ackDenied h s v.body then (db, .reply .BadUserAccessDenied)
    else match n.nodeId with
      | none => (db, .thrown)
      | some nodeId =>
        match eventStage h s v.body (nodeId.id.getD .undefined) n.event_id db with
        | none => (db, .thrown)
        | some db₁ => match alarmStage h s v.body nodeId db₁ with
          | none => (db₁, .thrown)
          | some db₂ => (silenceStage h s v.body db₂, .reply .GoodNoData)

end JsonScada.Server.EventAck
