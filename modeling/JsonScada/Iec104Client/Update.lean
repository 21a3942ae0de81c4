/- path: JsonScada/Iec104Client/Update
   source: src/lib60870.netcore/iec104client/MongoUpdate.cs (ProcessMongo), Program.cs
   (ConnectionHandler)
   digest: What the client driver writes to the database. -/

import JsonScada.Lib.Collection
import JsonScada.Iec104Client.Commands
import JsonScada.Model.Documents

set_option autoImplicit false
set_option relaxedAutoImplicit false

namespace JsonScada.Iec104Client.Update

open JsonScada.Lib.Binary64 JsonScada.Lib.EcmaScript JsonScada.Lib.Collection
open JsonScada.Model.Documents JsonScada.Iec104.Types JsonScada.Iec104.Objects
open JsonScada.Iec104Client.Commands

/-- The commands an acknowledge may belong to. -/
def ackFilter (ia : IEC_CmdAck) (c : RtCommand) : Bool :=
  c.protocolSourceConnectionNumber = .fin ia.conn_number &&
    c.protocolSourceObjectAddress = .fin ia.object_address

def setAck (ia : IEC_CmdAck) (c : RtCommand) : RtCommand :=
  { c with ack := some ia.ack, ackTimeTag := some ia.ack_time_tag }

/-- In natural order the last document comes first when the order is descending. -/
def newest (commandsQueue : List RtCommand) (ia : IEC_CmdAck) : Option RtCommand :=
  findLast? (ackFilter ia) commandsQueue

/-- `FindOneAndUpdate` of an acknowledge, sorted by `$natural`, descending. -/
def acknowledge (commandsQueue : List RtCommand) (ia : IEC_CmdAck) : List RtCommand :=
  updateLast (ackFilter ia) (setAck ia) commandsQueue

/-- An acknowledge is written to the newest command of its filter and to no other. -/
theorem acknowledge_newest {commandsQueue : List RtCommand} {ia : IEC_CmdAck} {c : RtCommand}
    (hids : (commandsQueue.map (·._id)).Nodup) (h : newest commandsQueue ia = some c) :
    acknowledge commandsQueue ia =
      commandsQueue.map fun d => if d._id = c._id then setAck ia d else d := by
  obtain ⟨hc, pre, post, rfl, hpost⟩ := findLast?_eq_some_iff.mp h
  unfold acknowledge
  rw [updateLast_append_cons hc hpost]
  simp only [List.map_append, List.map_cons, if_true]
  rw [List.map_append, List.map_cons, List.nodup_append] at hids
  obtain ⟨-, hrest, hne⟩ := hids
  have hpre : (pre.map fun d => if d._id = c._id then setAck ia d else d) = pre := by
    refine (List.map_congr_left fun d hd => ?_).trans (List.map_id pre)
    exact if_neg (hne _ (List.mem_map_of_mem hd) _ List.mem_cons_self)
  have hpost' : (post.map fun d => if d._id = c._id then setAck ia d else d) = post := by
    refine (List.map_congr_left fun d hd => ?_).trans (List.map_id post)
    refine if_neg fun heq => (List.nodup_cons.mp hrest).1 ?_
    rw [← heq]
    exact List.mem_map_of_mem hd
  rw [hpre, hpost']

/-- An acknowledge nothing matches is lost. -/
theorem acknowledge_none {commandsQueue : List RtCommand} {ia : IEC_CmdAck}
    (h : newest commandsQueue ia = none) : acknowledge commandsQueue ia = commandsQueue :=
  updateLast_of_none h

/-- A value as the receive handler enqueues it. Its time tag is the date that is made of
it, none where there is no time tag or it is no date. -/
structure IEC_Value where
  address : ℤ
  common_address : ℤ
  conn_number : ℤ
  asdu : TypeID
  value : Number
  cot : ℤ := 3
  serverTimestamp : Date := 0
  sourceTimestamp : Option Date := none
  sourceTimestampInvalid : Bool := true
  quality : QualityDescriptor := {}
  deriving DecidableEq

/-- What is written of a value; `doubleText` is `ToString()` of a double, which depends on
the culture of the process. -/
def sourceDataUpdate (doubleText : Number → String) (iv : IEC_Value) : SourceDataUpdate :=
  { valueAtSource := .val iv.value
    valueStringAtSource := some (doubleText iv.value)
    asduAtSource := some iv.asdu.name
    causeOfTransmissionAtSource := some (toString iv.cot)
    timeTagAtSource := iv.sourceTimestamp
    timeTagAtSourceOk := some !iv.sourceTimestampInvalid
    timeTag := iv.serverTimestamp
    notTopicalAtSource := some iv.quality.nonTopical
    invalidAtSource := some iv.quality.invalid
    overflowAtSource := some iv.quality.overflow
    blockedAtSource := some iv.quality.blocked
    substitutedAtSource := some iv.quality.substituted }

/-- The point of a value. -/
def rtFilt (iv : IEC_Value) (p : Point) : Bool :=
  p.protocolSourceConnectionNumber = .fin iv.conn_number &&
    p.protocolSourceCommonAddress = .num (.fin iv.common_address) &&
    p.protocolSourceObjectAddress = .num (.fin iv.address)

/-- The points a closed connection marks. -/
def ofConnection (srv : Connection) (p : Point) : Bool :=
  p.protocolSourceConnectionNumber = .fin srv.protocolConnectionNumber

/-- The update of the event CLOSED. -/
def invalidate (now : Date) (p : Point) : Point := { p with invalid := true, timeTag := .val now }

end JsonScada.Iec104Client.Update
