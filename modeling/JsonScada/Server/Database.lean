/- path: JsonScada/Server/Database
   source: src/server_realtime_auth/index.js, COLL_REALTIME, COLL_SOE, COLL_COMMANDS, COLL_ACTIONS
   digest: The collections the realtime server reads and writes. -/

import JsonScada.Lib.Collection
import JsonScada.Server.Request
import Mathlib.Order.WithBot

set_option autoImplicit false
set_option relaxedAutoImplicit false

namespace JsonScada.Server.Database

open JsonScada.Lib.Binary64 JsonScada.Lib.EcmaScript JsonScada.Model.Documents
open JsonScada.Server.Request

/-- A document of the soeData collection. -/
structure SoeDoc where
  _id : String
  event : SoeEvent
  deriving DecidableEq

/-- A document of the commandsQueue collection. The key is given when it is inserted; the
protocol driver writes the acknowledge or the reason it cancels the command. -/
structure Command where
  _id : String := ""
  protocolSourceConnectionNumber : Number
  protocolSourceCommonAddress : JsVal
  protocolSourceObjectAddress : JsVal
  protocolSourceASDU : JsVal
  protocolSourceCommandDuration : Number
  protocolSourceCommandUseSBO : JsVal
  pointKey : Number
  tag : String
  timeTag : Date
  value : Number
  valueString : JsVal
  originatorUserName : String
  originatorIpAddress : String
  ack : Option Bool := none
  ackTimeTag : Option Date := none
  cancelReason : Option String := none
  deriving DecidableEq

/-- A date that is missing or null is before every other. -/
def dateKey : Option Date → WithBot Date
  | none => ⊥
  | some t => t

/-- What is written to the log of user actions. -/
structure UserAction where
  username : String
  action : String
  pointKey : JsVal := .undefined
  tag : JsVal := .undefined
  eventId : Option String := none
  properties : List (String × JsVal) := []
  timeTag : Date
  deriving DecidableEq

structure Db where
  realtimeData : List Point := []
  soeData : List SoeDoc := []
  commandsQueue : List Command := []
  userActions : List UserAction := []
  deriving DecidableEq

namespace Db

/-- Keys and tags are unique in realtimeData. -/
structure UniqueKeys (points : List Point) : Prop where
  _id : ∀ p ∈ points, ∀ q ∈ points, p._id = q._id → p = q
  tag : ∀ p ∈ points, ∀ q ∈ points, p.tag = q.tag → p = q

theorem uniqueKeys_of_nodup {points : List Point} (hi : (points.map (·._id)).Nodup)
    (ht : (points.map (·.tag)).Nodup) : UniqueKeys points :=
  ⟨fun _ hp _ hq h => List.inj_on_of_nodup_map hi hp hq h,
    fun _ hp _ hq h => List.inj_on_of_nodup_map ht hp hq h⟩

def insertSoe (h : Host) (e : SoeEvent) (db : Db) : Db :=
  { db with soeData := db.soeData ++ [⟨h.freshId db.soeData.length, e⟩] }

def insertCommand (h : Host) (c : Command) (db : Db) : Db :=
  let _id := h.freshId db.commandsQueue.length
  { db with commandsQueue := db.commandsQueue ++ [{ c with _id := _id }] }

def logAction (a : UserAction) (db : Db) : Db := { db with userActions := db.userActions ++ [a] }

def updatePoints (f : List Point → List Point) (db : Db) : Db :=
  { db with realtimeData := f db.realtimeData }

def updateSoe (f : List SoeDoc → List SoeDoc) (db : Db) : Db := { db with soeData := f db.soeData }

end Db

section Example

/-- A user of one group with all rights. -/
def operator : Session :=
  { authentication := true, username := "operator", originatorIpAddress := "10.0.0.7", now := 5000
    roles := [⟨true, []⟩]
    rights := ⟨["KAW2"], true, true, true, true, true, true, true⟩ }

def breaker : Point := { _id := .fin 30, tag := "12KPR", type := .digital, group1 := "KAW2" }

def pump : Point := { _id := .fin 12, tag := "PUMP", type := .digital, group1 := "WATER" }

end Example

end JsonScada.Server.Database
