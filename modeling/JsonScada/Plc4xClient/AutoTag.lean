/- path: JsonScada/Plc4xClient/AutoTag
   source: src/plc4x-client/autotag.go
   digest: The tags a driver creates for addresses without one. -/

import JsonScada.Lib.Golang
import JsonScada.Model.AutoKeys
import JsonScada.MqttSparkplug.AutoTag

set_option autoImplicit false
set_option relaxedAutoImplicit false

namespace JsonScada.Plc4xClient.AutoTag

open JsonScada.Lib.Binary64 JsonScada.Lib.EcmaScript JsonScada.Lib.Golang
open JsonScada.Lib.Collection (updateOne)
open JsonScada.Model.AutoKeys (AutoKeyMultiplier hasKey accepts larger)
open JsonScada.Model.Documents (Point PointType)
open JsonScada.MqttSparkplug.AutoTag (maxValue)

def DriverName : String := "PLC4X"

/-- `strings.Contains(s, substr)` -/
def Contains (s substr : String) : Bool := decide (substr.toList <:+: s.toList)

/-- A sum of 64-bit integers. -/
def wrapInt (z : ℤ) : ℤ := (z + 2 ^ 63) % 2 ^ 64 - 2 ^ 63

/-- `float64(n)` of a key -/
def keyOf (AutoKeyId : ℤ) : Number := round binary64 AutoKeyId

/-- What the driver sets of a new tag; the rest keeps its default. -/
structure RtDataTag where
  Tag : String
  ProtocolSourceConnectionNumber : Number
  ProtocolSourceObjectAddress : String
  ProtocolSourceASDU : String := ""
  Group1 : String := DriverName
  Group2 : String := ""
  type : PointType := .analog

/-- The document of a tag, as it is inserted. -/
def RtDataTag.document (rtData : RtDataTag) (Id : Number) : Point where
  _id := Id
  tag := rtData.Tag
  type := rtData.type
  origin := .supervised
  group1 := rtData.Group1
  group2 := rtData.Group2
  description := rtData.Tag
  ungroupedDescription := rtData.ProtocolSourceObjectAddress
  eventTextFalse := "OFF"
  eventTextTrue := "ON"
  stateTextFalse := "OFF"
  stateTextTrue := "ON"
  unit := ""
  alarmState := .fin (-1)
  hiLimit := .val maxValue
  loLimit := .val maxValue.neg
  kconv1 := .fin 1
  protocolSourceConnectionNumber := rtData.ProtocolSourceConnectionNumber
  protocolSourceCommonAddress := .str ""
  protocolSourceObjectAddress := .str rtData.ProtocolSourceObjectAddress
  protocolSourceASDU := .str rtData.ProtocolSourceASDU
  protocolSourceCommandDuration := .val (.fin 0)
  protocolSourceCommandUseSBO := .bool false

/-- A tag without a name is named after its address. -/
def RtDataTag.named (rtData : RtDataTag) : RtDataTag :=
  if rtData.Tag = "" then
    { rtData with
      Tag := DriverName ++ "." ++ toString (int64 rtData.ProtocolSourceConnectionNumber) ++ "." ++
        rtData.ProtocolSourceObjectAddress }
  else rtData

/-- The largest key between the last one given out to a tag and the keys of the next
connection. -/
def lastKey (_AutoKeyId connectionNumber : ℤ) (realtimeData : List Point) : Option Number :=
  ((realtimeData.map (·._id)).filter fun key =>
    (keyOf _AutoKeyId).lt key &&
      key.lt (keyOf (wrapInt ((connectionNumber + 1) * AutoKeyMultiplier)))).foldl larger none

/-- The key found is looked at where the look-up failed, and there is none then. -/
def GetAutoKeyInitialValueConn (_AutoKeyId connectionNumber : ℤ) (realtimeData : List Point) :
    ℤ :=
  let AutoKeyId := wrapInt (connectionNumber * AutoKeyMultiplier)
  let res := lastKey _AutoKeyId connectionNumber realtimeData
  let err := res.isNone
  if err then
    match res with
    | some v => if (keyOf _AutoKeyId).lt v then int64 v else AutoKeyId
    | none => AutoKeyId
  else AutoKeyId

/-- What the database may do: which index it names where a document breaks both, other errors
than of a duplicate key, the texts of keys, and the documents it makes of an upsert. -/
structure Server where
  namesTag : ℕ → Bool := fun _ => false
  insertFails : ℕ → Option String := fun _ => none
  findFails : Bool := false
  updateFails : Bool := false
  keyText : Number → String
  upserted : RtDataTag → Point
  insertFails_other : ∀ n text, insertFails n = some text → Contains text "E11000" = false
  upserted_tag : ∀ rtData, (upserted rtData).tag = rtData.Tag

/-- The text of the error of a duplicate key, for a collection of the name `ns`. -/
def duplicateKey (ns index field key : String) : String :=
  "E11000 duplicate key error collection: " ++ ns ++ " index: " ++ index ++ " dup key: \x7b " ++
    field ++ ": " ++ key ++ " \x7d"

section Loop

variable (srv : Server) (ns : String)

def tagTaken (realtimeData : List Point) (tag : String) : Bool :=
  realtimeData.any fun p => p.tag = tag

/-- `InsertOne`, for the attempt `n`. -/
def insertOne (n : ℕ) (realtimeData : List Point) (p : Point) : Except String (List Point) :=
  match srv.insertFails n with
  | some text => .error text
  | none =>
    let taken := tagTaken realtimeData p.tag
    if realtimeData.any (hasKey p._id) && !(taken && srv.namesTag n) then
      .error (duplicateKey ns "_id_" "_id" (srv.keyText p._id))
    else if taken then .error (duplicateKey ns "tagIndex" "tag" ("\"" ++ p.tag ++ "\""))
    else .ok (realtimeData ++ [p])

/-- The filter of the update. -/
def ofTag (rtData : RtDataTag) (p : Point) : Bool :=
  p.tag = rtData.Tag &&
    p.protocolSourceConnectionNumber = rtData.ProtocolSourceConnectionNumber

/-- `UpdateOne` with an upsert; `none` is an error. -/
def updateTag (realtimeData : List Point) (rtData : RtDataTag) : Option (List Point) :=
  if srv.updateFails then none
  else if realtimeData.any (ofTag rtData) then
    some (updateOne (ofTag rtData) (fun p =>
      { p with
        protocolSourceObjectAddress := .str rtData.ProtocolSourceObjectAddress
        origin := .supervised }) realtimeData)
  else if accepts realtimeData (srv.upserted rtData) then
    some (realtimeData ++ [srv.upserted rtData])
  else none

/-- How a call ends. -/
inductive Ending where
  | listed
  | found
  | inserted
  | updated
  | failed
  deriving DecidableEq

/-- The loop from the attempt `n` on, where the last key given out is `AutoKeyId`. -/
def createLoop (rtData : RtDataTag) (realtimeData : List Point) :
    ℕ → ℕ → ℤ → Option (Ending × ℤ × List Point)
  | 0, _, _ => none
  | fuel + 1, n, AutoKeyId =>
    let AutoKeyId := wrapInt (AutoKeyId + 1)
    match insertOne srv ns n realtimeData (rtData.document (keyOf AutoKeyId)) with
    | .ok docs => some (.inserted, AutoKeyId, docs)
    | .error err =>
      if Contains err "E11000" && Contains err "_id:" then
        createLoop rtData realtimeData fuel (n + 1) AutoKeyId
      else if Contains err "E11000" && Contains err "tag:" then
        match updateTag srv realtimeData rtData with
        | none => some (.failed, AutoKeyId, realtimeData)
        | some docs => some (.updated, AutoKeyId, docs)
      else some (.failed, AutoKeyId, realtimeData)

end Loop

/-- The last key given out, the documents, and the types of the tags known. -/
structure State where
  AutoKeyId : ℤ
  realtimeData : List Point
  _ListCreatedTags : Map String PointType := fun _ => none

/-- The filter of the look-up. -/
def atAddress (rtData : RtDataTag) (p : Point) : Bool :=
  p.protocolSourceObjectAddress = .str rtData.ProtocolSourceObjectAddress &&
    p.protocolSourceConnectionNumber = rtData.ProtocolSourceConnectionNumber

/-- The call of a tag; `none` stands for a loop that has not ended within the fuel. -/
def AutoCreateTag (srv : Server) (ns : String) (fuel : ℕ) (rtData : RtDataTag) (s : State) :
    Option (Ending × State) :=
  let rtData := rtData.named
  if s._ListCreatedTags rtData.Tag ≠ none then some (.listed, s)
  else
    match if srv.findFails then none else s.realtimeData.find? (atAddress rtData) with
    | some p => some (.found, { s with
        _ListCreatedTags := s._ListCreatedTags.set rtData.Tag p.type })
    | none =>
      (createLoop srv ns rtData s.realtimeData fuel 0 s.AutoKeyId).map fun r =>
        (r.1, {
          AutoKeyId := r.2.1
          realtimeData := r.2.2
          _ListCreatedTags := if r.1 = .failed then s._ListCreatedTags
            else s._ListCreatedTags.set rtData.Tag rtData.type })

/-- Keys are counted from the first of the connection on, whatever is in use. -/
theorem GetAutoKeyInitialValueConn_eq (_AutoKeyId connectionNumber : ℤ)
    (realtimeData : List Point) :
    GetAutoKeyInitialValueConn _AutoKeyId connectionNumber realtimeData =
      wrapInt (connectionNumber * AutoKeyMultiplier) := by
  unfold GetAutoKeyInitialValueConn
  cases lastKey _AutoKeyId connectionNumber realtimeData <;> rfl

end JsonScada.Plc4xClient.AutoTag
