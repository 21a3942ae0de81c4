/- path: JsonScada/Dnp3Client/AutoCreate
   source: src/dnp3/Dnp3ClientCpp/autocreate.cpp, mongo.cpp, connection.cpp
   digest: The documents the client driver creates for new addresses. -/

import JsonScada.Lib.DotNet
import JsonScada.Model.AutoKeys

set_option autoImplicit false
set_option relaxedAutoImplicit false

namespace JsonScada.Dnp3Client.AutoCreate

open JsonScada.Lib.Binary64 JsonScada.Lib.EcmaScript JsonScada.Lib.DotNet
open JsonScada.Model.Documents JsonScada.Model.AutoKeys

structure DNP3Connection where
  name : String := ""
  protocolConnectionNumber : ℤ
  commandsEnabled : Bool := true
  autoCreateTags : Bool := false
  deriving DecidableEq

/-- A received value on its way to the database. -/
structure Dnp3Value where
  address : ℤ
  baseGroup : ℤ
  group : ℤ := 0
  variation : ℤ := 0
  value : Number
  valueString : String := ""
  cot : ℤ := 20
  serverTimestamp : ℤ := 0
  hasSourceTimestamp : Bool := false
  sourceTimestamp : ℤ := 0
  timeTagOk : Bool := false
  qOnline : Bool := true
  qCommLost : Bool := false
  qRemoteForced : Bool := false
  qLocalForced : Bool := false
  qOverrange : Bool := false
  qRollover : Bool := false
  qReferenceError : Bool := false
  qTransient : Bool := false
  connNumber : ℤ
  deriving DecidableEq

/-- Values that are no number or too large are skipped. -/
def skipped (iv : Dnp3Value) : Bool :=
  match iv.value with
  | .fin q => decide (10 ^ 100 < q ∨ q < -10 ^ 100)
  | _ => true

def dnp3TypeFromBaseGroup (g : ℤ) : PointType :=
  if g = 1 ∨ g = 3 ∨ g = 10 ∨ g = 12 then .digital else .analog

def dnp3GroupDescription (g : ℤ) : String :=
  match g with
  | 1 => "Binary Input"
  | 3 => "Double Binary Input"
  | 10 => "Binary Output Status"
  | 20 => "Counter"
  | 23 => "Frozen Counter"
  | 30 => "Analog Input"
  | 40 => "Analog Output Status"
  | 12 => "CROB Command"
  | 41 => "Analog Output Command"
  | n => "Group " ++ toString n

def getNextAutoKey (conn : DNP3Connection) (lastNewKeyCreated : Number)
    (realtimeData : List Point) : Number :=
  nextAutoKey conn.protocolConnectionNumber lastNewKeyCreated realtimeData

/-- `numeric_limits<double>::max()` -/
def maxDouble : Number := .fin (2 ^ 1024 - 2 ^ 971)

def newRealtimeTagDoc (iv : Dnp3Value) (connName : String) (id : Number) (isCommand : Bool)
    (srcCommonAddress : ℤ) (asdu commandDuration commandOfSupervised supervisedOfCommand : Number) :
    Point :=
  let type := dnp3TypeFromBaseGroup srcCommonAddress
  let grpDesc := dnp3GroupDescription srcCommonAddress
  let addrStr := toString iv.address
  let digital := type = .digital
  { _id := id
    tag := connName ++ ";" ++ toString srcCommonAddress ++ ";" ++ addrStr
    type := type
    origin := if isCommand then .command else .supervised
    description := connName ++ "~" ++ grpDesc ++ "~" ++ addrStr ++
      (if isCommand then "-Command" else "")
    ungroupedDescription := grpDesc ++ " " ++ addrStr
    group1 := connName
    group2 := grpDesc
    protocolSourceConnectionNumber := .fin iv.connNumber
    protocolSourceCommonAddress := .num (.fin srcCommonAddress)
    protocolSourceObjectAddress := .num (.fin iv.address)
    protocolSourceASDU := .num asdu
    protocolSourceCommandDuration := .val commandDuration
    protocolSourceCommandUseSBO := .bool false
    commandOfSupervised := commandOfSupervised
    supervisedOfCommand := supervisedOfCommand
    kconv1 := .fin 1
    kconv2 := .fin 0
    alarmState := if digital then .fin 2 else .fin (-1)
    stateTextFalse := if digital then "FALSE" else ""
    stateTextTrue := if digital then "TRUE" else ""
    eventTextFalse := if digital then "FALSE" else ""
    eventTextTrue := if digital then "TRUE" else ""
    value := if isCommand then .fin 0 else iv.value
    valueString := if isCommand then "" else iv.valueString
    invalid := true
    isEvent := some false
    alarmDisabled := .bool false
    alarmed := false
    annotation := .str ""
    frozen := false
    hiLimit := .val maxDouble
    loLimit := .val maxDouble.neg
    historianDeadBand := .val (.fin 0)
    historianPeriod := .val (.fin 0)
    hysteresis := .val (.fin 0)
    notes := .str ""
    overflow := false
    priority := .fin 0
    sourceDataUpdate := .none
    timeTag := .null
    timeTagAlarm := none
    timeTagAtSource := none
    timeTagAtSourceOk := some false
    transient := false
    unit := ""
    updatesCnt := .val (.fin 0)
    valueDefault := .fin 0
    zeroDeadband := .val (.fin 0) }

/-- The group of the commands of an output status. -/
def commandGroup (baseGroup : ℤ) : ℤ := if baseGroup = 10 then 12 else 41

/-- The documents of a new address, with the last key given out: that of an output status
comes behind that of its command. -/
def newTags (conn : DNP3Connection) (iv : Dnp3Value) (lastNewKeyCreated : Number)
    (realtimeData : List Point) : List ((ℤ × ℤ) × Point) × Number :=
  if conn.commandsEnabled && (iv.baseGroup = 10 || iv.baseGroup = 40) then
    let commandId := getNextAutoKey conn lastNewKeyCreated realtimeData
    let cmdGroup := commandGroup iv.baseGroup
    let asdu : Number := if iv.baseGroup = 10 then .fin 1 else .fin 3
    let dur : Number := if iv.baseGroup = 10 then .fin 3 else .fin 0
    let newId := getNextAutoKey conn commandId realtimeData
    ([((cmdGroup, iv.address),
        newRealtimeTagDoc iv conn.name commandId true cmdGroup asdu dur (.fin 0)
          (commandId.add (.fin 1))),
      ((iv.baseGroup, iv.address),
        newRealtimeTagDoc iv conn.name newId false iv.baseGroup (.fin 0) (.fin 0) commandId
          (.fin 0))], newId)
  else
    let newId := getNextAutoKey conn lastNewKeyCreated realtimeData
    ([((iv.baseGroup, iv.address),
      newRealtimeTagDoc iv conn.name newId false iv.baseGroup (.fin 0) (.fin 0) (.fin 0)
        (.fin 0))], newId)

/-- `getDouble(tagDoc, key, -1)` -/
def getDouble : JsVal → Number
  | .num x => x
  | .bool b => if b then .fin 1 else .fin 0
  | _ => .fin (-1)

/-- The addresses of the documents a connection has when the driver starts. -/
def existingAddresses (conn : DNP3Connection) (realtimeData : List Point) : List (ℤ × ℤ) :=
  (realtimeData.filter fun p =>
      p.protocolSourceConnectionNumber = .fin conn.protocolConnectionNumber).map fun d =>
    (toInt32 (getDouble d.protocolSourceCommonAddress),
      toInt32 (getDouble d.protocolSourceObjectAddress))

end JsonScada.Dnp3Client.AutoCreate
