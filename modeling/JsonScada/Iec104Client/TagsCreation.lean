/- path: JsonScada/Iec104Client/TagsCreation
   source: src/lib60870.netcore/iec104client/TagsCreation.cs, MongoUpdate.cs, Program.cs
   digest: The documents the client driver creates for new addresses. -/

import JsonScada.Model.AutoKeys
import JsonScada.Iec104Client.Update

set_option autoImplicit false
set_option relaxedAutoImplicit false

namespace JsonScada.Iec104Client.TagsCreation

open JsonScada.Lib.Binary64 JsonScada.Lib.EcmaScript JsonScada.Model.Documents
open JsonScada.Model.AutoKeys JsonScada.Iec104.Types
open JsonScada.Iec104Client.Commands JsonScada.Iec104Client.Update

/-- The types without a time tag of the types with one. -/
def MapAsduToBaseType (asdu : TypeID) : ℤ :=
  match asdu.code with
  | 2 | 30 => 1
  | 4 | 31 => 3
  | 6 | 32 => 5
  | 8 | 33 => 7
  | 10 | 21 | 34 => 9
  | 12 | 35 => 11
  | 14 | 36 => 13
  | 16 | 37 => 15
  | n => n

def Iec10xTypeDescription (baseType : ℤ) : String :=
  match baseType with
  | 1 => "Single Point"
  | 3 => "Double Point"
  | 5 => "Step Position"
  | 7 => "Bitstring 32"
  | 9 => "Measured Normalized"
  | 11 => "Measured Scaled"
  | 13 => "Measured Float"
  | 15 => "Integrated Totals"
  | 20 => "Packed Single Point"
  | n => "ASDU " ++ toString n

/-- The types the receive handler enqueues as digital: single and double points and
protection events. -/
def isDigital (asdu : TypeID) : Bool :=
  asdu.code ∈ [1, 2, 3, 4, 17, 18, 19, 30, 31, 38, 39, 40]

def GetNextAutoKey (srv : Connection) (LastNewKeyCreated : Number) (realtimeData : List Point) :
    Number :=
  nextAutoKey srv.protocolConnectionNumber LastNewKeyCreated realtimeData

/-- `double.MaxValue` -/
def maxValue : Number := .fin (2 ^ 1024 - 2 ^ 971)

def NewRealtimeTagDoc (doubleText : Number → String) (iv : IEC_Value) (connName : String)
    (id : Number) : Point :=
  let baseType := MapAsduToBaseType iv.asdu
  let desc := Iec10xTypeDescription baseType
  let digital := isDigital iv.asdu
  { _id := id
    tag := connName ++ ";" ++ toString iv.common_address ++ ";" ++ toString iv.address
    type := if digital then .digital else .analog
    origin := .supervised
    description := connName ++ "~" ++ desc ++ "~" ++ toString iv.address
    ungroupedDescription := desc ++ " " ++ toString iv.address
    group1 := connName
    group2 := "CA " ++ toString iv.common_address
    protocolSourceConnectionNumber := .fin iv.conn_number
    protocolSourceCommonAddress := .num (.fin iv.common_address)
    protocolSourceObjectAddress := .num (.fin iv.address)
    protocolSourceASDU := .num (.fin baseType)
    protocolSourceCommandDuration := .val (.fin 0)
    protocolSourceCommandUseSBO := .bool false
    commandOfSupervised := .fin 0
    supervisedOfCommand := .fin 0
    kconv1 := .fin 1
    kconv2 := .fin 0
    alarmState := if digital then .fin 2 else .fin (-1)
    stateTextFalse := if digital then "FALSE" else ""
    stateTextTrue := if digital then "TRUE" else ""
    eventTextFalse := if digital then "FALSE" else ""
    eventTextTrue := if digital then "TRUE" else ""
    value := iv.value
    valueString := doubleText iv.value
    invalid := true
    isEvent := some false
    alarmDisabled := .bool false
    alarmed := false
    annotation := .str ""
    frozen := false
    hiLimit := .val maxValue
    loLimit := .val maxValue.neg
    historianDeadBand := .val (.fin 0)
    historianPeriod := .val (.fin 0)
    hysteresis := .val (.fin 0)
    notes := .str ""
    overflow := false
    priority := .fin 0
    sourceDataUpdate := .none
    timeTag := .null
    timeTagAlarm := none
    timeTagAtSource := none
    timeTagAtSourceOk := some false
    transient := false
    unit := ""
    updatesCnt := .val (.fin 0)
    valueDefault := .fin 0
    zeroDeadband := .val (.fin 0) }

/-- The addresses of the documents a connection has when the driver starts. `toInt32` is
the conversion of a document field, `none` where it throws; a missing field is -1. -/
def existingAddresses (toInt32 : JsVal → Option ℤ) (srv : Connection)
    (realtimeData : List Point) : Option (List (ℤ × ℤ)) :=
  let field (v : JsVal) : Option ℤ := if v = .undefined then some (-1) else toInt32 v
  (realtimeData.filter (ofConnection srv)).mapM fun d => do
    let ca ← field d.protocolSourceCommonAddress
    let ioa ← field d.protocolSourceObjectAddress
    return (ca, ioa)

end JsonScada.Iec104Client.TagsCreation
