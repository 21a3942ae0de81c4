/- path: JsonScada/OpcUaServer/Convert
   source: src/OPC-UA-Server/index.js
   digest: The documents the OPC-UA server publishes, and the variants they are converted to. -/

import JsonScada.Lib.JsObject
import JsonScada.Model.Documents

set_option autoImplicit false
set_option relaxedAutoImplicit false

namespace JsonScada.OpcUaServer.Convert

open JsonScada.Lib.Binary64 JsonScada.Lib.EcmaScript JsonScada.Lib.JsObject
open JsonScada.Model.Documents (Date)

inductive DataType where
  | boolean
  | sbyte
  | byte
  | int16
  | uint16
  | int32
  | uint32
  | int64
  | uint64
  | float
  | double
  | string
  | dateTime
  | guid
  | byteString
  | xmlElement
  | nodeId
  | expandedNodeId
  | statusCode
  | qualifiedName
  | localizedText
  | dataValue
  | variant
  deriving DecidableEq

inductive ArrayType where
  | array
  | matrix
  deriving DecidableEq

structure NodeId where
  idType : Value
  identifier : Value
  namespaceIndex : Value

/-- A value of a variant. -/
inductive UaValue where
  | undefined
  | value (v : Value)
  | nodeId (n : NodeId)

/-- What `convertValueVariant` returns; no data type is the empty text of the source. -/
structure Conversion where
  value : UaValue
  dataType : Option DataType
  arrayType : Option ArrayType := none

/-- `protocolSourceASDU` -/
inductive Asdu where
  | absent
  | text (s : String)
  | num (x : Number)
  deriving DecidableEq

/-- A document of `realtimeData`. -/
structure RtData where
  _id : Number
  tag : String
  type : String
  value : Number
  valueString : Option String := none
  valueJson : Option String := none
  invalid : Bool := false
  timeTagAtSource : Option Date := none
  group1 : Option String := some ""
  origin : String := "supervised"
  protocolSourceConnectionNumber : Number := .fin 0
  protocolSourceASDU : Asdu := .absent
  protocolSourceCommonAddress : Value := .null
  protocolSourceObjectAddress : Value := .null
  protocolSourceCommandDuration : Value := .null
  protocolSourceCommandUseSBO : Value := .null
  /-- `commandBlocked`, when it is a boolean -/
  commandBlocked : Option Bool := some false
  supervisedOfCommand : Number := .fin 0

/-- What is taken from the libraries; `none` is a thrown error. -/
structure Host where
  /-- `JSON.parse(text)` -/
  parseJson : String → Option Value
  /-- `new Date(v)` -/
  newDate : Option Value → Value
  /-- `new NodeId(idType, identifier, namespaceIndex)` -/
  newNodeId : Value → Value → Value → Option NodeId

variable (host : Host)

section Analog

/-- `parseFloat(value)` of a number reads its text. -/
def parseFloatOf (value : Number) : Number := parseFloat (numToString value)

def parseIntOf (value : Number) : Number := parseInt (numToString value)

/-- `x & mask`, a number of 32 bits with its sign. -/
def bitAnd (x : Number) (mask : ℕ) : ℤ :=
  let bits := toUint32 x &&& mask
  if bits < 2 ^ 31 then bits else (bits : ℤ) - 2 ^ 32

def masked (mask : ℕ) (value : Number) : UaValue :=
  .value (.num (.fin (bitAnd (parseIntOf value) mask)))

def convertAnalog (rtData : RtData) : Conversion :=
  let float : UaValue := .value (.num (parseFloatOf rtData.value))
  match rtData.protocolSourceASDU with
  | .text "datavalue" => ⟨float, some .dataValue, none⟩
  | .text "statuscode" => ⟨masked 0xffffffff rtData.value, some .statusCode, none⟩
  | .text "float" => ⟨float, some .float, none⟩
  | .text "int16" => ⟨masked 0xffff rtData.value, some .int16, none⟩
  | .text "uint16" => ⟨masked 0xffff rtData.value, some .uint16, none⟩
  | .text "int32" => ⟨masked 0xffffffff rtData.value, some .int32, none⟩
  | .text "uint32" => ⟨masked 0xffffffff rtData.value, some .uint32, none⟩
  | .text "int64" => ⟨.value (.num (parseIntOf rtData.value)), some .int64, none⟩
  | .text "uint64" => ⟨.value (.num (parseIntOf rtData.value)), some .uint64, none⟩
  | .text "byte" => ⟨masked 0xff rtData.value, some .byte, none⟩
  | .text "sbyte" => ⟨masked 0xff rtData.value, some .sbyte, none⟩
  | .text "boolean" => ⟨.value (.bool (rtData.value ≠ .fin 0)), some .boolean, none⟩
  | .text "datetime" =>
    ⟨.value (host.newDate (some (.num rtData.value))), some .dateTime, none⟩
  | _ => ⟨float, some .double, none⟩

end Analog

section Json

/-- The data type of a JSON value, by its `protocolSourceASDU`. -/
def jsonType : Asdu → DataType
  | .text "boolean[]" => .boolean
  | .text "float[]" => .float
  | .text "int16[]" => .int16
  | .text "uint16[]" => .uint16
  | .text "int32[]" => .int32
  | .text "uint32[]" => .uint32
  | .text "int64[]" => .int64
  | .text "uint64[]" => .uint64
  | .text "byte[]" => .byte
  | .text "sbyte[]" => .sbyte
  | .text "string[]" => .string
  | .text "guid[]" => .guid
  | .text "datetime[]" => .dateTime
  | .text "bytestring[]" => .byteString
  | .text "xmlelement[]" => .xmlElement
  | .text "nodeid" => .nodeId
  | .text "nodeid[]" => .nodeId
  | .text "expandednodeid[]" => .expandedNodeId
  | .text "qualifiedname[]" => .qualifiedName
  | .text "localizedtext[]" => .localizedText
  | _ => .double

/-- `obj[0]`, `obj[1]`, … up to `obj.length`. -/
def items : Value → List (Option Value)
  | .arr vs => vs.map some
  | .str s => s.toList.map fun c => some (.str (String.singleton c))
  | .obj fs =>
    match Members.get fs "length" with
    | some (.num (.fin q)) => (List.range ⌈q⌉.toNat).map fun i => Members.get fs (toString i)
    | _ => []
  | _ => []

/-- An element of the array of GUIDs that is made. -/
def guidOf : Option Value → Option Value
  | some (.str s) => some (.str s)
  | v =>
    let guid := Value.member v "GuidString"
    if Value.truthy guid then guid else none

/-- `new NodeId(NodeIdType.NUMERIC, 0, 0)` -/
def nullNodeId : NodeId := ⟨.num (.fin 1), .num (.fin 0), .num (.fin 0)⟩

/-- The case of a node id; `none` is the error of `in` on a value that is no object. -/
def nodeIdOf : Value → Option NodeId
  | .obj fs =>
    match Members.get fs "Identifier", Members.get fs "NamespaceIndex" with
    | some identifier, some namespaceIndex =>
      let given := (Members.get fs "IdType").filter fun v => Value.truthy (some v)
      let idType := match identifier with
        | .num _ => .num (.fin 1)
        | .str _ => .num (.fin 2)
        | _ => given.getD (.num (.fin 1))
      some ((host.newNodeId idType identifier namespaceIndex).getD nullNodeId)
    | _, _ => some nullNodeId
  | .null => some nullNodeId
  | .arr _ => some nullNodeId
  | .date _ => some nullNodeId
  | _ => none

/-- The array type, and the data type of an array whose first element is a boolean. -/
def ofArray (asdu : Asdu) (dataType : DataType) (vs : List Value) : Option Conversion :=
  match asdu with
  | .num _ => none
  | .text s =>
    if s.endsWith "[][]" then some ⟨.value (.arr vs), some dataType, some .matrix⟩
    else some ⟨.value (.arr vs), some (match vs with
      | .bool _ :: _ => .boolean
      | _ => dataType), some .array⟩
  | .absent => some ⟨.value (.arr vs), some (match vs with
      | .bool _ :: _ => .boolean
      | _ => dataType), some .array⟩

/-- The case of a JSON value: without a text it is null, and a text that cannot be parsed gives
neither value nor type. -/
def convertJson (rtData : RtData) : Option Conversion :=
  let parsed : Option Value := match rtData.valueJson with
    | none => some .null
    | some text => if text = "" then some .null else host.parseJson text
  match parsed with
  | none => some ⟨.value .null, none, none⟩
  | some obj =>
    let dataType := jsonType rtData.protocolSourceASDU
    match rtData.protocolSourceASDU with
    | .text "guid[]" => ofArray rtData.protocolSourceASDU dataType ((items obj).filterMap guidOf)
    | .text "datetime[]" =>
      ofArray rtData.protocolSourceASDU dataType ((items obj).map host.newDate)
    | .text "nodeid" => (nodeIdOf host obj).map fun n => ⟨.nodeId n, some dataType, none⟩
    | asdu =>
      match obj with
      | .arr vs => ofArray asdu dataType vs
      | v => some ⟨.value v, some dataType, none⟩

end Json

/-- The data type of a text. -/
def textType : Asdu → DataType
  | .text "guid" => .guid
  | .text "bytestring" => .byteString
  | .text "xmlelement" => .xmlElement
  | .text "nodeid" => .nodeId
  | .text "expandednodeid" => .expandedNodeId
  | .text "qualifiedname" => .qualifiedName
  | .text "localizedtext" => .localizedText
  | _ => .string

/-- The variant of a document; `none` is a thrown error. -/
def convertValueVariant (rtData : RtData) : Option Conversion :=
  if rtData.type = "digital" then
    some ⟨.value (.bool (rtData.value ≠ .fin 0)), some .boolean, none⟩
  else if rtData.type = "json" then convertJson host rtData
  else if rtData.type = "string" then
    some ⟨.value (.str (rtData.valueString.getD (String.ofList (numToString rtData.value)))),
      some (textType rtData.protocolSourceASDU), none⟩
  else if rtData.type = "analog" then some (convertAnalog host rtData)
  else some ⟨.value .null, none, none⟩

end JsonScada.OpcUaServer.Convert
