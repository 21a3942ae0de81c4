/- path: JsonScada/MqttSparkplug/Publish
   source: src/mqtt-sparkplug/index.js
   digest: Metrics published for the points of the node. -/

import JsonScada.MqttSparkplug.Payload

set_option autoImplicit false
set_option relaxedAutoImplicit false

namespace JsonScada.MqttSparkplug.Publish

open JsonScada.Lib.Binary64 JsonScada.Lib.EcmaScript JsonScada.Lib.JsObject
open JsonScada.Model.Documents (Date DocField PointType Origin)
open JsonScada.MqttSparkplug.Topic JsonScada.MqttSparkplug.Payload

def TAGS_SUBTOPIC : String := "@json-scada/tags"

/-- The fields that are read of a point. -/
structure Element where
  _id : Number
  tag : String
  type : PointType
  origin : Origin := .supervised
  protocolSourceConnectionNumber : ℤ := 0
  value : Number := .fin 0
  valueString : Option String := none
  valueJson : Option Value := none
  invalid : Bool := false
  isEvent : Bool := false
  timeTagAtSource : DocField Date := .absent
  timeTagAtSourceOk : DocField Bool := .absent
  description : String := ""
  ungroupedDescription : Option String := none
  group1 : Option String := none
  group2 : Option String := none
  group3 : Option String := none

/-- The protocol connection, as far as publishing goes. -/
structure Connection where
  protocolConnectionNumber : ℤ
  publishTopicRoot : Option String := none
  commandsEnabled : Bool := true

/-- Type and value of the metric of a point. -/
def typeValue (element : Element) : Option (String × Scalar) :=
  match element.type with
  | .digital =>
    -- pure events steady state is false
    some ("boolean", .bool (!element.isEvent && (element.value ≠ .nan && element.value ≠ .fin 0)))
  | .string =>
    some ("string", .str (element.valueString.getD (String.ofList (numToString element.value))))
  | .analog => some ("double", .num element.value)
  | .json => none

def isBlank (s : Option String) : Bool := trim (s.getD "").toList = []

/-- A level of a topic, left out where the group is blank. -/
def levelOf (group : Option String) : String :=
  if isBlank group then "" else topicStr (group.getD "") ++ "/"

/-- The properties `topic` and `topicAsTag`, for publishing as normal topics. -/
def topicsOf (connection : Connection) (element : Element) : Members Scalar :=
  if isBlank connection.publishTopicRoot then [] else
    let root := String.ofList (trim (connection.publishTopicRoot.getD "").toList) ++ "/"
    let name := if isBlank element.ungroupedDescription then topicStr element.tag
      else topicStr (element.ungroupedDescription.getD "")
    let tags := if isBlank element.group1 then ""
      else TAGS_SUBTOPIC ++ "/" ++ topicStr (element.group1.getD "") ++ "/"
    [("topic", .str (root ++ levelOf element.group1 ++ levelOf element.group2 ++
        levelOf element.group3 ++ name)),
      ("topicAsTag", .str (root ++ tags ++ topicStr element.tag ++ "/value"))]

/-- `new Date(element.timeTagAtSource).getTime()`, unless there is none. -/
def sourceTimestamp (element : Element) : Option Date := element.timeTagAtSource.given

/-- `timestampGood`, undefined where the point has no flag. -/
def dataTimestampGood (element : Element) : Scalar :=
  match element.timeTagAtSourceOk with
  | .val b => .bool b
  | _ => .null

/-- `timestampGood` of a birth: false where the point has no flag. -/
def birthTimestampGood (element : Element) : Scalar :=
  match element.timeTagAtSourceOk with
  | .val b => .bool b
  | .null => .null
  | .absent => .bool false

theorem truthy_dataTimestampGood (element : Element) :
    Scalar.truthy (some (dataTimestampGood element)) =
      decide (element.timeTagAtSourceOk = .val true) := by
  cases h : element.timeTagAtSourceOk with
  | val b => cases b <;> simp [dataTimestampGood, h, Scalar.truthy]
  | null => simp [dataTimestampGood, h, Scalar.truthy]
  | absent => simp [dataTimestampGood, h, Scalar.truthy]

theorem truthy_birthTimestampGood (element : Element) :
    Scalar.truthy (some (birthTimestampGood element)) =
      decide (element.timeTagAtSourceOk = .val true) := by
  cases h : element.timeTagAtSourceOk with
  | val b => cases b <;> simp [birthTimestampGood, h, Scalar.truthy]
  | null => simp [birthTimestampGood, h, Scalar.truthy]
  | absent => simp [birthTimestampGood, h, Scalar.truthy]

def timestampProperty (element : Element) (timestampGood : Scalar) : Members Scalar :=
  if (sourceTimestamp element).isSome then [("timestampGood", timestampGood)] else []

/-- The scalar as a value of an object. -/
def toValue : Scalar → Value
  | .bool b => .bool b
  | .num x => .num x
  | .str s => .str s
  | _ => .null

/-- `text.replace(/^"(.*)"$/, '$1')`; the point of the expression stands for no line end. -/
def stripQuotes (text : List Char) : List Char :=
  let inner := text.tail.dropLast
  if text.head? = some '"' ∧ 2 ≤ text.length ∧ text.getLast? = some '"' ∧
      inner.all (fun c => c ∉ ['\n', '\r', '\u2028', '\u2029']) then inner
  else text

/-- The properties `valueJson` and `valueString`. -/
def valueProperties (element : Element) (value : Scalar) : Members Scalar :=
  let json := if Value.truthy element.valueJson then element.valueJson.getD .null
    else toValue value
  let text := match value with
    | .bool b => if b then "true" else "false"
    | .num x => String.ofList (numToString x)
    | .str s => s
    | _ => ""
  [("valueJson", .str (String.ofList (stripQuotes json.stringify))),
    ("valueString", .str (if element.valueString.getD "" = "" then text
      else element.valueString.getD ""))]

/-- Get data payload. -/
def getMetricPayload (element : Element) (connection : Connection) : Option Metric :=
  if element.origin = .command || element._id.lt (.fin 1) then none
  else
    (typeValue element).map fun tv =>
      .scalar {
        metricAlias := some (.num element._id)
        type := some tv.1
        timestamp := (sourceTimestamp element).map fun t : Date => .num (.fin t)
        properties := some (valueProperties element tv.2 ++
          ("good", .bool (!element.invalid)) :: (topicsOf connection element ++
            timestampProperty element (dataTimestampGood element))) }
        (some tv.2)

/-- The metric of a point in the BIRTH payload of the device. -/
def birthMetric (connection : Connection) (element : Element) : Option Metric :=
  if element._id.le (.fin 0) ||
      element.protocolSourceConnectionNumber = connection.protocolConnectionNumber then none
  else
    (typeValue element).map fun tv =>
      .scalar {
        name := some element.tag
        metricAlias := some (.num element._id)
        type := some tv.1
        timestamp := (sourceTimestamp element).map fun t : Date => .num (.fin t)
        properties := some (topicsOf connection element ++
          (if element.origin = .command then [("isCommand", .bool true)] else []) ++
          [("description", .str element.description), ("good", .bool (!element.invalid))] ++
          timestampProperty element (birthTimestampGood element)) }
        (some tv.2)

/-- The metrics of the BIRTH payload of the device. -/
def getDeviceBirthPayload (realtimeData : List Element) (connection : Connection) :
    List Metric :=
  let res := realtimeData.filter fun element =>
    element.protocolSourceConnectionNumber ≠ connection.protocolConnectionNumber &&
      (connection.commandsEnabled || element.origin ≠ .command) && (Number.fin 0).lt element._id
  res.filterMap (birthMetric connection)

end JsonScada.MqttSparkplug.Publish
