/- path: JsonScada/Telegraf/Listener
   source: src/telegraf-listener/index.js
   digest: The entries made of a Telegraf message, and the documents and updates made of them. -/

import JsonScada.Lib.JsObject
import JsonScada.Model.AutoKeys
import JsonScada.MqttSparkplug.Payload

set_option autoImplicit false
set_option relaxedAutoImplicit false

namespace JsonScada.Telegraf.Listener

open JsonScada.Lib.Binary64 JsonScada.Lib.EcmaScript JsonScada.Lib.JsObject
open JsonScada.Lib.JsObject.Value (member truthy text toStringCall)
open JsonScada.Model.Documents (Date Point)
open JsonScada.MqttSparkplug.AutoTag (maxValue)
open JsonScada.MqttSparkplug.Payload (dateOfNumber)

def APP_NAME : String := "TELEGRAF-LISTENER"

def grpSep : String := "~"

/-- An entry of the queue; its description is its tag. -/
structure Entry where
  tag : String
  value : Value
  group1 : Option Value := none
  group2 : String := ""
  group3 : String := ""
  ungroupedDescription : String := ""
  invalidAtSource : Bool := false
  timeTagAtSource : Option Date := none

section Messages

def notEmpty : Option Value → Bool
  | some (.str s) => trim s.toList ≠ []
  | _ => false

def addGrpIfNotEmpty : Option Value → String
  | some (.str s) => if trim s.toList ≠ [] then s ++ grpSep else ""
  | _ => ""

/-- The text of a value that is one, as `notEmpty` has found it. -/
def stringOf : Option Value → String
  | some (.str s) => s
  | _ => ""

/-- `text.indexOf(pat) !== -1` -/
def contains (pat text : List Char) : Bool := text.tails.any fun t => pat.isPrefixOf t

/-- `Object.entries(v)`, which throws for null and undefined. -/
def entries : Option Value → Option Fields
  | none | some .null => none
  | some (.obj fs) => some fs
  | some (.arr vs) => some (vs.zipIdx.map fun x => (toString x.2, x.1))
  | some (.str s) => some (s.toList.zipIdx.map fun x => (toString x.2, .str (String.ofList [x.1])))
  | some _ => some []

/-- A topic up to its last slash, and what follows it. -/
def splitAtLastSlash (topic : String) : String × String :=
  let reversed := topic.toList.reverse
  if '/' ∈ reversed then
    (String.ofList (reversed.dropWhile (· ≠ '/')).tail.reverse,
      String.ofList (reversed.takeWhile (· ≠ '/')).reverse)
  else (topic, topic)

/-- The variables of `processMessageJSON` before it reads the fields. -/
structure Naming where
  grouping : String
  group1 : Option Value
  group2 : String := ""
  group3 : String := ""
  ungroupedDescription : String := ""

/-- The group of the measurement, or its name. -/
def firstGroup (data : Value) : Naming :=
  let group1 := member (member (some data) "tags") "group1"
  let name := member (some data) "name"
  if notEmpty group1 then { grouping := addGrpIfNotEmpty group1, group1 := group1 }
  else { grouping := addGrpIfNotEmpty name, group1 := name }

/-- The second group, or the topic, or the name of the host. -/
def secondGroup (data : Value) (n : Naming) : Naming :=
  let tags := member (some data) "tags"
  let group2 := member tags "group2"
  let topic := member tags "topic"
  let host := member tags "host"
  if notEmpty group2 then
    { n with grouping := n.grouping ++ addGrpIfNotEmpty group2, group2 := stringOf group2 }
  else if notEmpty topic then
    let parts := splitAtLastSlash (stringOf topic)
    { n with
      grouping := n.grouping ++ parts.1 ++ grpSep
      group2 := parts.1
      ungroupedDescription := parts.2 }
  else if notEmpty host then
    { n with grouping := n.grouping ++ addGrpIfNotEmpty host, group2 := stringOf host }
  else n

def thirdGroup (data : Value) (n : Naming) : Naming :=
  let group3 := member (member (some data) "tags") "group3"
  { n with
    grouping := n.grouping ++ addGrpIfNotEmpty group3
    group3 := if notEmpty group3 then stringOf group3 else "" }

/-- The keys of tags that are not added to the grouping. -/
def ignoredKeys : List String :=
  ["instance", "host", "hostname", "node_type", "rs_name", "topic", "group1", "group2", "group3"]

/-- A tag whose value the grouping does not hold yet is added to it; `none` tells of a value
without a text. -/
def addTag (grouping : Option String) (tag : String × Value) : Option String :=
  grouping.bind fun g =>
    if tag.1 ∈ ignoredKeys then some g
    else (text tag.2).map fun val =>
      if val ≠ [] ∧ contains val g.toList = false then g ++ String.ofList val ++ grpSep else g

/-- The naming of the entries of a message; `none` tells of an exception. -/
def namingOf (data : Value) : Option Naming :=
  let n := thirdGroup data (secondGroup data (firstGroup data))
  let tags := member (some data) "tags"
  (entries tags).bind fun fields =>
    let grouping :=
      if truthy (member tags "group2") && truthy (member tags "group3") then some n.grouping
      else fields.foldl addTag (some n.grouping)
    grouping.map fun g => { n with grouping := g ++ addGrpIfNotEmpty (member tags "instance") }

/-- `grouping.replace(/~\s*$/, '')` -/
def dropLastSeparator (grouping : String) : String :=
  match grouping.toList.reverse.dropWhile isWhite with
  | '~' :: rest => String.ofList rest.reverse
  | _ => grouping

/-- `Number(v)` of a parsed value. -/
def toNumber : Option Value → Option Number
  | none => some .nan
  | some .null => some (.fin 0)
  | some (.bool b) => some (.fin (if b then 1 else 0))
  | some (.num x) => some x
  | some v => (text v).map stringToNumber

/-- `new Date(1000 * data.timestamp)` -/
def timeTagOf (data : Value) : Option (Option Date) :=
  (toNumber (member (some data) "timestamp")).map fun t => dateOfNumber (Number.mul (.fin 1000) t)

/-- The fields from the first on, up to an exception. The description and the flag go on from
one field to the next. -/
def entriesOf (data : Value) (n : Naming) : Fields → String → Bool → List Entry
  | [], _, _ => []
  | (key, value) :: fields, ungroupedDescription, invalid =>
    if key = "Quality" then
      match toStringCall value with
      | none => []
      | some t =>
        entriesOf data n fields ungroupedDescription (invalid || !contains "OK".toList t)
    else
      let tag :=
        if key = "value" then
          if ungroupedDescription = "" then dropLastSeparator n.grouping
          else n.grouping ++ ungroupedDescription
        else n.grouping ++ key
      let ungroupedDescription := if key = "value" then ungroupedDescription else key
      match timeTagOf data with
      | none => []
      | some timeTag =>
        { tag := tag
          value := value
          group1 := n.group1
          group2 := n.group2
          group3 := n.group3
          ungroupedDescription := ungroupedDescription
          invalidAtSource := invalid
          timeTagAtSource := timeTag } ::
        entriesOf data n fields ungroupedDescription invalid

/-- The entries `processMessageJSON` puts in the queue. -/
def processMessageJSON (data : Value) : List Entry :=
  match namingOf data, entries (member (some data) "fields") with
  | some n, some fields => entriesOf data n fields n.ungroupedDescription false
  | _, _ => []

end Messages

section Documents

/-- The document made of an entry; a group that is no text is left out. It is `none` where
`measurement.value.toString()` throws. -/
def rtData (ConnectionNumber AutoKeyId : Number) (measurement : Entry) : Option Point :=
  (toStringCall measurement.value).map fun valueString =>
    { _id := AutoKeyId
      tag := measurement.tag
      type := match measurement.value with
        | .num x => if x = .nan then .string else .analog
        | _ => .string
      origin := .supervised
      group1 := stringOf measurement.group1
      group2 := measurement.group2
      description := measurement.tag
      ungroupedDescription := measurement.ungroupedDescription
      alarmState := .fin (-1)
      alarmRange := .val (.fin 0)
      alarmDisabled := .bool false
      alarmed := false
      annotation := .str ""
      commandOfSupervised := .fin 0
      supervisedOfCommand := .fin 0
      frozen := false
      hiLimit := .val maxValue
      loLimit := .val maxValue.neg
      historianDeadBand := .val (.fin 0)
      historianPeriod := .val (.fin 0)
      hysteresis := .val (.fin 0)
      invalid := measurement.invalidAtSource
      isEvent := some false
      kconv1 := .fin 1
      kconv2 := .fin 0
      notes := .str ""
      overflow := false
      priority := .fin 0
      protocolSourceConnectionNumber := ConnectionNumber
      protocolSourceCommonAddress := .str ""
      protocolSourceObjectAddress := .str measurement.tag
      protocolSourceASDU := .str ""
      protocolSourceCommandDuration := .val (.fin 0)
      protocolSourceCommandUseSBO := .bool false
      sourceDataUpdate := .none
      timeTag := .null
      timeTagAlarm := none
      timeTagAtSource := measurement.timeTagAtSource
      timeTagAtSourceOk := some false
      transient := false
      updatesCnt := .val (.fin 0)
      value := (toNumber (some measurement.value)).getD .nan
      valueDefault := .fin 0
      valueString := String.ofList valueString
      zeroDeadband := .val (.fin 0) }

/-- The filter of the look-up and of the update. -/
def ofTag (ConnectionNumber : Number) (tag : String) (p : Point) : Bool :=
  p.protocolSourceConnectionNumber = ConnectionNumber &&
    p.protocolSourceObjectAddress = .str tag

end Documents

end JsonScada.Telegraf.Listener
