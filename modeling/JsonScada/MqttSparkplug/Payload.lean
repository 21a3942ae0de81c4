/- path: JsonScada/MqttSparkplug/Payload
   source: src/mqtt-sparkplug/index.js, sparkplug-client.js, cast.js
   digest: Sparkplug names, topics, and the paths of nodes and devices; metrics of Sparkplug
   payloads and the casts of their values. -/

import JsonScada.Lib.JsObject
import JsonScada.MqttSparkplug.AutoTag

set_option autoImplicit false
set_option relaxedAutoImplicit false

namespace JsonScada.MqttSparkplug.Topic

open JsonScada.Lib.EcmaScript (replaceAll trim)
open JsonScada.MqttSparkplug.AutoTag (SparkplugNS splitTopic textOf)

/-- What every character of a list satisfies is decided along the list. -/
theorem forall_mem_of_all {P : Char → Prop} [DecidablePred P] {cs : List Char}
    (h : (cs.all fun c => decide (P c)) = true) : ∀ c ∈ cs, P c := by
  intro c hc
  exact of_decide_eq_true (List.all_eq_true.mp h c hc)

/-- An identifier of a group, an edge node or a device. -/
structure Name where
  text : String
  nonempty : text ≠ ""
  legal : ∀ c ∈ ['/', '+', '#'], c ∉ text.toList
  deriving DecidableEq

/-- Levels joined by slashes. -/
def joined : List String → String
  | [] => ""
  | [a] => a
  | a :: as => a ++ "/" ++ joined as

/-- `splTopic[0] + '/' + splTopic[1] + '/' + splTopic[3]` -/
def nodeLocator (splTopic : List String) : String :=
  textOf splTopic[0]? ++ "/" ++ textOf splTopic[1]? ++ "/" ++ textOf splTopic[3]?

def deviceLocator (splTopic : List String) : String :=
  if 4 < splTopic.length then nodeLocator splTopic ++ "/" ++ textOf splTopic[4]?
  else nodeLocator splTopic

/-- Replaces characters that are not valid in a topic name. -/
def topicStr (s : String) : String :=
  String.ofList ((trim s.toList).map fun c =>
    if c = '/' then '|' else if c = '+' then '^' else if c = '#' then '@' else c)

theorem splitTopic_singleton {a : String} (h : '/' ∉ a.toList) : splitTopic a = [a] := by
  simp [splitTopic, List.splitOn_eq_singleton h]

theorem splitTopic_append {a : String} (h : '/' ∉ a.toList) (b : String) :
    splitTopic (a ++ "/" ++ b) = a :: splitTopic b := by
  have hlist : (a ++ "/" ++ b).toList = a.toList ++ '/' :: b.toList := by simp
  rw [splitTopic, hlist, List.splitOn_append_cons_self_of_not_mem h]
  simp [splitTopic]

theorem splitTopic_joined {a : String} {as : List String}
    (h : ∀ x ∈ a :: as, '/' ∉ x.toList) : splitTopic (joined (a :: as)) = a :: as := by
  induction as generalizing a with
  | nil => exact splitTopic_singleton (h a List.mem_cons_self)
  | cons b as ih =>
    rw [joined, splitTopic_append (h a List.mem_cons_self),
      ih fun x hx => h x (List.mem_cons_of_mem a hx)]
    simp

end JsonScada.MqttSparkplug.Topic

namespace JsonScada.MqttSparkplug.Payload

open JsonScada.Lib.Binary64 JsonScada.Lib.EcmaScript JsonScada.Lib.JsObject
open JsonScada.Model.Documents (Date)

/-- A value of a metric or of a property. A `long` is an object of the 64-bit integer
package; `json` stands for an object that holds no metrics: a data set or a template. -/
inductive Scalar where
  | null
  | bool (b : Bool)
  | num (x : Number)
  | long (n : ℤ)
  | str (s : String)
  | date (ms : Option Date)
  | json
  deriving DecidableEq

namespace Scalar

def truthy : Option Scalar → Bool
  | none => false
  | some null => false
  | some (bool b) => b
  | some (num x) => x ≠ .nan && x ≠ .fin 0
  | some (str s) => s ≠ ""
  | some _ => true

/-- `Number(v)`; a `long` is read through its decimal text. -/
def toNumber : Scalar → Number
  | null => .fin 0
  | bool b => .fin (if b then 1 else 0)
  | num x => x
  | long n => round binary64 n
  | str s => stringToNumber s.toList
  | date ms => ms.elim .nan fun t => .fin t
  | json => .nan

end Scalar

/-- What a metric has beside its value. A missing member is `none`. -/
structure Head where
  name : Option String := none
  metricAlias : Option Scalar := none
  timestamp : Option Scalar := none
  type : Option String := none
  isHistorical : Bool := false
  isTransient : Bool := false
  isNull : Bool := false
  properties : Option (Members Scalar) := none
  /-- `metadata.description` -/
  metaDescription : Option String := none
  deriving DecidableEq

/-- A metric of a decoded payload; the value of a template can hold further metrics. -/
inductive Metric where
  | scalar (head : Head) (value : Option Scalar)
  | template (head : Head) (metrics : List Metric)

def Metric.head : Metric → Head
  | .scalar head _ => head
  | .template head _ => head

mutual

/-- What the metrics have that are no templates, in their order. -/
def Metric.leaves : Metric → List Head
  | .scalar head _ => [head]
  | .template _ metrics => leavesOf metrics

def leavesOf : List Metric → List Head
  | [] => []
  | m :: ms => m.leaves ++ leavesOf ms

end

theorem mem_leavesOf {head : Head} {ms : List Metric} :
    head ∈ leavesOf ms ↔ ∃ m ∈ ms, head ∈ m.leaves := by
  induction ms with
  | nil => simp [leavesOf]
  | cons m ms ih => simp [leavesOf, ih]

/-- What the model takes from packages and from the JavaScript engine. -/
structure Host where
  /-- `Long.fromValue(v, false).toSigned()`, as an integer. -/
  longSigned : Scalar → ℤ
  /-- `Long.fromValue(v, true).toUnsigned()`, as an integer. -/
  longUnsigned : Scalar → ℤ
  /-- `Date.prototype.toString()`, in the zone of the machine. -/
  dateText : Option Date → String
  /-- `JSON.stringify(metric)`, with the members the decoder adds. -/
  metricJson : Head → Option Scalar → String
  /-- `JSON.stringify` of what is made of a data set or a template definition. -/
  objectText : Head → Option Scalar → String

/-- A host whose 64-bit numbers are those of the package for whole numbers in range. -/
def plainHost : Host where
  longSigned v := match v.toNumber with
    | .fin q => truncate q
    | _ => 0
  longUnsigned v := match v.toNumber with
    | .fin q => max 0 (truncate q)
    | _ => 0
  dateText _ := "Thu Jan 01 1970 00:00:01 GMT+0000 (Coordinated Universal Time)"
  metricJson _ _ := "\x7b\"type\":\"Boolean\",\"value\":true\x7d"
  objectText _ _ := ""

section Casts

variable (host : Host)

/-- `new Date(x)` of a number. -/
def dateOfNumber : Number → Option Date
  | .fin q => if |q| ≤ 8640000000000000 then some (truncate q) else none
  | _ => none

/-- `new Int32Array([v])[0]` -/
def toInt32 (x : Number) : ℤ :=
  if toUint32 x < 2 ^ 31 then (toUint32 x : ℤ) else (toUint32 x : ℤ) - 2 ^ 32

def castSparkplugValue (type : String) (value : Scalar) : Scalar :=
  if type ∈ ["int8", "int16", "int32"] then .num (.fin (toInt32 value.toNumber))
  else if type = "int64" then .long (host.longSigned value)
  else if type ∈ ["uint8", "uint16", "uint32"] then .num (.fin (toUint32 value.toNumber))
  else if type = "uint64" then .long (host.longUnsigned value)
  else if type = "datetime" then
    .date (dateOfNumber (round binary64 (host.longUnsigned value)))
  else if type = "boolean" then .bool (Scalar.truthy (some value))
  else value

/-- `v.toString()` -/
def Scalar.toText : Scalar → String
  | .null => "null"
  | .bool b => if b then "true" else "false"
  | .num x => String.ofList (numToString x)
  | .long n => toString n
  | .str s => s
  | .date ms => host.dateText ms
  | .json => "[object Object]"

end Casts

end JsonScada.MqttSparkplug.Payload
