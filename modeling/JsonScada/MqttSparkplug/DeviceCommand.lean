/- path: JsonScada/MqttSparkplug/DeviceCommand
   source: src/mqtt-sparkplug/index.js, on dcmd and ProcessDeviceCommand
   digest: The commands queued for the metrics of a received device command. -/

import JsonScada.MqttSparkplug.Receive

set_option autoImplicit false
set_option relaxedAutoImplicit false

namespace JsonScada.MqttSparkplug.DeviceCommand

open JsonScada.Lib.Binary64 JsonScada.Lib.EcmaScript
open JsonScada.Model.Documents (Date DocField Point)
open JsonScada.MqttSparkplug.Payload
open JsonScada.MqttSparkplug.Receive (toLowerCase stringTypes)

/-- The connection of the driver, as far as commands need it. -/
structure JscadaConnection where
  protocolConnectionNumber : Number
  name : String
  endpointURLs : List String
  commandsEnabled : Bool
  deriving DecidableEq

/-- A document inserted in the commands queue. -/
structure Cmd where
  protocolSourceConnectionNumber : Number
  protocolSourceCommonAddress : JsVal
  protocolSourceObjectAddress : JsVal
  protocolSourceASDU : JsVal
  protocolSourceCommandDuration : DocField Number
  protocolSourceCommandUseSBO : JsVal
  pointKey : Number
  tag : String
  value : Number
  valueString : Option Scalar
  valueJson : String
  originatorUserName : String
  originatorIpAddress : Option String
  timeTag : Date
  deriving DecidableEq

/-- The package of 64-bit integers: `fromNumber` is what it makes of a factor, a number cut off
to an integer where it is in range. Products and sums keep 64 bits, with the sign of the first
operand's type. -/
structure Long where
  fromNumber : Number → ℤ
  fromNumber_cut : ∀ q, -2 ^ 63 ≤ truncate q → truncate q < 2 ^ 63 →
    fromNumber (.fin q) = truncate q

namespace Long

/-- The 64 bits of an integer, read with a sign or without. -/
def wrap (unsigned : Bool) (z : ℤ) : ℤ :=
  if unsigned then z % 2 ^ 64 else (z + 2 ^ 63) % 2 ^ 64 - 2 ^ 63

variable (long : Long)

/-- `value.mul(kconv1).add(kconv2)` -/
def mulAdd (unsigned : Bool) (value : ℤ) (kconv1 kconv2 : Number) : ℤ :=
  wrap unsigned (wrap unsigned (value * long.fromNumber kconv1) + long.fromNumber kconv2)

end Long

def valueOf : Metric → Option Scalar
  | .scalar _ value => value
  | .template _ _ => some .json

/-- The types of numbers of 32 bits at most, and of floats. -/
def numberTypes : List String :=
  ["int8", "int16", "uint8", "uint16", "int32", "uint32", "float", "double"]

def longTypes : List String := ["int64", "uint64"]

/-- `castSparkplugValue` of the smaller numbers; a missing value is no number. -/
def castNumber (host : Host) (type : String) (value : Option Scalar) : Number :=
  match value with
  | some v => (castSparkplugValue host type v).toNumber
  | none => (castSparkplugValue host type (.num .nan)).toNumber

/-- `castSparkplugValue` of a 64-bit integer, which throws for a value that is missing. -/
def castLong (host : Host) (type : String) : Option Scalar → Option ℤ
  | none | some .null => none
  | some v =>
    match castSparkplugValue host type v with
    | .long n => some n
    | _ => none

section Process

variable (host : Host) (long : Long) (conn : JscadaConnection) (currentBroker : ℕ) (now : Date)

/-- The number first read of a value: the start of its text, or zero. -/
def firstNumber (value : Option Scalar) : Number :=
  let x := match value with
    | some v => parseFloat (v.toText host).toList
    | none => .nan
  if x = .nan then .fin 0 else x

/-- `value` and `valueString` for a metric of a type in lower case; `none` tells of an
exception. -/
def convert (type : String) (value : Option Scalar) (element : Point) (metricJson : String) :
    Option (Number × Option Scalar) :=
  if type = "boolean" then
    let on := Scalar.truthy value
    let x : Number :=
      if element.kconv1 = .fin (-1) then .fin (if on then 0 else 1)
      else .fin (if on then 1 else 0)
    some (x, some (.str (if x ≠ .fin 0 then "true" else "false")))
  else if type ∈ stringTypes then some (firstNumber host value, value)
  else if type ∈ numberTypes then
    let x := (element.kconv1.mul (castNumber host type value)).add element.kconv2
    some (x, some (.str (String.ofList (numToString x))))
  else if type ∈ longTypes then
    (castLong host type value).map fun n =>
      let x := round binary64 (long.mulAdd (type = "uint64") n element.kconv1 element.kconv2)
      (x, some (.str (String.ofList (numToString x))))
  else some (firstNumber host value, some (.str metricJson))

/-- The command for a point. -/
def cmdOf (element : Point) (x : Number) (valueString : Option Scalar) (valueJson : String) :
    Cmd where
  protocolSourceConnectionNumber := element.protocolSourceConnectionNumber
  protocolSourceCommonAddress := element.protocolSourceCommonAddress
  protocolSourceObjectAddress := element.protocolSourceObjectAddress
  protocolSourceASDU := element.protocolSourceASDU
  protocolSourceCommandDuration := element.protocolSourceCommandDuration
  protocolSourceCommandUseSBO := element.protocolSourceCommandUseSBO
  pointKey := element._id
  tag := element.tag
  value := x
  valueString := valueString
  valueJson := valueJson
  originatorUserName := conn.name
  originatorIpAddress := conn.endpointURLs[currentBroker]?
  timeTag := now

/-- The command for a point a metric names. A point of the same connection is told of in the log
and gets its command as well. -/
def processElement (metric : Metric) (element : Point) : List Cmd :=
  if element.origin ≠ .command || element._id.le (.fin 0) then []
  else
    match metric.head.type with
    | none => []
    | some type =>
      let value := valueOf metric
      let metricJson := host.metricJson metric.head value
      match convert host long (toLowerCase type) value element metricJson with
      | none => []
      | some (x, valueString) => [cmdOf conn currentBroker now element x valueString metricJson]

/-- The filter of the look-up. -/
def isNamed (metric : Metric) (p : Point) : Bool :=
  metric.head.name = some p.tag && p.origin = .command

def ProcessDeviceCommand (realtimeData : List Point) (metric : Metric) : List Cmd :=
  (realtimeData.filter (isNamed metric)).flatMap
    (processElement host long conn currentBroker now metric)

/-- The commands queued for a payload; `none` is a payload without a list of metrics. -/
def onDcmd (HintMongoIsConnected : Bool) (realtimeData : List Point) :
    Option (List Metric) → List Cmd
  | none => []
  | some metrics =>
    if conn.commandsEnabled && HintMongoIsConnected then
      metrics.flatMap (ProcessDeviceCommand host long conn currentBroker now realtimeData)
    else []

end Process

end JsonScada.MqttSparkplug.DeviceCommand
