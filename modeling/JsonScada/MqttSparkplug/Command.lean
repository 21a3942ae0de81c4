/- path: JsonScada/MqttSparkplug/Command
   source: src/mqtt-sparkplug/index.js
   digest: What is sent for a queued command, as a Sparkplug command or to a plain topic. -/

import JsonScada.MqttSparkplug.Receive

set_option autoImplicit false
set_option relaxedAutoImplicit false

namespace JsonScada.MqttSparkplug.Command

open JsonScada.Lib.Binary64 JsonScada.Lib.EcmaScript
open JsonScada.Model.Documents (Date)
open JsonScada.MqttSparkplug.AutoTag (SparkplugNS splitTopic textOf)
open JsonScada.MqttSparkplug.Payload JsonScada.MqttSparkplug.Receive

/-- A document of the commands queue, as far as the payload is made of it; a
`protocolSourceASDU` that is no text is `none`. -/
structure CommandDocument where
  protocolSourceASDU : Option String
  protocolSourceObjectAddress : String
  value : Number
  valueString : Option String := none
  deriving DecidableEq

/-- `if (value > high) value = high else if (value < low) value = low` -/
def clamp (low high value : Number) : Number :=
  if Number.lt high value then high else if Number.lt value low then low else value

/-- `parseInt(v)` of a number reads its text. -/
def parseIntOf (value : Number) : Number := parseInt (numToString value)

def parseFloatOf (value : Number) : Number := parseFloat (numToString value)

def signedClamp (bits : ℕ) (value : Number) : Number :=
  clamp (.fin (-2 ^ (bits - 1))) (.fin (2 ^ (bits - 1) - 1)) value

def unsignedClamp (bits : ℕ) (value : Number) : Number :=
  clamp (.fin 0) (.fin (2 ^ bits - 1)) value

/-- `if (value < 0) value = 0` -/
def nonNegative (value : Number) : Number := if Number.lt value (.fin 0) then .fin 0 else value

/-- The value that is sent, by the type the command names in lower case. -/
def commandValue (cmd : CommandDocument) (type : String) : Option Scalar :=
  if type = "int8" then some (.num (signedClamp 8 (parseIntOf cmd.value)))
  else if type = "int16" then some (.num (signedClamp 16 (parseIntOf cmd.value)))
  else if type = "int32" then some (.num (signedClamp 32 (parseIntOf cmd.value)))
  else if type = "int" ∨ type = "int64" then some (.num (parseIntOf cmd.value))
  else if type = "uint8" then some (.num (unsignedClamp 8 (parseIntOf cmd.value)))
  else if type = "uint16" then some (.num (unsignedClamp 16 (parseIntOf cmd.value)))
  else if type = "uint32" then some (.num (unsignedClamp 32 (parseIntOf cmd.value)))
  else if type = "uint64" then some (.num (nonNegative (parseIntOf cmd.value)))
  else if type = "float" ∨ type = "double" then some (.num (parseFloatOf cmd.value))
  else if type = "boolean" then some (.bool (!Number.eqv cmd.value (.fin 0)))
  else if type = "text" ∨ type = "string" then
    -- an empty `valueString` falls back on the number
    some (.str (if cmd.valueString.getD "" = "" then String.ofList (numToString cmd.value)
      else cmd.valueString.getD ""))
  else if type = "datetime" then
    some (.num (nonNegative (parseIntOf (Number.abs cmd.value))))
  else none

/-- The types a command can have. -/
def commandTypes : List String :=
  ["int8", "int16", "int32", "int", "int64", "uint8", "uint16", "uint32", "uint64", "float",
    "double", "boolean", "text", "string", "datetime"]

theorem isSome_commandValue (cmd : CommandDocument) (type : String) :
    (commandValue cmd type).isSome ↔ type ∈ commandTypes := by
  simp only [commandValue, commandTypes, List.mem_cons, List.not_mem_nil, or_false]
  constructor
  · intro h
    by_contra hno
    simp only [not_or] at hno
    simp [hno] at h
  · rintro (rfl | rfl | rfl | rfl | rfl | rfl | rfl | rfl | rfl | rfl | rfl | rfl | rfl | rfl |
      rfl) <;> simp

/-- The metric of a Sparkplug command. -/
structure CommandMetric where
  name : String
  value : Scalar
  type : String
  timestamp : Date
  deriving DecidableEq

/-- What `getMetricCommandPayload` returns when it does not return `null`. -/
inductive CommandPayload where
  | dcmd (groupId edgeNodeId deviceId : String) (metric : CommandMetric)
  | ncmd (groupId edgeNodeId : String) (metric : CommandMetric)
  | plain (topic : String) (value : Scalar)
  deriving DecidableEq

/-- The payload for an address of the given levels. -/
def payloadAt (address : String) (metric : String → CommandMetric) (value : Scalar)
    (splTopic : List String) : Option CommandPayload :=
  if splTopic[0]? = some SparkplugNS then
    if splTopic.length = 5 then
      some (.dcmd (textOf splTopic[1]?) (textOf splTopic[2]?) (textOf splTopic[3]?)
        (metric (textOf splTopic[4]?)))
    else if splTopic.length = 4 then
      some (.ncmd (textOf splTopic[1]?) (textOf splTopic[2]?) (metric (textOf splTopic[3]?)))
    else none
  else some (.plain address value)

/-- What is sent for a command; `none` is the source's `null`. -/
def getMetricCommandPayload (now : Date) (cmd : CommandDocument) : Option CommandPayload :=
  match cmd.protocolSourceASDU with
  | none => none
  | some asdu =>
    if trim asdu.toList = [] then none else
      match commandValue cmd (toLowerCase asdu) with
      | none => none
      | some value =>
        payloadAt cmd.protocolSourceObjectAddress (fun name => ⟨name, value, toLowerCase asdu, now⟩)
          value (splitTopic cmd.protocolSourceObjectAddress)

end JsonScada.MqttSparkplug.Command
