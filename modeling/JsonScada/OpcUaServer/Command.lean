/- path: JsonScada/OpcUaServer/Command
   source: src/OPC-UA-Server/index.js
   digest: The write to a command variable: the answer of the setter, and `sendCommand`. -/

import JsonScada.OpcUaServer.Startup

set_option autoImplicit false
set_option relaxedAutoImplicit false

namespace JsonScada.OpcUaServer.Command

open JsonScada.Lib.Binary64 JsonScada.Lib.EcmaScript JsonScada.Lib.JsObject
open JsonScada.Model.Documents (Date)
open JsonScada.OpcUaServer.Convert JsonScada.OpcUaServer.Startup

inductive StatusCode where
  | good
  | badNotFound
  | badNotWritable
  deriving DecidableEq

section Variants

/-- The variants a client writes: a boolean, a number of any type, an integer of 64 bits that
comes as an array of its two words, and a text that may be null. -/
inductive Variant where
  | boolean (value : Bool)
  | number (value : Number)
  | words (high : ℤ) (low : ℕ)
  | string (value : Option String)
  deriving DecidableEq

/-- `new Double(doubleVal)` -/
def doubleVal : Variant → Number
  | .boolean value => if value then .fin 1 else .fin 0
  | .number value => value
  -- the number of the text "high,low"
  | .words _ _ => .nan
  | .string (some value) => parseFloat value.toList
  | .string none => .nan

/-- `variant.value.toString()`, which a null value does not have. -/
def strVal : Variant → Option String
  | .boolean value => some (if value then "true" else "false")
  | .number value => some (String.ofList (numToString value))
  | .words high low => some (toString high ++ "," ++ toString low)
  | .string value => value

end Variants

/-- A document of `commandsQueue`. -/
structure RtCommand where
  protocolSourceConnectionNumber : Number
  protocolSourceCommonAddress : Value
  protocolSourceObjectAddress : Value
  protocolSourceASDU : Asdu
  protocolSourceCommandDuration : Value
  protocolSourceCommandUseSBO : Value
  pointKey : Number
  tag : String
  value : Number
  valueString : String
  originatorUserName : String
  originatorIpAddress : String := ""
  timeTag : Date

/-- How `sendCommand` ends. -/
inductive Outcome where
  | thrown
  | undefined
  | status (code : StatusCode)
  deriving DecidableEq

structure Sent where
  outcome : Outcome
  inserted : List RtCommand := []

variable (connection : Connection) (first second : List RtData) (now : Date)

def commandOf (cmdRes : RtData) (variant : Variant) (strVal : String) : RtCommand where
  protocolSourceConnectionNumber := cmdRes.protocolSourceConnectionNumber
  protocolSourceCommonAddress := cmdRes.protocolSourceCommonAddress
  protocolSourceObjectAddress := cmdRes.protocolSourceObjectAddress
  protocolSourceASDU := cmdRes.protocolSourceASDU
  protocolSourceCommandDuration := cmdRes.protocolSourceCommandDuration
  protocolSourceCommandUseSBO := cmdRes.protocolSourceCommandUseSBO
  pointKey := cmdRes._id
  tag := cmdRes.tag
  value := doubleVal variant
  valueString := strVal
  originatorUserName := "Protocol connection: " ++
    String.ofList (numToString connection.protocolConnectionNumber) ++ " " ++ connection.name
  timeTag := now

/-- The documents are those at the look up of the command, and at the one of its supervised
point. -/
def sendCommand (tag : String) (variant : Variant) : Sent :=
  match first.find? fun doc => doc.tag = tag with
  -- `in` is asked of null
  | none => { outcome := .thrown }
  | some cmdRes =>
    if cmdRes.commandBlocked ≠ some false then { outcome := .status .badNotWritable }
    else if cmdRes.supervisedOfCommand = .fin 0 then { outcome := .undefined }
    else
      match second.find? fun doc => doc._id = cmdRes.supervisedOfCommand with
      | none => { outcome := .thrown }
      | some supRes =>
        if supRes.commandBlocked ≠ some false then { outcome := .status .badNotWritable }
        else
          match strVal variant with
          | none => { outcome := .thrown }
          | some strVal => {
            outcome := .status .badNotFound
            inserted := [commandOf connection now cmdRes variant strVal] }

structure Write where
  answer : StatusCode
  sent : Sent

/-- The setter of a command variable does not wait for what it has called. -/
def set (element : RtData) (variant : Variant) : Write where
  answer := .good
  sent := sendCommand connection first second now element.tag variant

variable {connection} {first second} {now} {tag : String} {variant : Variant} {cmdRes : RtData}

/-- What a command has to pass to be inserted. -/
structure Passes (first second : List RtData) (tag : String) (cmdRes : RtData) : Prop where
  found : first.find? (fun doc => doc.tag = tag) = some cmdRes
  free : cmdRes.commandBlocked = some false
  supervised : cmdRes.supervisedOfCommand ≠ .fin 0
  supervisedFree : ∃ supRes,
    second.find? (fun doc => doc._id = cmdRes.supervisedOfCommand) = some supRes ∧
      supRes.commandBlocked = some false

theorem inserted_of_passes (h : Passes first second tag cmdRes) {text : String}
    (htext : strVal variant = some text) :
    (sendCommand connection first second now tag variant).inserted =
      [commandOf connection now cmdRes variant text] := by
  obtain ⟨supRes, hsup, hfree⟩ := h.supervisedFree
  rw [sendCommand, h.found]
  simp only [h.free, ne_eq, not_true_eq_false, if_false, h.supervised, hsup, hfree, htext]

/-- Nothing else is inserted. -/
theorem passes_of_inserted
    (h : (sendCommand connection first second now tag variant).inserted ≠ []) :
    ∃ cmdRes text, Passes first second tag cmdRes ∧ strVal variant = some text := by
  rw [sendCommand] at h
  split at h
  · exact absurd rfl h
  · rename_i cmdRes hfound
    split_ifs at h with hblocked hnone
    · exact absurd rfl h
    · exact absurd rfl h
    · split at h
      · exact absurd rfl h
      · rename_i supRes hsup
        split_ifs at h with hsupBlocked
        · exact absurd rfl h
        · split at h
          · exact absurd rfl h
          · rename_i text htext
            exact ⟨cmdRes, text, ⟨hfound, not_not.mp hblocked, hnone, supRes, hsup,
              not_not.mp hsupBlocked⟩, htext⟩

end JsonScada.OpcUaServer.Command
