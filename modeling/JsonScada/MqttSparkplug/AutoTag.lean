/- path: JsonScada/MqttSparkplug/AutoTag
   source: src/mqtt-sparkplug/auto-tag.js
   digest: The documents the client creates for new metrics and topics. -/

import JsonScada.Model.AutoKeys

set_option autoImplicit false
set_option relaxedAutoImplicit false

namespace JsonScada.MqttSparkplug.AutoTag

open JsonScada.Lib.Binary64 JsonScada.Lib.EcmaScript JsonScada.Model.Documents
open JsonScada.Model.AutoKeys

/-- A queued value, as far as a new tag is made of it. -/
structure Data where
  protocolSourceObjectAddress : String
  metricType : Option String := none
  asduAtSource : Option String := none
  type : Option PointType := none
  unit : Option String := none
  ungroupedDescription : Option String := none
  group1 : Option String := none
  group2 : Option String := none
  description : Option String := none
  value : Number
  valueString : String := ""
  valueJson : Option String := none
  transient : Option Bool := none
  invalidAtSource : Option Bool := none
  timeTagAtSource : Option Date := none
  deriving DecidableEq

def SparkplugNS : String := "spBv1.0"

def AUTOTAG_PREFIX : String := "MQTT"

/-- `text.indexOf(SparkplugNS + '/') === 0` -/
def isSparkplug (text : String) : Bool := (SparkplugNS ++ "/").toList.isPrefixOf text.toList

/-- `text.replace(pat, '')`: the first occurrence goes. -/
def dropFirst (pat : List Char) : List Char → List Char
  | [] => []
  | c :: cs =>
    if pat.isPrefixOf (c :: cs) then (c :: cs).drop pat.length else c :: dropFirst pat cs

def replaceByNothing (pat text : String) : String :=
  String.ofList (dropFirst pat.toList text.toList)

/-- `text.split('/')` -/
def splitTopic (text : String) : List String := (text.toList.splitOn '/').map String.ofList

/-- `a || b` of texts that may be missing -/
def orElse (a b : Option String) : Option String := if a.getD "" = "" then b else a

/-- The text of a value that may be undefined -/
def textOf (a : Option String) : String := a.getD "undefined"

/-- The namespace is left out of the tag. -/
def tagOf (connectionNumber : ℤ) (protocolSourceObjectAddress : String) : String :=
  AUTOTAG_PREFIX ++ ":" ++ toString connectionNumber ++ ":" ++
    if isSparkplug protocolSourceObjectAddress then
      replaceByNothing (SparkplugNS ++ "/") protocolSourceObjectAddress
    else protocolSourceObjectAddress

/-- `parseInt` of a key -/
def parseKey : Number → Number
  | .fin q => .fin (if q < 0 then -⌊-q⌋ else ⌊q⌋ : ℤ)
  | x => x

/-- The last key in use, from which `NewTag` counts on. -/
def GetAutoKeyInitialValue (connectionNumber : ℤ) (realtimeData : List Point) : Number :=
  match biggestKey connectionNumber realtimeData with
  | some key =>
    if (baseKey connectionNumber).le (parseKey key) then parseKey key
    else baseKey connectionNumber
  | none => baseKey connectionNumber

def maxValue : Number := .fin (2 ^ 1024 - 2 ^ 971)

/-- `processMongoUpdates` takes the group from the topic. -/
def setGroups (data : Data) : Data :=
  let topicSplit := splitTopic data.protocolSourceObjectAddress
  { data with
    group2 := if 1 < topicSplit.length ∧ topicSplit[0]? = some SparkplugNS then topicSplit[1]?
      else topicSplit[0]? }

/-- `NewTag` with what `AutoCreateTag` sets in it. -/
def newTag (data : Data) (connectionNumber : ℤ) (AutoKeyId : Number) : Point :=
  let address := data.protocolSourceObjectAddress
  let sparkplug := isSparkplug address
  let topic := if sparkplug then splitTopic address else []
  let type := data.type.getD .analog
  let ungrouped := (orElse data.ungroupedDescription (some address)).getD ""
  let group1 := (orElse data.group1
    (some (AUTOTAG_PREFIX ++ ":" ++ toString connectionNumber))).getD ""
  let group2 := orElse data.group2 topic[1]?
  let description := (orElse data.description
    (some (group1 ++ "~" ++ textOf group2 ++ "~" ++ ungrouped))).getD ""
  { _id := AutoKeyId
    tag := tagOf connectionNumber address
    type := type
    origin := .supervised
    protocolSourceConnectionNumber := .fin connectionNumber
    protocolSourceObjectAddress := .str address
    protocolSourceCommonAddress := .str (if sparkplug then SparkplugNS else "")
    protocolSourceASDU := .str ((orElse (orElse data.metricType data.asduAtSource) none).getD "")
    protocolSourceCommandUseSBO := .bool false
    protocolSourceCommandDuration := .val (.fin 0)
    alarmState := .fin (-1)
    alarmRange := .val (.fin 0)
    description :=
      if sparkplug then
        replaceByNothing (textOf data.group2 ++ "/")
          (replaceByNothing (SparkplugNS ++ "/") description)
      else description
    ungroupedDescription := if sparkplug then topic.getLastD "" else ungrouped
    group1 := group1
    group2 := group2.getD ""
    unit := if type = .analog then (orElse data.unit (some "units")).getD "" else ""
    stateTextFalse := if type = .digital then "false" else ""
    stateTextTrue := if type = .digital then "true" else ""
    eventTextFalse := if type = .digital then "false" else ""
    eventTextTrue := if type = .digital then "true" else ""
    value := data.value
    valueString := data.valueString
    valueJson := match data.valueJson with
      | some j => .val j
      | none => .absent
    alarmDisabled := .bool false
    alarmed := false
    annotation := .str ""
    commandOfSupervised := .fin 0
    supervisedOfCommand := .fin 0
    frozen := false
    hiLimit := .val maxValue
    loLimit := .val maxValue.neg
    historianDeadBand := .val (.fin 0)
    historianPeriod := .val (.fin 0)
    hysteresis := .val (.fin 0)
    invalid := if data.invalidAtSource = some false then false else true
    isEvent := some false
    kconv1 := .fin 1
    kconv2 := .fin 0
    notes := .str ""
    overflow := false
    priority := .fin 3
    sourceDataUpdate := .none
    timeTag := .null
    timeTagAlarm := none
    timeTagAtSource := data.timeTagAtSource
    timeTagAtSourceOk := some false
    transient := data.transient = some true
    updatesCnt := .val (.fin 0)
    valueDefault := .fin 0
    zeroDeadband := .val (.fin 0) }

/-- The filter of the document of an address, for the look-up and for the update. -/
def ofAddress (connectionNumber : ℤ) (address : String) (p : Point) : Bool :=
  p.protocolSourceConnectionNumber = .fin connectionNumber &&
    p.protocolSourceObjectAddress = .str address

theorem ofAddress_newTag (data : Data) (connectionNumber : ℤ) (key : Number) :
    ofAddress connectionNumber data.protocolSourceObjectAddress
      (newTag data connectionNumber key) = true := by
  simp [ofAddress, newTag]

theorem ofAddress_inj {connectionNumber : ℤ} {a b : String} {p : Point}
    (ha : ofAddress connectionNumber a p = true) (hb : ofAddress connectionNumber b p = true) :
    a = b := by
  simp only [ofAddress, Bool.and_eq_true, decide_eq_true_eq] at ha hb
  exact JsVal.str.inj (ha.2.symm.trans hb.2)

end JsonScada.MqttSparkplug.AutoTag
