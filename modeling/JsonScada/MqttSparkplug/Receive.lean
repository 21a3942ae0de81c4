/- path: JsonScada/MqttSparkplug/Receive
   source: src/mqtt-sparkplug/index.js
   digest: Received Sparkplug messages: births, deaths, and the values they queue. -/

import JsonScada.MqttSparkplug.Payload

set_option autoImplicit false
set_option relaxedAutoImplicit false

namespace JsonScada.MqttSparkplug.Receive

open JsonScada.Lib.Binary64 JsonScada.Lib.EcmaScript JsonScada.Lib.JsObject
open JsonScada.Model.Documents (Date SourceDataUpdate)
open JsonScada.MqttSparkplug.AutoTag (splitTopic textOf)
open JsonScada.MqttSparkplug.Topic JsonScada.MqttSparkplug.Payload

/-- `SECONDS_BETWEEN_NODE_REQUESTS`, in milliseconds. -/
def waitingTime : ℤ := 300 * 1000

/-- An entry of `DevicesList`. One that a request for a birth has left has no map. -/
structure Device where
  birthed : Bool
  lastReqDateTime : Option Date := none
  mapAliasToObjectAddress : Option (Members String) := none
  deriving DecidableEq

/-- Properties a birth gives for the tag that is created. -/
structure Catalog where
  description : Scalar := .str ""
  ungroupedDescription : Scalar := .str ""
  group1 : Scalar := .str ""
  group2 : Scalar := .str ""
  group3 : Scalar := .str ""
  unit : Option Scalar := none
  deriving DecidableEq

/-- An entry of `ValuesQueue`. -/
structure QueuedValue where
  protocolSourceObjectAddress : String
  value : Scalar
  valueString : String
  valueJson : Scalar
  invalid : Bool
  causeOfTransmissionAtSource : String
  timeTagAtSource : Option Date
  timeTagAtSourceOk : Bool
  asduAtSource : String
  metricType : String
  msgType : String
  isNull : Bool
  isHistorical : Bool
  isNotForHistorical : Bool
  catalog : Option Catalog
  deriving DecidableEq

/-- A `Node Control/Rebirth` command that has been published. -/
structure Rebirth where
  groupId : String
  edgeNodeId : String
  time : Date
  deriving DecidableEq

structure Client where
  DevicesList : Members Device := []
  ValuesQueue : List QueuedValue := []
  rebirths : List Rebirth := []
  /-- Paths handed to `InvalidatePathTags`. -/
  invalidated : List String := []
  deriving DecidableEq

/-- A metric that is passed over, one that goes on, or an exception. -/
inductive Flow (α : Type) where
  | passed
  | next (a : α)
  | thrown
  deriving DecidableEq

section Values

variable (host : Host)

/-- The value of a metric in the forms that are queued. -/
structure Decoded where
  type : String := "digital"
  value : Scalar := .num (.fin 0)
  valueString : String := ""
  valueJson : Scalar := .str ""

def Decoded.json (head : Head) : Option Scalar → Flow Decoded
  | none => .next { type := "json" }
  | some .json => .next {
      type := "json"
      valueString := host.objectText head (some .json)
      valueJson := .str (host.metricJson head (some .json)) }
  | some _ => .thrown

def Decoded.boolean (head : Head) : Option Scalar → Decoded
  | none | some .null => {
      valueString := "false"
      valueJson := .bool false }
  | some v => {
      value := .num (.fin (if v = .bool false then 0 else 1))
      valueString := v.toText host
      valueJson := .str (host.metricJson head (some v)) }

def Decoded.string (head : Head) : Option Scalar → Decoded
  | none | some .null => { type := "string" }
  | some v =>
    let value := parseFloat (v.toText host).toList
    { type := "string"
      value := .num (if value = .nan then .fin 0 else value)
      valueString := v.toText host
      valueJson := .str (host.metricJson head (some v)) }

/-- Both number cases: the 64-bit types and the dates end as numbers. -/
def Decoded.analog (type : String) (head : Head) : Option Scalar → Decoded
  | none => {
      type := "analog"
      valueString := "0"
      valueJson := .str (host.metricJson head none) }
  | some .null => {
      type := "analog"
      valueString := "0"
      valueJson := .str (host.metricJson head (some .null)) }
  | some v =>
    let text := Scalar.str (host.metricJson head (some v))
    match castSparkplugValue host type v with
    | .long n => {
        type := "analog"
        value := .num (round binary64 n)
        valueString := String.ofList (numToString (round binary64 n))
        valueJson := text }
    | .date ms => {
        type := "analog"
        value := .num (ms.elim .nan fun t => .fin t)
        valueString := host.dateText ms
        valueJson := text }
    | w => {
        type := "analog"
        value := w
        valueString := w.toText host
        valueJson := text }

def stringTypes : List String := ["uuid", "text", "string"]

def analogTypes : List String :=
  ["int8", "uint8", "int16", "uint16", "int32", "uint32", "float", "double", "int64", "uint64",
    "datetime"]

def decode (type : String) (head : Head) (value : Option Scalar) : Flow Decoded :=
  if type = "template" ∨ type = "dataset" then Decoded.json host head value
  else if type = "boolean" then .next (Decoded.boolean host head value)
  else if type ∈ stringTypes then .next (Decoded.string host head value)
  else if type ∈ analogTypes then .next (Decoded.analog host type head value)
  else .next {}

theorem decode_boolean (head : Head) (value : Option Scalar) :
    decode host "boolean" head value = .next (Decoded.boolean host head value) := by
  simp [decode]

theorem decode_string (head : Head) (value : Option Scalar) :
    decode host "string" head value = .next (Decoded.string host head value) := by
  simp [decode, stringTypes]

theorem decode_double (head : Head) (value : Option Scalar) :
    decode host "double" head value = .next (Decoded.analog host "double" head value) := by
  simp [decode, stringTypes, analogTypes]

/-- `invalid`: the value's absence, overruled by the quality properties. -/
def invalidOf (head : Head) (value : Option Scalar) : Bool :=
  let absent := value = some .null || head.isNull || value.isNone
  match head.properties with
  | none => absent
  | some properties =>
    let good := match properties.get "good" with
      | some v => !Scalar.truthy (some v)
      | none => absent
    let quality := match properties.get "quality" with
      | some v => v ≠ .num (.fin 192)
      | none => good
    match properties.get "Quality" with
    | some v => v ≠ .num (.fin 192)
    | none => quality

def timestampGoodOf (head : Head) : Bool :=
  match head.properties.bind fun properties => properties.get "timestampGood" with
  | some v => !Scalar.truthy (some v)
  | none => head.timestamp.isSome

/-- `new Date(timestamp)` -/
def timestampOf (now : Date) (head : Head) : Option Date :=
  match head.timestamp with
  | some t =>
    match castSparkplugValue host "datetime" t with
    | .date ms => ms
    | _ => none
  | none => some now

def orEmpty (v : Option Scalar) : Scalar := if Scalar.truthy v then v.getD (.str "") else .str ""

def catalogOf (head : Head) : Catalog :=
  let fromMeta : Catalog := match head.metaDescription with
    | some d => { description := .str d }
    | none => {}
  match head.properties with
  | none => fromMeta
  | some properties => {
      description := (properties.get "description").getD fromMeta.description
      ungroupedDescription := orEmpty (properties.get "ungroupedDescription")
      group1 := orEmpty (properties.get "group1")
      group2 := orEmpty (properties.get "group2")
      group3 := orEmpty (properties.get "group3")
      unit := (properties.get "engUnit").map fun u =>
        if Scalar.truthy (some u) then u else .str "units" }

end Values

section Queueing

variable (host : Host) (now : Date)

def aliasKey (metricAlias : Scalar) : String := "a" ++ metricAlias.toText host

/-- The object address of a metric. A name is mapped to for its alias, an alias alone is
looked up. -/
def objectAddressOf (head : Head) (deviceLocator templateName : String) (s : Client) :
    Client × Flow String :=
  let name := head.name.getD ""
  if trim name.toList ≠ [] then
    let objectAddress :=
      if trim templateName.toList ≠ [] then
        deviceLocator ++ "/" ++ topicStr templateName ++ "/" ++ name
      else deviceLocator ++ "/" ++ topicStr name
    match head.metricAlias with
    | none => (s, .next objectAddress)
    | some metricAlias =>
      match s.DevicesList.get deviceLocator with
      | none => (s, .passed)
      | some device =>
        match device.mapAliasToObjectAddress with
        | none => (s, .thrown)
        | some map =>
          let device := { device with
            mapAliasToObjectAddress := some (map.set (aliasKey host metricAlias) objectAddress) }
          ({ s with DevicesList := s.DevicesList.set deviceLocator device }, .next objectAddress)
  else
    match head.metricAlias with
    | none => (s, .passed)
    | some metricAlias =>
      match s.DevicesList.get deviceLocator with
      | none => (s, .passed)
      | some device =>
        match device.mapAliasToObjectAddress with
        | none => (s, .thrown)
        | some map =>
          match map.get (aliasKey host metricAlias) with
          | none => (s, .passed)
          | some objectAddress =>
            (s, if objectAddress = "" then .passed else .next objectAddress)

def toLowerCase (s : String) : String := String.ofList (s.toList.map Char.toLower)

/-- The entry queued for a metric. -/
def entryOf (head : Head) (value : Option Scalar) (type : String) (isBirth : Bool)
    (msgType objectAddress : String) (d : Decoded) : QueuedValue where
  protocolSourceObjectAddress := objectAddress
  value := d.value
  valueString := d.valueString
  valueJson := d.valueJson
  invalid := invalidOf head value
  causeOfTransmissionAtSource := if isBirth then "20" else "3"
  timeTagAtSource := timestampOf host now head
  timeTagAtSourceOk := timestampGoodOf head
  asduAtSource := d.type
  metricType := type
  msgType := msgType
  isNull := value = some .null || head.isNull || value.isNone
  isHistorical := head.isHistorical
  isNotForHistorical := head.isTransient
  catalog := if isBirth then some (catalogOf head) else none

/-- What is done with a metric once its address is known; the flag tells of an exception. -/
def enqueueMetric (head : Head) (value : Option Scalar) (isBirth : Bool)
    (msgType objectAddress : String) (s : Client) : Client × Bool :=
  match head.type with
  | none => (s, true)
  | some type =>
    match decode host (toLowerCase type) head value with
    | .next d =>
      ({ s with
        ValuesQueue := s.ValuesQueue ++
          [entryOf host now head value (toLowerCase type) isBirth msgType objectAddress d] },
        false)
    | _ => (s, true)

mutual

/-- `queueMetric`; the flag tells that an exception has ended the message. -/
def queueMetric (deviceLocator : String) (isBirth : Bool) (templateName msgType : String) :
    Metric → Client → Client × Bool
  | .scalar head value, s =>
    match objectAddressOf host head deviceLocator templateName s with
    | (s, .passed) => (s, false)
    | (s, .thrown) => (s, true)
    | (s, .next objectAddress) =>
      enqueueMetric host now head value isBirth msgType objectAddress s
  | .template head metrics, s =>
    match objectAddressOf host head deviceLocator templateName s with
    | (s, .passed) => (s, false)
    | (s, .thrown) => (s, true)
    | (s, .next _) =>
      if head.type.isNone then (s, true)
      else queueMetrics deviceLocator isBirth (head.name.getD "") msgType metrics s

def queueMetrics (deviceLocator : String) (isBirth : Bool) (templateName msgType : String) :
    List Metric → Client → Client × Bool
  | [], s => (s, false)
  | m :: ms, s =>
    match queueMetric deviceLocator isBirth templateName msgType m s with
    | (s, true) => (s, true)
    | (s, false) => queueMetrics deviceLocator isBirth templateName msgType ms s

end

end Queueing

section Messages

variable (host : Host) (now : Date)

/-- A message as the handler takes it up. -/
structure Received where
  topic : String
  /-- `payload.metrics`, which a payload may lack. -/
  metrics : Option (List Metric) := none
  now : Date
  /-- `spClient.handle` is set. -/
  handle : Bool := true
  /-- `sparkplugProcess.mongoClient` is set. -/
  mongoClient : Bool := true

def birth : Device where
  birthed := true
  mapAliasToObjectAddress := some []

/-- A birth starts the entry of a node or a device afresh. -/
def processBirthOrData (locator : String) (metrics : Option (List Metric)) (isBirth : Bool)
    (msgType : String) (s : Client) : Client × Bool :=
  let s := if isBirth then { s with DevicesList := s.DevicesList.set locator birth } else s
  match metrics with
  | none => (s, true)
  | some metrics => queueMetrics host now locator isBirth "" msgType metrics s

def ProcessNodeBirthOrData := processBirthOrData

def ProcessDeviceBirthOrData := processBirthOrData

def isBirthed (s : Client) (locator : String) : Bool :=
  (s.DevicesList.get locator).any Device.birthed

/-- The node has been asked for a birth a short time ago. -/
def isWaiting (s : Client) (nodeLocator : String) : Bool :=
  ((s.DevicesList.get nodeLocator).bind Device.lastReqDateTime).any fun t =>
    now < t + waitingTime

def InvalidatePathTags (mongoClient : Bool) (topicPath : String) (s : Client) : Client :=
  if mongoClient then { s with invalidated := s.invalidated ++ [topicPath] } else s

/-- What follows data of a node or device that is not birthed. -/
def requestBirth (m : Received) (splTopic : List String) (s : Client) : Client :=
  let groupId := splTopic[1]?.getD ""
  let edgeNodeId := splTopic[3]?.getD ""
  if isWaiting m.now s (nodeLocator splTopic) then s
  else
    let s := { s with
      DevicesList := s.DevicesList.set (nodeLocator splTopic)
        { birthed := false, lastReqDateTime := some m.now } }
    if groupId = "" ∨ edgeNodeId = "" ∨ m.handle = false then s
    else { s with
      rebirths := s.rebirths ++ [{ groupId := groupId, edgeNodeId := edgeNodeId, time := m.now }] }

/-- The index keys of an array, the ones that `forEach` visits. -/
def isIndexKey (k : String) : Bool :=
  k.toList.all Char.isDigit && k.toNat?.any fun n => toString n = k && n < 2 ^ 32 - 1

def die (locator : String) (devices : Members Device) : Members Device :=
  match devices.get locator with
  | some device => devices.set locator { device with birthed := false }
  | none => devices

/-- `DevicesList.forEach` of a node death. `DevicesList` is an array, and the paths are
no indices of it. -/
def killDevices (deviceLocator : String) (devices : Members Device) : Members Device :=
  ((devices.map Prod.fst).filter isIndexKey).foldl (fun ds key =>
    if deviceLocator.toList.isPrefixOf key.toList then die key ds else ds) devices

/-- The handler of Sparkplug B messages. -/
def onMessage (m : Received) (s : Client) : Client :=
  let metrics := m.metrics.map fun ms => ms.filter fun x => x.head.type.isSome
  let splTopic := splitTopic m.topic
  let nodeLocator := nodeLocator splTopic
  let deviceLocator := deviceLocator splTopic
  match textOf splTopic[2]? with
  | "NDATA" =>
    if isBirthed s nodeLocator then
      (ProcessNodeBirthOrData host m.now nodeLocator metrics false "NDATA" s).1
    else requestBirth m splTopic s
  | "DDATA" =>
    if isBirthed s deviceLocator then
      (ProcessDeviceBirthOrData host m.now deviceLocator metrics false "DDATA" s).1
    else requestBirth m splTopic s
  | "NBIRTH" =>
    let done := ProcessNodeBirthOrData host m.now nodeLocator metrics true "NBIRTH" s
    if done.2 then done.1 else InvalidatePathTags m.mongoClient nodeLocator done.1
  | "DBIRTH" => (ProcessDeviceBirthOrData host m.now deviceLocator metrics true "DBIRTH" s).1
  | "NDEATH" =>
    InvalidatePathTags m.mongoClient nodeLocator { s with
      DevicesList := killDevices deviceLocator (die nodeLocator s.DevicesList) }
  | "DDEATH" =>
    InvalidatePathTags m.mongoClient deviceLocator { s with
      DevicesList := die deviceLocator s.DevicesList }
  | _ => s

end Messages

/-- What `processMongoUpdates` writes for a queued value. -/
def updTag (host : Host) (now : Date) (data : QueuedValue) : SourceDataUpdate where
  valueAtSource := .val (parseFloat (data.value.toText host).toList)
  valueStringAtSource := some data.valueString
  valueJsonAtSource := some (data.valueJson.toText host)
  asduAtSource := some data.asduAtSource
  causeOfTransmissionAtSource := some data.causeOfTransmissionAtSource
  timeTagAtSource := data.timeTagAtSource
  timeTagAtSourceOk := some data.timeTagAtSourceOk
  timeTag := now
  invalidAtSource := some data.invalid
  transientAtSource := some false
  notTopicalAtSource := some false
  overflowAtSource := some false
  blockedAtSource := some false
  substitutedAtSource := some false

section Births

variable (host : Host) (now : Date)

/-- What `DevicesList` tells of the births of a path. -/
def birthOf (s : Client) (locator : String) : Option (Bool × Option Date) :=
  (s.DevicesList.get locator).map fun d => (d.birthed, d.lastReqDateTime)

/-- No birth has changed and none has been requested. -/
structure SameBirths (s t : Client) : Prop where
  births : ∀ locator, birthOf t locator = birthOf s locator
  rebirths : t.rebirths = s.rebirths

theorem SameBirths.refl (s : Client) : SameBirths s s := ⟨fun _ => rfl, rfl⟩

theorem SameBirths.trans {s t u : Client} (h : SameBirths s t) (h' : SameBirths t u) :
    SameBirths s u :=
  ⟨fun k => (h'.births k).trans (h.births k), h'.rebirths.trans h.rebirths⟩

theorem isBirthed_eq_birthOf (s : Client) (locator : String) :
    isBirthed s locator = (birthOf s locator).any Prod.fst := by
  rw [isBirthed, birthOf, Option.any_map]

theorem SameBirths.isBirthed_eq {s t : Client} (h : SameBirths s t) (j : String) :
    isBirthed t j = isBirthed s j := by
  rw [isBirthed_eq_birthOf, isBirthed_eq_birthOf, h.births]

theorem sameBirths_objectAddressOf (head : Head) (locator templateName : String) (s : Client) :
    SameBirths s (objectAddressOf host head locator templateName s).1 := by
  simp only [objectAddressOf]
  split
  · split
    · exact .refl s
    · split
      · exact .refl s
      · next device hdevice =>
        split
        · exact .refl s
        · refine ⟨fun k => ?_, rfl⟩
          by_cases hk : k = locator
          · subst hk
            simp [birthOf, hdevice]
          · simp [birthOf, Members.get_set_of_ne hk]
  · split
    · exact .refl s
    · split
      · exact .refl s
      · split
        · exact .refl s
        · split <;> exact .refl s

/-- Finding the address queues nothing. -/
theorem queue_objectAddressOf (head : Head) (locator templateName : String) (s : Client) :
    (objectAddressOf host head locator templateName s).1.ValuesQueue = s.ValuesQueue := by
  simp only [objectAddressOf]
  split
  · split
    · rfl
    · split
      · rfl
      · split <;> rfl
  · split
    · rfl
    · split
      · rfl
      · split
        · rfl
        · split <;> rfl

theorem sameBirths_enqueueMetric (head : Head) (value : Option Scalar) (isBirth : Bool)
    (msgType objectAddress : String) (s : Client) :
    SameBirths s (enqueueMetric host now head value isBirth msgType objectAddress s).1 := by
  rw [enqueueMetric]
  split
  · exact .refl s
  · split
    · exact ⟨fun _ => rfl, rfl⟩
    · exact .refl s

/-- What finding an address and queueing a value each do, metrics do. -/
theorem queueMetrics_related_of {R : Client → Client → Prop} (hrefl : ∀ s, R s s)
    (htrans : ∀ {s t u}, R s t → R t u → R s u) {locator : String} {isBirth : Bool}
    {msgType : String} {ms : List Metric} (h : ∀ m ∈ ms, ∀ templateName s,
      R s (queueMetric host now locator isBirth templateName msgType m s).1)
    (templateName : String) (s : Client) :
    R s (queueMetrics host now locator isBirth templateName msgType ms s).1 := by
  induction ms generalizing s with
  | nil =>
    rw [queueMetrics]
    exact hrefl s
  | cons m ms ih =>
    have hone := h m List.mem_cons_self templateName s
    have hrest := ih fun x hx => h x (List.mem_cons_of_mem m hx)
    rw [queueMetrics]
    generalize queueMetric host now locator isBirth templateName msgType m s = r at hone
    obtain ⟨t, flag⟩ := r
    cases flag with
    | true => exact hone
    | false => exact htrans hone (hrest t)

/-- By recursion on the metric and the metrics of its template. -/
theorem queueMetric_related {R : Client → Client → Prop} (hrefl : ∀ s, R s s)
    (htrans : ∀ {s t u}, R s t → R t u → R s u)
    {locator : String} (haddress : ∀ head templateName s,
      R s (objectAddressOf host head locator templateName s).1)
    {isBirth : Bool} {msgType : String} (m : Metric) :
    (∀ head ∈ m.leaves, ∀ value address s,
      R s (enqueueMetric host now head value isBirth msgType address s).1) →
      ∀ (templateName : String) (s : Client),
        R s (queueMetric host now locator isBirth templateName msgType m s).1 := by
  refine @Metric.rec
    (fun m => (∀ head ∈ m.leaves, ∀ value address s,
      R s (enqueueMetric host now head value isBirth msgType address s).1) → ∀ templateName s,
      R s (queueMetric host now locator isBirth templateName msgType m s).1)
    (fun ms => (∀ head ∈ leavesOf ms, ∀ value address s,
      R s (enqueueMetric host now head value isBirth msgType address s).1) →
      ∀ m ∈ ms, ∀ templateName s,
        R s (queueMetric host now locator isBirth templateName msgType m s).1)
    ?_ ?_ ?_ ?_ m
  · intro head value hqueue templateName s
    have hmap := haddress head templateName s
    rw [queueMetric]
    generalize objectAddressOf host head locator templateName s = r at hmap
    obtain ⟨t, flow⟩ := r
    cases flow with
    | passed => exact hmap
    | thrown => exact hmap
    | next address =>
      exact htrans hmap (hqueue head (by simp [Metric.leaves]) value address t)
  · intro head metrics ih hqueue templateName s
    have hmap := haddress head templateName s
    rw [queueMetric]
    generalize objectAddressOf host head locator templateName s = r at hmap
    obtain ⟨t, flow⟩ := r
    cases flow with
    | passed => exact hmap
    | thrown => exact hmap
    | next address =>
      dsimp only
      split
      · exact hmap
      · rw [Metric.leaves] at hqueue
        exact htrans hmap
          (queueMetrics_related_of host now hrefl htrans (ih hqueue) (head.name.getD "") t)
  · intro _ m hm
    cases hm
  · intro m ms ihm ihms hqueue x hx
    rw [leavesOf] at hqueue
    rcases List.mem_cons.mp hx with rfl | hx
    · exact ihm fun head hhead => hqueue head (List.mem_append_left _ hhead)
    · exact ihms (fun head hhead => hqueue head (List.mem_append_right _ hhead)) x hx

theorem queueMetrics_related {R : Client → Client → Prop} (hrefl : ∀ s, R s s)
    (htrans : ∀ {s t u}, R s t → R t u → R s u)
    {locator : String} (haddress : ∀ head templateName s,
      R s (objectAddressOf host head locator templateName s).1)
    {isBirth : Bool} {msgType : String} (ms : List Metric)
    (hqueue : ∀ head ∈ leavesOf ms, ∀ value address s,
      R s (enqueueMetric host now head value isBirth msgType address s).1) (s : Client) :
    R s (queueMetrics host now locator isBirth "" msgType ms s).1 :=
  queueMetrics_related_of host now hrefl htrans
    (fun m hm => queueMetric_related host now hrefl htrans haddress m
      fun head hhead => hqueue head (mem_leavesOf.mpr ⟨m, hm, hhead⟩)) "" s

/-- Metrics change no births. -/
theorem sameBirths_queueMetrics (locator : String) (isBirth : Bool) (msgType : String)
    (ms : List Metric) (s : Client) :
    SameBirths s (queueMetrics host now locator isBirth "" msgType ms s).1 :=
  queueMetrics_related host now SameBirths.refl SameBirths.trans
    (fun head => sameBirths_objectAddressOf host head locator) ms
    (fun head _ value => sameBirths_enqueueMetric host now head value isBirth msgType) s

/-- Data change no births. -/
theorem sameBirths_data (locator : String) (metrics : Option (List Metric)) (msgType : String)
    (s : Client) :
    SameBirths s (processBirthOrData host now locator metrics false msgType s).1 := by
  cases metrics with
  | none => exact .refl s
  | some ms => exact sameBirths_queueMetrics host now locator false msgType ms s

/-- A birth is a birth even if its metrics end in an exception. -/
theorem sameBirths_birth (locator : String) (metrics : Option (List Metric)) (msgType : String)
    (s : Client) :
    SameBirths { s with DevicesList := s.DevicesList.set locator birth }
      (processBirthOrData host now locator metrics true msgType s).1 := by
  cases metrics with
  | none => exact .refl _
  | some ms => exact sameBirths_queueMetrics host now locator true msgType ms _

theorem sameBirths_invalidate (mongoClient : Bool) (topicPath : String) (s : Client) :
    SameBirths s (InvalidatePathTags mongoClient topicPath s) := by
  rw [InvalidatePathTags]
  split
  · exact ⟨fun _ => rfl, rfl⟩
  · exact .refl s

theorem killDevices_eq_self {deviceLocator : String} (h : '/' ∈ deviceLocator.toList)
    (devices : Members Device) : killDevices deviceLocator devices = devices := by
  have hkey : ∀ key, isIndexKey key = true →
      deviceLocator.toList.isPrefixOf key.toList = false := by
    intro key hkey
    rw [Bool.eq_false_iff]
    intro hprefix
    have hmem := (List.isPrefixOf_iff_prefix.mp hprefix).subset h
    rw [isIndexKey, Bool.and_eq_true, List.all_eq_true] at hkey
    exact absurd (hkey.1 '/' hmem) (by decide)
  have hfold : ∀ (keys : List String) (ds : Members Device),
      (∀ k ∈ keys, isIndexKey k = true) →
      keys.foldl (fun ds key =>
        if deviceLocator.toList.isPrefixOf key.toList then die key ds else ds) ds = ds := by
    intro keys
    induction keys with
    | nil => exact fun ds _ => rfl
    | cons k ks ih =>
      intro ds hall
      rw [List.foldl_cons, hkey k (hall k List.mem_cons_self)]
      exact ih ds fun j hj => hall j (List.mem_cons_of_mem k hj)
  exact hfold _ devices fun k hk => (List.mem_filter.mp hk).2

end Births

end JsonScada.MqttSparkplug.Receive
