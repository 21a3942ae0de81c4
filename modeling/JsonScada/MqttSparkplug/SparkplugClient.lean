/- path: JsonScada/MqttSparkplug/SparkplugClient
   source: src/mqtt-sparkplug/sparkplug-client.js
   digest: What an edge node publishes, with the sequence numbers drawn for it. -/

import JsonScada.MqttSparkplug.Payload

set_option autoImplicit false
set_option relaxedAutoImplicit false

namespace JsonScada.MqttSparkplug.SparkplugClient

open JsonScada.Lib.Binary64 JsonScada.MqttSparkplug.Payload

/-- What is published: of the node and of its devices, and commands to any node. -/
inductive Publication where
  | nodeBirth
  | nodeData
  | nodeCmd (group edge : String)
  | deviceData (deviceId : String)
  | deviceCmd (group edge device : String)
  | deviceBirth (deviceId : String)
  | deviceDeath (deviceId : String)
  deriving DecidableEq

/-- The identity the client is configured with. -/
structure Config where
  groupId : String
  edgeNode : String
  version : String := "spBv1.0"

def topicOf (config : Config) : Publication → String
  | .nodeBirth => config.version ++ "/" ++ config.groupId ++ "/NBIRTH/" ++ config.edgeNode
  | .nodeData => config.version ++ "/" ++ config.groupId ++ "/NDATA/" ++ config.edgeNode
  | .nodeCmd group edge => config.version ++ "/" ++ group ++ "/NCMD/" ++ edge
  | .deviceData deviceId =>
    config.version ++ "/" ++ config.groupId ++ "/DDATA/" ++ config.edgeNode ++ "/" ++ deviceId
  | .deviceCmd group edge device =>
    config.version ++ "/" ++ group ++ "/DCMD/" ++ edge ++ "/" ++ device
  | .deviceBirth deviceId =>
    config.version ++ "/" ++ config.groupId ++ "/DBIRTH/" ++ config.edgeNode ++ "/" ++ deviceId
  | .deviceDeath deviceId =>
    config.version ++ "/" ++ config.groupId ++ "/DDEATH/" ++ config.edgeNode ++ "/" ++ deviceId

structure Payload where
  metrics : Option (List Metric) := none
  seq : Option ℕ := none

structure Options where
  compress : Bool := false
  algorithm : Option String := none

/-- What the client takes from the payload package and from the JavaScript engine. -/
structure Engine where
  /-- `encodePayload` returns for a payload with these metrics, and does not throw. -/
  encodes : Option (List Metric) → Bool
  toUpperCase : String → String

inductive Packing where
  | none
  | deflate
  | gzip
  deriving DecidableEq

/-- A message on the wire; the payload is what a receiver has after unpacking. -/
structure Published where
  publication : Publication
  topic : String
  payload : Payload
  packing : Packing

/-- The variables of the client. -/
structure Session where
  seq : ℕ := 0
  bdSeq : ℤ := -1
  published : List Published := []

/-- `if (seq == 256) seq = 0; return seq++` -/
def incrementSeqNum (s : Session) : ℕ × Session :=
  let seq := if s.seq = 256 then 0 else s.seq
  (seq, { s with seq := seq + 1 })

section Publishing

variable (engine : Engine) (config : Config)

/-- The packing `maybeCompressPayload` chooses; `none` when the algorithm is unknown. -/
def packingOf (options : Options) : Option Packing :=
  if options.compress then
    let algorithm := options.algorithm.getD ""
    if algorithm = "" ∨ engine.toUpperCase algorithm = "DEFLATE" then some .deflate
    else if engine.toUpperCase algorithm = "GZIP" then some .gzip
    else none
  else some .none

/-- A death of a device is never compressed. -/
def optionsFor : Publication → Options → Options
  | .deviceDeath _, _ => {}
  | _, options => options

/-- The packing of a message that goes out; `none` when an exception ends its publication. -/
def outgoing (p : Publication) (payload : Payload) (options : Options) : Option Packing :=
  if engine.encodes payload.metrics then packingOf engine (optionsFor p options) else none

/-- The metric that a birth of the node ends with. -/
def bdSeqMetric (bdSeq : ℤ) : Metric :=
  .scalar { name := some "bdSeq", type := some "uint64" } (some (.num (.fin bdSeq)))

/-- The metrics of a message, with `bdSeq` in a birth of the node. -/
def metricsOf (p : Publication) (bdSeq : ℤ) (payload : Payload) : Option (List Metric) :=
  if p = .nodeBirth then payload.metrics.map (· ++ [bdSeqMetric bdSeq]) else payload.metrics

/-- The publish functions. The number is drawn before the message is encoded, and an
exception does not give it back. -/
def publish (p : Publication) (payload : Payload) (options : Options) (s : Session) : Session :=
  let s := if p = .nodeBirth then { s with seq := 0 } else s
  let drawn := incrementSeqNum s
  match outgoing engine p payload options with
  | none => drawn.2
  | some packing =>
    let message : Published := {
      publication := p
      topic := topicOf config p
      payload := { metrics := metricsOf p s.bdSeq payload, seq := some drawn.1 }
      packing := packing }
    { drawn.2 with published := drawn.2.published ++ [message] }

/-- What happens to a client: a connection to the broker, or a call of the application. -/
inductive Call where
  | connect
  | publish (p : Publication) (payload : Payload) (options : Options)

def handle (s : Session) : Call → Session
  | .connect => { s with bdSeq := s.bdSeq + 1 }
  | .publish p payload options => publish engine config p payload options s

def handleAll (s : Session) (calls : List Call) : Session := calls.foldl (handle engine config) s

end Publishing

end JsonScada.MqttSparkplug.SparkplugClient
