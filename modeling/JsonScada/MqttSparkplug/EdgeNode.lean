/- path: JsonScada/MqttSparkplug/EdgeNode
   source: src/mqtt-sparkplug/sparkplug-client.js, src/mqtt-sparkplug/index.js
   digest: The clients of an edge node, the will of each, and the connections made with them. -/

import JsonScada.MqttSparkplug.SparkplugClient
import JsonScada.MqttSparkplug.AutoTag

set_option autoImplicit false
set_option relaxedAutoImplicit false

namespace JsonScada.MqttSparkplug.EdgeNode

open JsonScada.MqttSparkplug.AutoTag (SparkplugNS)
open JsonScada.MqttSparkplug.Payload JsonScada.MqttSparkplug.SparkplugClient

/-- The configuration of a client, as far as its will and its counters depend on it. -/
structure ClientConfig extends Config where
  scadaHostId : String := ""
  bdSeq : Option ℤ := none
  seq : Option ℕ := none

/-- The document of the connection, with the identity of the node. -/
structure ConnectionDocument where
  groupId : Option String := none
  edgeNodeId : Option String := none
  scadaHostId : Option String := none

/-- Neither of the counters is configured. -/
def getSparkplugConfig (connection : ConnectionDocument) : ClientConfig where
  groupId := connection.groupId.getD ""
  edgeNode := connection.edgeNodeId.getD ""
  version := SparkplugNS
  scadaHostId := connection.scadaHostId.getD ""

inductive WillPayload where
  | death (payload : Payload)
  | state (text : String)

structure Will where
  topic : String
  payload : WillPayload
  qos : ℕ
  retain : Bool

def getDeathPayload (bdSeq : ℤ) : Payload := { metrics := some [bdSeqMetric bdSeq] }

def deviceWill (config : ClientConfig) (bdSeq : ℤ) : Will where
  topic := config.version ++ "/" ++ config.groupId ++ "/NDEATH/" ++ config.edgeNode
  payload := .death (getDeathPayload bdSeq)
  qos := 0
  retain := false

def scadaWill (config : ClientConfig) : Will where
  topic := "STATE/" ++ config.scadaHostId
  payload := .state "OFFLINE"
  qos := 1
  retain := true

def willOf (config : ClientConfig) (bdSeq : ℤ) : Will :=
  if config.scadaHostId ≠ "" then scadaWill config else deviceWill config bdSeq

structure Client where
  config : ClientConfig
  session : Session
  /-- The option given to the broker at each connection. -/
  will : Will
  connected : Bool := false

/-- The constructor encodes the death certificate, whichever will it then takes. -/
def newClient (engine : Engine) (config : ClientConfig) : Option Client :=
  let session : Session := { bdSeq := config.bdSeq.getD (-1), seq := config.seq.getD 0 }
  if engine.encodes (getDeathPayload session.bdSeq).metrics then
    some { config := config, session := session, will := willOf config session.bdSeq }
  else none

/-- A connection that the broker has accepted, with what was published on it. -/
structure Connection where
  will : Will
  published : List Published := []

/-- The client that the process holds, and the connections made, the last one first. -/
structure Node where
  client : Option Client := none
  connections : List Connection := []

inductive Event where
  | newClient
  | connect
  | close
  | publish (p : Publication) (payload : Payload) (options : Options)
  | stop

/-- What has been published since goes to the connection. -/
def Connection.deliver (c : Connection) (before after : Session) : Connection :=
  { c with published := c.published ++ after.published.drop before.published.length }

@[simp] theorem Connection.deliver_will (c : Connection) (before after : Session) :
    (c.deliver before after).will = c.will := rfl

def delivered (before after : Session) : List Connection → List Connection
  | [] => []
  | c :: rest => c.deliver before after :: rest

section Steps

variable (engine : Engine) (document : ConnectionDocument)

/-- A publication made with the client of a connection that is open. -/
def publishOn (p : Publication) (payload : Payload) (options : Options) (e : Node)
    (client : Client) : Node :=
  let session := publish engine client.config.toConfig p payload options client.session
  { client := some { client with session := session }
    connections := delivered client.session session e.connections }

/-- The `connect` handler counts the connection; the will was fixed with the client. -/
def connectWith (e : Node) (client : Client) : Node where
  client := some { client with
    session := handle engine client.config.toConfig client.session .connect
    connected := true }
  connections := { will := client.will } :: e.connections

/-- A client is made where there is none, it connects again by itself until it is
stopped, and the application publishes in the handlers of an open connection. -/
def step (e : Node) : Event → Option Node
  | .newClient =>
    if e.client.isSome then none
    else (newClient engine (getSparkplugConfig document)).map fun c => { e with client := some c }
  | .connect =>
    e.client.bind fun c => if c.connected then none else some (connectWith engine e c)
  | .close =>
    e.client.map fun c => { e with client := some { c with connected := false } }
  | .publish p payload options =>
    e.client.bind fun c =>
      if c.connected then some (publishOn engine p payload options e c) else none
  | .stop => some { e with client := none }

end Steps

end JsonScada.MqttSparkplug.EdgeNode
