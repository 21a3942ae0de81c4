/- path: JsonScada/Cs104/Link
   source: lib60870.netcore/lib60870/CS104/Connection.cs, ClientConnection.cs
   digest: A client and a server joined by a connection, whose threads act in any order. -/

import JsonScada.Lib.Machine
import JsonScada.Cs104.ClientConnection

set_option autoImplicit false
set_option relaxedAutoImplicit false

namespace JsonScada.Cs104

/-- The parameters of the two ends. -/
structure LinkConfig where
  client : APCIParameters := {}
  server : APCIParameters := {}
  maxQueueSize : ℕ := 1000
  maxHighPrioQueueSize : ℕ := 50
  enqueueMode : EnqueueMode := .REMOVE_OLDEST

/-- The documented ranges of the parameters, and queues that hold something. -/
structure LinkConfig.Valid (cfg : LinkConfig) : Prop where
  clientK : 0 < cfg.client.K ∧ cfg.client.K < sequenceNumbers
  serverK : 0 < cfg.server.K ∧ cfg.server.K < sequenceNumbers
  clientW : 0 < cfg.client.W
  serverW : 0 < cfg.server.W
  low : 0 < cfg.maxQueueSize
  high : 0 < cfg.maxHighPrioQueueSize

/-- The octets `Encode` makes: a header both ends read, and no more than an ASDU holds. -/
def LinkConfig.Encoded (cfg : LinkConfig) (asdu : List ℕ) : Prop :=
  cfg.client.asduHeaderSize ≤ asdu.length ∧ cfg.server.asduHeaderSize ≤ asdu.length ∧
    asdu.length ≤ 249

instance (cfg : LinkConfig) (asdu : List ℕ) : Decidable (cfg.Encoded asdu) :=
  inferInstanceAs (Decidable (_ ∧ _ ∧ _))

structure Link where
  client : Connection
  server : ClientConnection
  deriving DecidableEq, Repr

/-- A new connection, with the low-priority queue the server has. -/
def Link.connect (cfg : LinkConfig) (lowPrioQueue : ASDUQueue) (now : ℕ) : Link where
  client := Connection.start cfg.client now
  server := ClientConnection.new cfg.server lowPrioQueue cfg.maxHighPrioQueueSize
    cfg.enqueueMode now

/-- The first connection, with an empty queue. -/
def Link.start (cfg : LinkConfig) (now : ℕ) : Link :=
  Link.connect cfg (ASDUQueue.new cfg.maxQueueSize cfg.enqueueMode) now

/-- What the threads of the two ends do: the drivers send, the loops take a message, test
their times and send what waits, and the client's loop ends. -/
inductive LinkAction where
  | clientSend (asdu : List ℕ) (now : ℕ)
  | clientReceive (now : ℕ)
  | clientTimeouts (now : ℕ)
  | clientSendNext (now : ℕ)
  | clientClose (now : ℕ)
  | serverEnqueue (asdu : List ℕ) (now : ℕ)
  | serverSend (asdu : List ℕ) (now : ℕ)
  | serverReceive (now : ℕ)
  | serverTimeouts (now : ℕ)
  | serverSendWaiting (now : ℕ)
  deriving DecidableEq, Repr

def LinkAction.Encoded (cfg : LinkConfig) : LinkAction → Prop
  | .clientSend asdu _ | .serverEnqueue asdu _ | .serverSend asdu _ => cfg.Encoded asdu
  | _ => True

instance (cfg : LinkConfig) (a : LinkAction) : Decidable (a.Encoded cfg) := by
  cases a <;> unfold LinkAction.Encoded <;> infer_instance

/-- An exception of a queue that is full goes to the driver and changes nothing. -/
def Link.step (cfg : LinkConfig) (l : Link) : LinkAction → Option Link
  | .clientSend asdu now =>
    (l.client.SendASDUInternal asdu now).map fun c => { l with client := c }
  | .clientReceive now =>
    match l.client.loopRunning, l.server.socketStream with
    | true, msg :: rest => some
        { client := l.client.handleMessage cfg.client now msg msg.length
          server := { l.server with socketStream := rest } }
    | _, _ => none
  | .clientTimeouts now =>
    if l.client.running then
      some { l with client := l.client.handleTimeouts cfg.client now }
    else none
  | .clientSendNext now =>
    (l.client.SendNextWaitingASDU now).map fun c => { l with client := c }
  | .clientClose now =>
    if l.client.running && !l.client.loopRunning then
      some { l with client := l.client.close now }
    else none
  | .serverEnqueue asdu now =>
    some (match l.server.lowPrioQueue.EnqueueAsdu asdu now with
      | none => l
      | some q => { l with server := { l.server with lowPrioQueue := q } })
  | .serverSend asdu now =>
    some (match l.server.SendASDUInternal asdu now with
      | none => l
      | some c => { l with server := c })
  | .serverReceive now =>
    match l.server.running, l.client.netStream with
    | true, msg :: rest => some
        { client := { l.client with netStream := rest }
          server := l.server.receive cfg.server now msg msg.length }
    | _, _ => none
  | .serverTimeouts now =>
    if l.server.running then
      some { l with server := l.server.handleTimeouts cfg.server now }
    else none
  | .serverSendWaiting now => some { l with server := l.server.ASDUReadyToSend now }

/-- The ASDU of a message in I format. -/
def information (msg : List ℕ) : Option (List ℕ) :=
  if octet msg 2 &&& 1 = 0 then some (msg.drop 6) else none

/-- The ASDUs on their way. -/
def informations (messages : List (List ℕ)) : List (List ℕ) := messages.filterMap information

/-- The ASDUs the client driver sends in a run. -/
def submitted (actions : List LinkAction) : List (List ℕ) :=
  actions.filterMap fun
    | .clientSend asdu _ => some asdu
    | _ => none

end JsonScada.Cs104
