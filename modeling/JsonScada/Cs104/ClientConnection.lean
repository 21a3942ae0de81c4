/- path: JsonScada/Cs104/ClientConnection
   source: lib60870.netcore/lib60870/CS104/ClientConnection.cs
   digest: The end of a connection that the server driver holds. -/

import JsonScada.Cs104.Connection
import JsonScada.Cs104.Queue

set_option autoImplicit false
set_option relaxedAutoImplicit false

namespace JsonScada.Cs104

inductive MasterConnectionState where
  | M_CON_STATE_STOPPED
  | M_CON_STATE_STARTED
  | M_CON_STATE_UNCONFIRMED_STOPPED
  deriving DecidableEq, Repr

/-- What a slot of the k-buffer keeps of the ASDU: its place in the queue it came from. -/
structure QueuePlace where
  entryTime : ℤ
  queueIndex : ℕ
  deriving DecidableEq, Repr

/-- `socketStream` is what was written and is not read at the other end, `transmitted` the
ASDUs among all that was written, and `receivedASDUs` all that was queued for the handlers. -/
structure ClientConnection where
  running : Bool := true
  isActive : Bool := false
  state : MasterConnectionState := .M_CON_STATE_STOPPED
  sendCount : ℕ := 0
  receiveCount : ℕ := 0
  kBuffer : KBuffer QueuePlace
  lowPrioQueue : ASDUQueue
  highPrioQueue : ASDUQueue
  unconfirmedReceivedIMessages : ℕ := 0
  lastConfirmationTime : ℕ := 18446744073709551615
  timeoutT2Triggered : Bool := false
  nextT3Timeout : ℕ
  waitingForTestFRcon : Bool := false
  nextTestFRConTimeout : ℕ := 0
  socketStream : List (List ℕ) := []
  transmitted : List (List ℕ) := []
  receivedASDUs : List (List ℕ) := []
  deriving DecidableEq, Repr

namespace ClientConnection

variable (p : APCIParameters)

/-- The constructor, with the low-priority queue of the redundancy group. -/
def new (lowPrioQueue : ASDUQueue) (maxHighPrioQueueSize : ℕ) (enqueueMode : EnqueueMode)
    (now : ℕ) : ClientConnection where
  kBuffer := KBuffer.empty ⟨0, 0⟩ p.K
  lowPrioQueue := lowPrioQueue
  highPrioQueue := ASDUQueue.new maxHighPrioQueueSize enqueueMode
  nextT3Timeout := now + p.T3 * 1000

/-- `socketStream.Write` -/
def write (c : ClientConnection) (msg : List ℕ) : ClientConnection :=
  { c with socketStream := c.socketStream ++ [msg] }

/-- `ResetT3Timeout` -/
def ResetT3Timeout (c : ClientConnection) (now : ℕ) : ClientConnection :=
  { c with nextT3Timeout := now + p.T3 * 1000 }

/-- `SendSMessage` -/
def SendSMessage (c : ClientConnection) : ClientConnection := c.write (sMessage c.receiveCount)

/-- The lines that confirm the received messages, the same in three places. -/
def confirm (c : ClientConnection) (now : ℕ) : ClientConnection :=
  { c with
    lastConfirmationTime := now
    unconfirmedReceivedIMessages := 0
    timeoutT2Triggered := false }.SendSMessage

/-- `SendIMessage` -/
def SendIMessage (c : ClientConnection) (asdu : List ℕ) : ClientConnection :=
  { c.write (iMessage c.sendCount c.receiveCount asdu) with
    sendCount := (c.sendCount + 1) % 32768
    unconfirmedReceivedIMessages := 0
    timeoutT2Triggered := false
    transmitted := c.transmitted ++ [asdu] }

/-- An ASDU taken from a queue is sent and put in the k-buffer. -/
def sendTaken (c : ClientConnection) (taken : List ℕ × ℤ × ℕ) (now : ℕ) : ClientConnection :=
  let sent := c.SendIMessage taken.1
  { sent with kBuffer := c.kBuffer.update ⟨⟨taken.2.1, taken.2.2⟩, now, sent.sendCount⟩ }

/-- `sendNextAvailableASDU` -/
def sendNextAvailableASDU (c : ClientConnection) (now : ℕ) : ClientConnection :=
  if c.kBuffer.isSentBufferFull then c
  else
    let next := c.lowPrioQueue.GetNextWaitingASDU
    match next.1 with
    | none => c
    | some taken => { c with lowPrioQueue := next.2 }.sendTaken taken now

/-- `sendNextHighPriorityASDU`: what it returns, and the connection after it. -/
def sendNextHighPriorityASDU (c : ClientConnection) (now : ℕ) : Bool × ClientConnection :=
  if c.kBuffer.isSentBufferFull then (false, c)
  else
    let next := c.highPrioQueue.GetNextHighPriorityWaitingASDU
    let c := { c with highPrioQueue := next.2 }
    match next.1 with
    | none => (true, c)
    | some taken => (true, c.sendTaken taken now)

/-- The loop of `SendWaitingASDUs`: whether it went through, and the connection after it.
Each round takes one ASDU, so a round for every ASDU queued is enough. -/
def sendHighPriority (now : ℕ) : ℕ → ClientConnection → Bool × ClientConnection
  | 0, c => (true, c)
  | rounds + 1, c =>
    if c.highPrioQueue.IsHighPriorityAsduAvailable then
      let next := c.sendNextHighPriorityASDU now
      if next.1 then sendHighPriority now rounds next.2 else (false, next.2)
    else (true, c)

/-- `SendWaitingASDUs` -/
def SendWaitingASDUs (c : ClientConnection) (now : ℕ) : ClientConnection :=
  let sent := sendHighPriority now c.highPrioQueue.numberOfAsduInQueue c
  if sent.1 then sent.2.sendNextAvailableASDU now else sent.2

/-- `SendASDUInternal`; none is the exception of a full queue. -/
def SendASDUInternal (c : ClientConnection) (asdu : List ℕ) (now : ℕ) :
    Option ClientConnection :=
  if c.isActive then
    (c.highPrioQueue.EnqueueAsdu asdu now).map fun q =>
      { c with highPrioQueue := q }.SendWaitingASDUs now
  else some c

/-- `ASDUReadyToSend` -/
def ASDUReadyToSend (c : ClientConnection) (now : ℕ) : ClientConnection :=
  if c.isActive then c.SendWaitingASDUs now else c

/-- `MasterConnection_hasUnconfirmedMessages` -/
def hasUnconfirmedMessages (c : ClientConnection) : Bool :=
  c.lowPrioQueue.MessageQueue_hasUnconfirmedIMessages ||
    c.highPrioQueue.MessageQueue_hasUnconfirmedIMessages

/-- `CheckSequenceNumber`, which marks the confirmed ASDUs in the low-priority queue;
none where it returns false. -/
def CheckSequenceNumber (c : ClientConnection) (seqNo : ℕ) : Option ClientConnection :=
  (checkSequenceNumber c.kBuffer c.sendCount seqNo).map fun r =>
    { c with
      kBuffer := r.1
      lowPrioQueue := r.2.foldl (fun q slot =>
        q.MarkASDUAsConfirmed slot.entry.queueIndex slot.entry.entryTime) c.lowPrioQueue }

/-- The first message since the last confirmation starts the time T2. -/
def startT2 (c : ClientConnection) (now : ℕ) : ClientConnection :=
  if c.timeoutT2Triggered then c
  else { c with timeoutT2Triggered := true, lastConfirmationTime := now }

/-- The counters after a message in I format that is in sequence. -/
def countReceived (c : ClientConnection) : ClientConnection :=
  { c with
    receiveCount := (c.receiveCount + 1) % 32768
    unconfirmedReceivedIMessages := c.unconfirmedReceivedIMessages + 1 }

/-- The I format in `HandleMessage`. -/
def handleI (c : ClientConnection) (now : ℕ) (buffer : List ℕ) (msgSize : ℕ) :
    Bool × ClientConnection :=
  if msgSize < 7 then (false, c)
  else if c.state ≠ .M_CON_STATE_STARTED then (false, c)
  else
    let c := c.startT2 now
    if iSequence buffer 2 ≠ c.receiveCount then (false, c)
    else
      match c.CheckSequenceNumber (iSequence buffer 4) with
      | none => (false, c)
      | some c =>
        let c := c.countReceived
        if c.isActive then
          if msgSize - 6 < p.asduHeaderSize then (false, c)
          else
            (true, { c with receivedASDUs := c.receivedASDUs ++ [(buffer.take msgSize).drop 6] })
        else (false, c)

/-- `STARTDT_ACT` in `HandleMessage`, with `Server.Activated`. -/
def handleStartDT (c : ClientConnection) : ClientConnection :=
  let c := if c.isActive then c else { c with isActive := true, state := .M_CON_STATE_STARTED }
  c.write STARTDT_CON_MSG

/-- `STOPDT_ACT` in `HandleMessage`, with `Server.Deactivated`. -/
def handleStopDT (c : ClientConnection) (now : ℕ) : ClientConnection :=
  let c :=
    if c.isActive then { c with isActive := false, state := .M_CON_STATE_UNCONFIRMED_STOPPED }
    else c
  let c := if 0 < c.unconfirmedReceivedIMessages then c.confirm now else c
  if c.hasUnconfirmedMessages then c
  else { c with state := .M_CON_STATE_STOPPED }.write STOPDT_CON_MSG

/-- The S format in `HandleMessage`. -/
def handleS (c : ClientConnection) (buffer : List ℕ) : Bool × ClientConnection :=
  match c.CheckSequenceNumber (sSequence buffer) with
  | none => (false, c)
  | some c =>
    match c.state with
    | .M_CON_STATE_UNCONFIRMED_STOPPED =>
      if c.hasUnconfirmedMessages then (true, c)
      else (true, { c with state := .M_CON_STATE_STOPPED }.write STOPDT_CON_MSG)
    | .M_CON_STATE_STOPPED => (false, c)
    | .M_CON_STATE_STARTED => (true, c)

/-- `HandleMessage`: what it returns, and the connection after it. -/
def HandleMessage (c : ClientConnection) (now : ℕ) (buffer : List ℕ) (msgSize : ℕ) :
    Bool × ClientConnection :=
  let after (r : Bool × ClientConnection) : Bool × ClientConnection :=
    if r.1 then (true, r.2.ResetT3Timeout p now) else r
  let code := octet buffer 2
  if msgSize < 3 then (false, c)
  else if octet buffer 0 ≠ 0x68 then (false, c)
  else if octet buffer 1 ≠ msgSize - 2 then (false, c)
  else if code &&& 1 = 0 then after (c.handleI p now buffer msgSize)
  else if code &&& 0x43 = 0x43 then after (true, c.write TESTFR_CON_MSG)
  else if code &&& 0x07 = 0x07 then after (true, c.handleStartDT)
  else if code &&& 0x13 = 0x13 then after (true, c.handleStopDT now)
  else if code &&& 0x83 = 0x83 then after (true, { c with waitingForTestFRcon := false })
  else if code = 0x01 then after (c.handleS buffer)
  else (true, c)

/-- The part of the loop of `HandleConnection` that takes a message. -/
def receive (c : ClientConnection) (now : ℕ) (buffer : List ℕ) (msgSize : ℕ) :
    ClientConnection :=
  let handled := c.HandleMessage p now buffer msgSize
  let c : ClientConnection := { handled.2 with running := handled.2.running && handled.1 }
  if p.W ≤ c.unconfirmedReceivedIMessages then c.confirm now else c

/-- `CheckT3Timeout`: an implausible value is set anew first. -/
def CheckT3Timeout (c : ClientConnection) (now : ℕ) : Bool × ClientConnection :=
  if c.waitingForTestFRcon then (false, c)
  else
    let c := if now + p.T3 * 1000 < c.nextT3Timeout then c.ResetT3Timeout p now else c
    (decide (c.nextT3Timeout < now), c)

/-- `ResetTestFRConTimeout` -/
def ResetTestFRConTimeout (c : ClientConnection) (now : ℕ) : ClientConnection :=
  { c with nextTestFRConTimeout := now + p.T1 * 1000 }

/-- `CheckTestFRConTimeout` -/
def CheckTestFRConTimeout (c : ClientConnection) (now : ℕ) : Bool × ClientConnection :=
  let c := if now + p.T1 * 1000 < c.nextTestFRConTimeout then c.ResetTestFRConTimeout p now else c
  (decide (c.nextTestFRConTimeout < now), c)

/-- The test of T3 in `handleTimeouts`. -/
def handleT3 (c : ClientConnection) (now : ℕ) : ClientConnection :=
  let t3 := c.CheckT3Timeout p now
  if t3.1 then
    ({ (t3.2.write TESTFR_ACT_MSG).ResetT3Timeout p now with
      waitingForTestFRcon := true }).ResetTestFRConTimeout p now
  else t3.2

/-- The test of T2 in `handleTimeouts`, with times of 64 bits. -/
def handleT2 (c : ClientConnection) (now : ℕ) : ClientConnection :=
  if 0 < c.unconfirmedReceivedIMessages ∧
      p.T2 * 1000 ≤ (now + 2 ^ 64 - c.lastConfirmationTime) % 2 ^ 64 then
    c.confirm now
  else c

/-- The oldest sent message is older than T1. -/
def expiredT1 (c : ClientConnection) (now : ℕ) : Bool :=
  (c.kBuffer.oldestSentASDU.bind fun oldest => c.kBuffer.sentASDUs[oldest]?).any
    fun slot => decide ((p.T1 * 1000 : ℤ) ≤ now - slot.sentTime)

/-- `handleTimeouts`, with the end of the loop where it returns false. -/
def handleTimeouts (c : ClientConnection) (now : ℕ) : ClientConnection :=
  let c := c.handleT3 p now
  let frCon := if c.waitingForTestFRcon then c.CheckTestFRConTimeout p now else (false, c)
  if frCon.1 then { frCon.2 with running := false }
  else
    let c := frCon.2.handleT2 p now
    if c.expiredT1 p now then { c with running := false } else c

/-- The end of `HandleConnection`, after its loop: what was sent and not confirmed waits
again. -/
def finish (c : ClientConnection) : ClientConnection :=
  let c := { c with isActive := false }
  if c.kBuffer.oldestSentASDU.isSome then
    { c with lowPrioQueue := c.lowPrioQueue.UnmarkAllASDUs }
  else c

end ClientConnection

end JsonScada.Cs104
