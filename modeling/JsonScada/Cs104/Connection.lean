/- path: JsonScada/Cs104/Connection
   source: lib60870.netcore/lib60870/CS104/Connection.cs
   digest: The octets of the frames, and the end of a connection that the client driver
   holds. -/

import JsonScada.Cs104.KBuffer

set_option autoImplicit false
set_option relaxedAutoImplicit false

namespace JsonScada.Cs104

def STARTDT_ACT_MSG : List ℕ := [0x68, 0x04, 0x07, 0x00, 0x00, 0x00]
def STARTDT_CON_MSG : List ℕ := [0x68, 0x04, 0x0b, 0x00, 0x00, 0x00]
def STOPDT_ACT_MSG : List ℕ := [0x68, 0x04, 0x13, 0x00, 0x00, 0x00]
def STOPDT_CON_MSG : List ℕ := [0x68, 0x04, 0x23, 0x00, 0x00, 0x00]
def TESTFR_ACT_MSG : List ℕ := [0x68, 0x04, 0x43, 0x00, 0x00, 0x00]
def TESTFR_CON_MSG : List ℕ := [0x68, 0x04, 0x83, 0x00, 0x00, 0x00]

/-- The two octets of a sequence number, after the casts to a byte. -/
def sequenceOctets (n : ℕ) : List ℕ := [n % 128 * 2 % 256, n / 128 % 256]

/-- The message of `SendIMessage`: its start, its size, `N(S)`, `N(R)` and the ASDU. -/
def iMessage (sendCount receiveCount : ℕ) (asdu : List ℕ) : List ℕ :=
  [0x68, (6 + asdu.length - 2) % 256] ++ sequenceOctets sendCount ++
    sequenceOctets receiveCount ++ asdu

/-- The message of `SendSMessage`. -/
def sMessage (receiveCount : ℕ) : List ℕ :=
  [0x68, 0x04, 0x01, 0] ++ sequenceOctets receiveCount

/-- An octet of a message. -/
def octet (buffer : List ℕ) (i : ℕ) : ℕ := buffer.getD i 0

/-- `N(S)`, and with 4 for 2 `N(R)`, of a message in I format. -/
def iSequence (buffer : List ℕ) (i : ℕ) : ℕ :=
  (octet buffer (i + 1) * 0x100 + (octet buffer i &&& 0xfe)) / 2

/-- `N(R)` of a message in S format. -/
def sSequence (buffer : List ℕ) : ℕ := (octet buffer 4 + octet buffer 5 * 0x100) / 2

theorem land_even (n : ℕ) : n % 128 * 2 % 256 &&& 0xfe = n % 128 * 2 := by
  have hall : ∀ k < 128, k * 2 % 256 &&& 0xfe = k * 2 := by decide
  exact hall (n % 128) (Nat.mod_lt _ (by decide))

theorem iSequence_send {ns nr : ℕ} (h : ns < sequenceNumbers) (asdu : List ℕ) :
    iSequence (iMessage ns nr asdu) 2 = ns := by
  unfold sequenceNumbers at h
  have hoctets : iSequence (iMessage ns nr asdu) 2 =
      (ns / 128 % 256 * 0x100 + (ns % 128 * 2 % 256 &&& 0xfe)) / 2 := rfl
  rw [hoctets, land_even]
  omega

theorem iSequence_receive {ns nr : ℕ} (h : nr < sequenceNumbers) (asdu : List ℕ) :
    iSequence (iMessage ns nr asdu) 4 = nr := by
  unfold sequenceNumbers at h
  have hoctets : iSequence (iMessage ns nr asdu) 4 =
      (nr / 128 % 256 * 0x100 + (nr % 128 * 2 % 256 &&& 0xfe)) / 2 := rfl
  rw [hoctets, land_even]
  omega

theorem sSequence_eq {nr : ℕ} (h : nr < sequenceNumbers) : sSequence (sMessage nr) = nr := by
  unfold sequenceNumbers at h
  have hoctets : sSequence (sMessage nr) =
      (nr % 128 * 2 % 256 + nr / 128 % 256 * 0x100) / 2 := rfl
  rw [hoctets]
  omega

theorem length_iMessage (ns nr : ℕ) (asdu : List ℕ) :
    (iMessage ns nr asdu).length = 6 + asdu.length := by
  simp only [iMessage, sequenceOctets, List.length_append, List.length_cons, List.length_nil]

/-- The bit that marks the I format is that of an even octet. -/
theorem octet_iMessage_even (ns nr : ℕ) (asdu : List ℕ) :
    octet (iMessage ns nr asdu) 2 &&& 1 = 0 := by
  have hoctet : octet (iMessage ns nr asdu) 2 = ns % 128 * 2 % 256 := rfl
  rw [hoctet, Nat.and_one_is_mod]
  omega

theorem drop_iMessage (ns nr : ℕ) (asdu : List ℕ) : (iMessage ns nr asdu).drop 6 = asdu := rfl

/-- The parameters of the link, with the sizes an ASDU is read by. -/
structure APCIParameters where
  K : ℕ := 12
  W : ℕ := 8
  T1 : ℕ := 15
  T2 : ℕ := 10
  T3 : ℕ := 20
  sizeOfCOT : ℕ := 2
  sizeOfCA : ℕ := 2
  deriving DecidableEq, Repr

/-- `asduHeaderSize` of the constructor of `ASDU`. -/
def APCIParameters.asduHeaderSize (p : APCIParameters) : ℕ := 2 + p.sizeOfCOT + p.sizeOfCA

inductive CS104_ConState where
  | STATE_IDLE
  | STATE_INACTIVE
  | STATE_ACTIVE
  | STATE_WAITING_FOR_STOPDT_CON
  deriving DecidableEq, Repr

/-- `netStream` is what was written and is not read at the other end, `transmitted` the
ASDUs among all that was written, and `received` the ASDUs the handler was called with. -/
structure Connection where
  running : Bool := true
  loopRunning : Bool := true
  conState : CS104_ConState := .STATE_INACTIVE
  sendSequenceNumber : ℕ := 0
  receiveSequenceNumber : ℕ := 0
  kBuffer : KBuffer Unit
  waitingToBeSent : List (List ℕ) := []
  unconfirmedReceivedIMessages : ℕ := 0
  lastConfirmationTime : ℤ := 9223372036854775807
  timeoutT2Triggered : Bool := false
  nextT3Timeout : ℕ
  uMessageTimeout : ℕ := 0
  outStandingTestFRConMessages : ℕ := 0
  netStream : List (List ℕ)
  transmitted : List (List ℕ) := []
  received : List (List ℕ) := []
  deriving DecidableEq, Repr

namespace Connection

variable (p : APCIParameters)

/-- The connection after `ResetConnection` and the start of `HandleConnection`, which asks
for the data transfer before it lets anything be sent. -/
def start (now : ℕ) : Connection where
  kBuffer := KBuffer.empty () p.K
  nextT3Timeout := now + p.T3 * 1000
  netStream := [STARTDT_ACT_MSG]

/-- `netStream.Write` -/
def write (c : Connection) (msg : List ℕ) : Connection :=
  { c with netStream := c.netStream ++ [msg] }

/-- `ResetT3Timeout` -/
def ResetT3Timeout (c : Connection) (now : ℕ) : Connection :=
  { c with nextT3Timeout := now + p.T3 * 1000 }

/-- `SendSMessage` -/
def SendSMessage (c : Connection) : Connection := c.write (sMessage c.receiveSequenceNumber)

/-- The lines that confirm the received messages, the same in three places. -/
def confirm (c : Connection) (now : ℕ) : Connection :=
  { c with
    lastConfirmationTime := now
    unconfirmedReceivedIMessages := 0
    timeoutT2Triggered := false }.SendSMessage

/-- `SendIMessage` -/
def SendIMessage (c : Connection) (asdu : List ℕ) : Connection :=
  { c.write (iMessage c.sendSequenceNumber c.receiveSequenceNumber asdu) with
    sendSequenceNumber := (c.sendSequenceNumber + 1) % 32768
    unconfirmedReceivedIMessages := 0
    timeoutT2Triggered := false
    transmitted := c.transmitted ++ [asdu] }

/-- `SendIMessageAndUpdateSentASDUs` -/
def SendIMessageAndUpdateSentASDUs (c : Connection) (asdu : List ℕ) (now : ℕ) : Connection :=
  let sent := c.SendIMessage asdu
  { sent with kBuffer := c.kBuffer.update ⟨(), now, sent.sendSequenceNumber⟩ }

/-- The loop of `SendNextWaitingASDU` over the queue. -/
def sendWaiting (now : ℕ) : List (List ℕ) → Connection → Connection
  | [], c => c
  | asdu :: rest, c =>
    if c.kBuffer.isSentBufferFull then c
    else sendWaiting now rest
      ({ c with waitingToBeSent := rest }.SendIMessageAndUpdateSentASDUs asdu now)

/-- `SendNextWaitingASDU`; none is its exception. -/
def SendNextWaitingASDU (c : Connection) (now : ℕ) : Option Connection :=
  if c.running then some (sendWaiting now c.waitingToBeSent c) else none

/-- `SendASDUInternal`, with the send queue the driver leaves on; none is its exception. -/
def SendASDUInternal (c : Connection) (asdu : List ℕ) (now : ℕ) : Option Connection :=
  if c.running then
    { c with waitingToBeSent := c.waitingToBeSent ++ [asdu] }.SendNextWaitingASDU now
  else none

/-- `CheckSequenceNumber`; none where it returns false. -/
def CheckSequenceNumber (c : Connection) (seqNo : ℕ) : Option Connection :=
  (checkSequenceNumber c.kBuffer c.sendSequenceNumber seqNo).map
    fun r => { c with kBuffer := r.1 }

/-- What a message in U format does. -/
def handleU (c : Connection) (code : ℕ) : Connection :=
  let c := { c with uMessageTimeout := 0 }
  if code = 0x43 then c.write TESTFR_CON_MSG
  else if code = 0x83 then { c with outStandingTestFRConMessages := 0 }
  else if code = 0x07 then { c.write STARTDT_CON_MSG with conState := .STATE_ACTIVE }
  else if code = 0x0b then { c with conState := .STATE_ACTIVE }
  else if code = 0x23 then { c with conState := .STATE_INACTIVE }
  else c

/-- The first message since the last confirmation starts the time T2. -/
def startT2 (c : Connection) (now : ℕ) : Connection :=
  if c.timeoutT2Triggered then c
  else { c with timeoutT2Triggered := true, lastConfirmationTime := now }

/-- The counters after a message in I format that is in sequence. -/
def countReceived (c : Connection) : Connection :=
  { c with
    receiveSequenceNumber := (c.receiveSequenceNumber + 1) % 32768
    unconfirmedReceivedIMessages := c.unconfirmedReceivedIMessages + 1 }

/-- `checkMessage`: what it returns, and the connection after it. -/
def checkMessage (c : Connection) (now : ℕ) (buffer : List ℕ) (msgSize : ℕ) :
    Bool × Connection :=
  if octet buffer 2 &&& 1 = 0 then
    let c := c.startT2 now
    if msgSize < 7 then (false, c)
    else if iSequence buffer 2 ≠ c.receiveSequenceNumber then (false, c)
    else
      match c.CheckSequenceNumber (iSequence buffer 4) with
      | none => (false, c)
      | some c =>
        let c := c.countReceived
        if msgSize - 6 < p.asduHeaderSize then (false, c)
        else
          (true, { c with received := c.received ++ [(buffer.take msgSize).drop 6] }.ResetT3Timeout
            p now)
  else if octet buffer 2 &&& 0x03 = 0x01 then
    match c.CheckSequenceNumber (sSequence buffer) with
    | none => (false, c)
    | some c => (true, c.ResetT3Timeout p now)
  else if octet buffer 2 &&& 0x03 = 0x03 then
    (true, (c.handleU (octet buffer 2)).ResetT3Timeout p now)
  else (false, c)

/-- The part of the loop of `HandleConnection` that takes a message. -/
def handleMessage (c : Connection) (now : ℕ) (buffer : List ℕ) (msgSize : ℕ) : Connection :=
  let checked := c.checkMessage p now buffer msgSize
  let c : Connection := { checked.2 with loopRunning := checked.2.loopRunning && checked.1 }
  if p.W ≤ c.unconfirmedReceivedIMessages ∨ c.conState = .STATE_WAITING_FOR_STOPDT_CON then
    c.confirm now
  else c

/-- The test of T3 in `handleTimeouts`: none where the test frames were not answered. -/
def handleT3 (c : Connection) (now : ℕ) : Option Connection :=
  if c.nextT3Timeout < now then
    if 2 < c.outStandingTestFRConMessages then none
    else
      some ({ c.write TESTFR_ACT_MSG with
        uMessageTimeout := now + p.T1 * 1000
        outStandingTestFRConMessages := c.outStandingTestFRConMessages + 1 }.ResetT3Timeout p now)
  else some c

/-- The test of T2 in `handleTimeouts`. -/
def handleT2 (c : Connection) (now : ℕ) : Connection :=
  if 0 < c.unconfirmedReceivedIMessages ∧ (p.T2 * 1000 : ℤ) ≤ now - c.lastConfirmationTime then
    c.confirm now
  else c

/-- The tests of T1 in `handleTimeouts`: a test frame, or the oldest sent message, without
an answer. -/
def expiredT1 (c : Connection) (now : ℕ) : Bool :=
  (c.uMessageTimeout != 0 && decide (c.uMessageTimeout < now)) ||
    (c.kBuffer.oldestSentASDU.bind fun oldest => c.kBuffer.sentASDUs[oldest]?).any
      fun slot => decide ((p.T1 * 1000 : ℤ) ≤ now - slot.sentTime)

/-- `handleTimeouts`, with the end of the loop where it returns false or throws. -/
def handleTimeouts (c : Connection) (now : ℕ) : Connection :=
  match c.handleT3 p now with
  | none => { c with loopRunning := false }
  | some c =>
    let c := c.handleT2 p now
    if c.expiredT1 p now then { c with loopRunning := false } else c

/-- The end of `HandleConnection`, after its loop. -/
def close (c : Connection) (now : ℕ) : Connection :=
  let c := if 0 < c.unconfirmedReceivedIMessages then c.confirm now else c
  { c with running := false, loopRunning := false }

end Connection

end JsonScada.Cs104
