/- path: JsonScada/Cs101/Unbalanced
   source: src/lib60870.netcore/lib60870.netcore/lib60870, LinkLayer
   (PrimaryLinkLayerUnbalanced.cs, SecondaryLinkLayerUnbalanced.cs) and CS101 (CS101Master.cs,
   CS101Slave.cs)
   digest: A polling station, a polled one, and the line between them, which may lose messages. -/

import JsonScada.Cs101.LinkLayer
import JsonScada.Lib.Machine

set_option autoImplicit false
set_option relaxedAutoImplicit false

namespace JsonScada.Cs101

open JsonScada.Lib

section Primary

inductive PrimaryLinkLayerState
  | IDLE | EXECUTE_REQUEST_STATUS_OF_LINK | EXECUTE_RESET_REMOTE_LINK | LINK_LAYERS_AVAILABLE
  | EXECUTE_SERVICE_SEND_CONFIRM | EXECUTE_SERVICE_REQUEST_RESPOND | SECONDARY_LINK_LAYER_BUSY
  | TIMEOUT
deriving DecidableEq

inductive LinkLayerState
  | IDLE | ERROR | BUSY | AVAILABLE
deriving DecidableEq

structure SlaveConnection where
  address : ℕ
  primaryState : PrimaryLinkLayerState := .IDLE
  lastSendTime : ℤ := 0
  originalSendTime : ℤ := 0
  nextFcb : Bool := true
  waitingForResponse : Bool := false
  linkLayerState : LinkLayerState := .IDLE
  sendLinkLayerTestFunction : Bool := false
  dontSendMessages : Bool := false
  nextMessage : Option (List ℕ) := none
  lastSentASDU : Option (List ℕ) := none
  requestClass2Data : Bool := false
  requestClass1Data : Bool := false

namespace SlaveConnection

def IsMessageWaitingToSend (s : SlaveConnection) : Bool :=
  s.requestClass1Data || s.requestClass2Data || s.nextMessage.isSome

/-- A response that tells that the station takes no more data. -/
def congested (s : SlaveConnection) : SlaveConnection :=
  { s with
    dontSendMessages := true
    linkLayerState := .BUSY
    primaryState := match s.primaryState with
      | .EXECUTE_REQUEST_STATUS_OF_LINK | .EXECUTE_RESET_REMOTE_LINK =>
        .EXECUTE_REQUEST_STATUS_OF_LINK
      | .EXECUTE_SERVICE_SEND_CONFIRM | .SECONDARY_LINK_LAYER_BUSY => .SECONDARY_LINK_LAYER_BUSY
      | other => other }

def available (s : SlaveConnection) : SlaveConnection :=
  { s with primaryState := .LINK_LAYERS_AVAILABLE, linkLayerState := .AVAILABLE }

def illegal (s : SlaveConnection) : SlaveConnection :=
  { s with primaryState := .IDLE, linkLayerState := .ERROR }

def clearRequests (s : SlaveConnection) : SlaveConnection :=
  { s with requestClass1Data := false, requestClass2Data := false }

/-- What a response without the data flow flag does to the connection. -/
def answered (now : ℤ) (fcs : ℕ) (s : SlaveConnection) : SlaveConnection :=
  let s := { s with dontSendMessages := false }
  match fcs with
  | 0 =>
    let s := match s.primaryState with
      | .EXECUTE_RESET_REMOTE_LINK => s.available
      | .EXECUTE_SERVICE_SEND_CONFIRM => { s.available with sendLinkLayerTestFunction := false }
      | .EXECUTE_SERVICE_REQUEST_RESPOND => s.available.clearRequests
      | _ => s
    { s with waitingForResponse := false }
  | 1 =>
    let s := match s.primaryState with
      | .EXECUTE_SERVICE_SEND_CONFIRM =>
        { s with primaryState := .SECONDARY_LINK_LAYER_BUSY, linkLayerState := .BUSY }
      | _ => s
    { s with waitingForResponse := false }
  | 11 =>
    match s.primaryState with
    | .EXECUTE_REQUEST_STATUS_OF_LINK =>
      { s with
        nextFcb := true
        lastSendTime := now
        waitingForResponse := true
        primaryState := .EXECUTE_RESET_REMOTE_LINK
        linkLayerState := .BUSY }
    | _ => { s.illegal with waitingForResponse := false }
  | 8 | 9 =>
    let s := match s.primaryState with
      | .EXECUTE_SERVICE_REQUEST_RESPOND => s.available.clearRequests
      | _ => s.illegal
    { s with waitingForResponse := false }
  | 14 | 15 =>
    let s := match s.primaryState with
      | .EXECUTE_SERVICE_SEND_CONFIRM => s.available
      | _ => s
    { s with waitingForResponse := false }
  | _ => s

end SlaveConnection

/-- The polling station with one slave, as the client driver has it. -/
structure Primary where
  slave : SlaveConnection
  isCurrent : Bool := false
  /-- The messages on their way to the slave. -/
  sent : List (List ℕ) := []
  /-- The user data handed to the application so far. -/
  userData : List (List ℕ) := []

namespace Primary

variable (p : LinkLayerParameters)

def fixedFrame (s : SlaveConnection) (fc : Fin 16) (fcb fcv : Bool) : List ℕ :=
  SendFixedFrame p fc s.address true false fcb fcv

/-- `HandleMessage` of the slave connection; an access demand requests class 1 data. -/
def HandleMessage (now : ℤ) (h : Header) (s : Primary) : Primary :=
  if h.fcv then { s with slave := s.slave.congested }
  else
    let slave := s.slave.answered now h.fc
    { s with
      slave := if h.fcb then { slave with requestClass1Data := true } else slave
      sent := s.sent ++
        if h.fc = 11 ∧ s.slave.primaryState = .EXECUTE_REQUEST_STATUS_OF_LINK then
          [fixedFrame p s.slave 0 false false]
        else []
      userData := s.userData ++
        if h.fc = 8 ∧ s.slave.primaryState = .EXECUTE_SERVICE_REQUEST_RESPOND then [h.userData]
        else [] }

/-- A message that is read of the line; a single character is of the current slave. -/
def receive (now : ℤ) (msg : List ℕ) (s : Primary) : Primary :=
  match HandleMessageBalancedAndPrimaryUnbalanced p msg msg.length with
  | none => s
  | some .ack =>
    if s.isCurrent then HandleMessage p now ⟨0, false, false, s.slave.address, []⟩ s else s
  | some (.message h) => if h.address = s.slave.address then HandleMessage p now h s else s

end Primary

namespace SlaveConnection

variable (p : LinkLayerParameters)

/-- A last time that is not plausible is set to the present one. -/
def checkSendTime (now : ℤ) (s : SlaveConnection) : SlaveConnection :=
  if now < s.lastSendTime then { s with lastSendTime := now } else s

def timeout (now : ℤ) (s : SlaveConnection) : SlaveConnection :=
  { s with waitingForResponse := false, lastSendTime := now, primaryState := .TIMEOUT }

/-- A service is sent, with the frame count bit that is next. -/
def serviceSent (now : ℤ) (state : PrimaryLinkLayerState) (s : SlaveConnection) :
    SlaveConnection :=
  { s with
    nextFcb := !s.nextFcb
    lastSendTime := now
    originalSendTime := now
    waitingForResponse := true
    primaryState := state }

def userDataFrame (s : SlaveConnection) (fcb : Bool) (asdu : List ℕ) : List (List ℕ) :=
  (SendVariableLengthFramePrimary p false (3 : Fin 16) s.address fcb true asdu).toList

/-- `RunStateMachine`: the connection afterwards and the frames that are sent; none where it
throws, because there is no last message to repeat. -/
def RunStateMachine (now : ℤ) (s : SlaveConnection) : Option (SlaveConnection × List (List ℕ)) :=
  match s.primaryState with
  | .TIMEOUT =>
    let s := s.checkSendTime now
    some (if s.lastSendTime + p.timeoutLinkState < now then { s with primaryState := .IDLE } else s,
      [])
  | .IDLE =>
    some ({ s with
        originalSendTime := 0
        sendLinkLayerTestFunction := false
        lastSendTime := now
        waitingForResponse := true
        primaryState := .EXECUTE_REQUEST_STATUS_OF_LINK },
      [Primary.fixedFrame p s 9 false false])
  | .EXECUTE_REQUEST_STATUS_OF_LINK =>
    if s.waitingForResponse then
      let s := s.checkSendTime now
      some (if s.lastSendTime + p.timeoutForACK < now then s.timeout now else s, [])
    else
      some ({ s with
          lastSendTime := now
          waitingForResponse := true
          nextFcb := true
          primaryState := .EXECUTE_RESET_REMOTE_LINK },
        [Primary.fixedFrame p s 0 false false])
  | .EXECUTE_RESET_REMOTE_LINK =>
    if s.waitingForResponse then
      let s := s.checkSendTime now
      some (if s.lastSendTime + p.timeoutForACK < now then
          { s.timeout now with linkLayerState := .ERROR }
        else s, [])
    else some (s.available, [])
  | .LINK_LAYERS_AVAILABLE =>
    if s.sendLinkLayerTestFunction then
      some (s.serviceSent now .EXECUTE_SERVICE_SEND_CONFIRM,
        [Primary.fixedFrame p s 2 s.nextFcb true])
    else if s.requestClass1Data then
      some ({ s.serviceSent now .EXECUTE_SERVICE_REQUEST_RESPOND with requestClass1Data := false },
        [Primary.fixedFrame p s 10 s.nextFcb true])
    else if s.requestClass2Data then
      some ({ s.serviceSent now .EXECUTE_SERVICE_REQUEST_RESPOND with requestClass2Data := false },
        [Primary.fixedFrame p s 11 s.nextFcb true])
    else if s.dontSendMessages then some (s, [])
    else match s.nextMessage with
      | none => some (s, [])
      | some asdu =>
        -- the message stays, as the lines that would clear it are comments in the source
        some (s.serviceSent now .EXECUTE_SERVICE_SEND_CONFIRM, userDataFrame p s s.nextFcb asdu)
  | .EXECUTE_SERVICE_SEND_CONFIRM =>
    let s := s.checkSendTime now
    if s.lastSendTime + p.timeoutForACK < now then
      if s.originalSendTime + p.timeoutRepeat < now then
        some ({ s.timeout now with linkLayerState := .ERROR }, [])
      else if s.sendLinkLayerTestFunction then
        some ({ s with lastSendTime := now }, [Primary.fixedFrame p s 2 (!s.nextFcb) true])
      else s.lastSentASDU.map fun asdu =>
        ({ s with lastSendTime := now }, userDataFrame p s (!s.nextFcb) asdu)
    else some (s, [])
  | .EXECUTE_SERVICE_REQUEST_RESPOND =>
    let s := s.checkSendTime now
    if s.lastSendTime + p.timeoutForACK < now then
      if s.originalSendTime + p.timeoutRepeat < now then some (s.illegal.clearRequests, [])
      else
        some ({ s with lastSendTime := now },
          if s.requestClass1Data then [Primary.fixedFrame p s 10 (!s.nextFcb) true]
          else if s.requestClass2Data then [Primary.fixedFrame p s 11 (!s.nextFcb) true]
          else [])
    else some (s, [])
  | .SECONDARY_LINK_LAYER_BUSY => some (s, [])

end SlaveConnection

namespace Primary

variable (p : LinkLayerParameters)

def RunStateMachine (now : ℤ) (s : Primary) : Option Primary :=
  (s.slave.RunStateMachine p now).map fun (slave, frames) =>
    { s with slave, isCurrent := slave.waitingForResponse, sent := s.sent ++ frames }

def RequestClass1Data (s : Primary) : Primary :=
  { s with slave := { s.slave with requestClass1Data := true } }

/-- `PollSingleSlave`; a busy link layer changes nothing. -/
def PollSingleSlave (s : Primary) : Primary :=
  if s.slave.IsMessageWaitingToSend then s
  else { s with slave := { s.slave with requestClass2Data := true } }

/-- `SendConfirmed`; a busy link layer changes nothing. -/
def SendConfirmed (message : List ℕ) (s : Primary) : Primary :=
  if s.slave.nextMessage.isSome then s
  else { s with slave := { s.slave with nextMessage := some message } }

end Primary

end Primary

section Secondary

inductive UserDataClass
  | class1 | class2
deriving DecidableEq

/-- What a polled station is set up with. -/
structure Setup where
  parameters : LinkLayerParameters
  linkLayerAddress : ℕ
  userDataClass1QueueMaxSize : ℕ
  userDataClass2QueueMaxSize : ℕ

structure Secondary where
  expectedFcb : Bool := true
  userDataClass1Queue : List (List ℕ) := []
  userDataClass2Queue : List (List ℕ) := []
  /-- The user data handled by the application so far. -/
  handled : List (List ℕ) := []
  /-- The user data taken from the queues so far. -/
  taken : List (UserDataClass × List ℕ) := []
  /-- The messages on their way to the polling station. -/
  sent : List (List ℕ) := []

namespace Secondary

variable (cfg : Setup)

/-- Where the queue has grown above its size, its oldest entries leave. -/
def enqueue (maxSize : ℕ) (queue : List (List ℕ)) (asdu : List ℕ) : List (List ℕ) :=
  (queue ++ [asdu]).drop (queue.length + 1 - maxSize)

def EnqueueUserDataClass1 (s : Secondary) (asdu : List ℕ) : Secondary :=
  { s with
    userDataClass1Queue := enqueue cfg.userDataClass1QueueMaxSize s.userDataClass1Queue asdu }

def EnqueueUserDataClass2 (s : Secondary) (asdu : List ℕ) : Secondary :=
  { s with
    userDataClass2Queue := enqueue cfg.userDataClass2QueueMaxSize s.userDataClass2Queue asdu }

def GetClass1Data (s : Secondary) : Option (List ℕ) × Secondary :=
  match s.userDataClass1Queue with
  | [] => (none, s)
  | asdu :: rest =>
    (some asdu, { s with userDataClass1Queue := rest, taken := s.taken ++ [(.class1, asdu)] })

def GetCLass2Data (s : Secondary) : Option (List ℕ) × Secondary :=
  match s.userDataClass2Queue with
  | [] => s.GetClass1Data
  | asdu :: rest =>
    (some asdu, { s with userDataClass2Queue := rest, taken := s.taken ++ [(.class2, asdu)] })

def IsClass1DataAvailable (s : Secondary) : Bool := !s.userDataClass1Queue.isEmpty

def fixedFrame (fc : Fin 16) (acd dfc : Bool) : List ℕ :=
  SendFixedFrame cfg.parameters fc cfg.linkLayerAddress false false acd dfc

/-- The frame count bit that is expected next. -/
def CheckFCB (fcb fcv : Bool) (s : Secondary) : Secondary :=
  if fcv && fcb == s.expectedFcb then { s with expectedFcb := !s.expectedFcb } else s

def send (s : Secondary) (msg : List ℕ) : Secondary := { s with sent := s.sent ++ [msg] }

/-- The single character where it is configured and there is no access demand. -/
def acknowledge (fc : Fin 16) (demand acd : Bool) (s : Secondary) : Secondary :=
  s.send (if cfg.parameters.useSingleCharACK && !demand then SINGLE_CHAR_ACK
    else fixedFrame cfg fc acd false)

/-- The response to a request of user data, whether or not its frame count bit is expected. -/
def respond : Option (List ℕ) × Secondary → Secondary
  | (none, s) => s.acknowledge cfg 9 s.IsClass1DataAvailable s.IsClass1DataAvailable
  | (some asdu, s) =>
    { s with
      sent := s.sent ++
        (SendVariableLengthFrameSecondary cfg.parameters false false (8 : Fin 16)
          cfg.linkLayerAddress s.IsClass1DataAvailable false asdu).toList }

/-- `ResetCUReceived` clears both queues. -/
def reset (s : Secondary) : Secondary :=
  { s.acknowledge cfg 0 false false with
    expectedFcb := true, userDataClass1Queue := [], userDataClass2Queue := [] }

/-- The application handles user data, if there are any, and answers in class 1. -/
def handleData (replies : List (List ℕ)) (userData : List ℕ) (s : Secondary) : Secondary :=
  if userData = [] then s
  else replies.foldl (EnqueueUserDataClass1 cfg) { s with handled := s.handled ++ [userData] }

/-- `HandleMessage`; `replies` are what the application answers to user data. -/
def HandleMessage (replies : List (List ℕ)) (h : Header) (s : Secondary) : Secondary :=
  match h.fc with
  | 9 =>
    if h.fcv then s else s.send (fixedFrame cfg 11 s.IsClass1DataAvailable false)
  | 0 | 7 => if h.fcv || h.fcb then s else s.reset cfg
  | 11 => respond cfg (s.CheckFCB h.fcb h.fcv).GetCLass2Data
  | 10 => respond cfg (s.CheckFCB h.fcb h.fcv).GetClass1Data
  | 3 =>
    let indicateUserData := !h.fcv || h.fcb == s.expectedFcb
    let s := s.CheckFCB h.fcb h.fcv
    let s := if indicateUserData then s.handleData cfg replies h.userData else s
    s.acknowledge cfg 0 s.IsClass1DataAvailable false
  | 4 => if h.fcv then s else s.handleData cfg replies h.userData
  | _ => s.send (fixedFrame cfg 15 false false)

def receive (replies : List (List ℕ)) (msg : List ℕ) (s : Secondary) : Secondary :=
  match ParseHeaderSecondaryUnbalanced cfg.parameters cfg.linkLayerAddress msg msg.length with
  | none => s
  | some (h, _) => s.HandleMessage cfg replies h

end Secondary

end Secondary

section Line

/-- The two stations; each holds the messages that it has sent and the other has not read. -/
structure Line where
  primary : Primary
  secondary : Secondary

/-- What the stations, their applications and the line do, in any order. -/
inductive LineAction
  | primaryRun (now : ℤ)
  | primaryReceive (now : ℤ)
  | secondaryReceive (replies : List (List ℕ))
  | pollSingleSlave
  | requestClass1Data
  | sendConfirmed (message : List ℕ)
  | enqueueClass1 (asdu : List ℕ)
  | enqueueClass2 (asdu : List ℕ)
  | loseRequest (i : ℕ)
  | loseResponse (i : ℕ)

namespace Line

variable (cfg : Setup)

def start : Line where
  primary := { slave := { address := cfg.linkLayerAddress } }
  secondary := {}

def step (s : Line) : LineAction → Option Line
  | .primaryRun now =>
    (s.primary.RunStateMachine cfg.parameters now).map fun primary => { s with primary }
  | .primaryReceive now =>
    match s.secondary.sent with
    | [] => none
    | msg :: rest =>
      some { s with
        primary := s.primary.receive cfg.parameters now msg
        secondary.sent := rest }
  | .secondaryReceive replies =>
    match s.primary.sent with
    | [] => none
    | msg :: rest =>
      some { s with
        secondary := s.secondary.receive cfg replies msg
        primary.sent := rest }
  | .pollSingleSlave => some { s with primary := s.primary.PollSingleSlave }
  | .requestClass1Data => some { s with primary := s.primary.RequestClass1Data }
  | .sendConfirmed message => some { s with primary := s.primary.SendConfirmed message }
  | .enqueueClass1 asdu => some { s with secondary := s.secondary.EnqueueUserDataClass1 cfg asdu }
  | .enqueueClass2 asdu => some { s with secondary := s.secondary.EnqueueUserDataClass2 cfg asdu }
  | .loseRequest i => some { s with primary.sent := s.primary.sent.eraseIdx i }
  | .loseResponse i => some { s with secondary.sent := s.secondary.sent.eraseIdx i }

end Line

end Line



section Sent

variable {p : LinkLayerParameters}

/-- The user data that a message brings to the polling station. -/
def dataOf (p : LinkLayerParameters) (msg : List ℕ) : Option (List ℕ) :=
  match HandleMessageBalancedAndPrimaryUnbalanced p msg msg.length with
  | some (.message h) => if h.fc = 8 then some h.userData else none
  | _ => none

def inFlight (p : LinkLayerParameters) (sent : List (List ℕ)) : List (List ℕ) :=
  sent.filterMap (dataOf p)

theorem inFlight_append (sent msgs : List (List ℕ)) :
    inFlight p (sent ++ msgs) = inFlight p sent ++ inFlight p msgs := List.filterMap_append

theorem dataOf_fixed {fc : Fin 16} (hfc : fc ≠ 8) (address : ℕ) (prm dir acd dfc : Bool) :
    dataOf p (SendFixedFrame p fc address prm dir acd dfc) = none := by
  have hval : fc.val ≠ 8 := fun h => hfc (Fin.ext h)
  have hheader : (headerOf p (body p (controlField fc prm dir acd dfc) address [])).fc = fc :=
    headerOf_fc fc prm dir acd dfc []
  unfold dataOf
  rw [(laid_sent_fixed _ _ _ _ _ _).response_eq]
  split
  · rename_i h heq
    split at heq
    · obtain rfl := Response.message.inj (Option.some.inj heq)
      rw [if_neg (by rw [hheader]; exact hval)]
    · cases heq
  · rfl

theorem dataOf_userData {address : ℕ} {acd : Bool} {asdu msg : List ℕ}
    (h : SendVariableLengthFrameSecondary p false false (8 : Fin 16) address acd false asdu =
      some msg) : dataOf p msg = some asdu := by
  change variableLengthFrame p (controlField (8 : Fin 16) false false acd false) address asdu =
    some msg at h
  obtain ⟨-, hprm, -, -⟩ := controlField_bits 8 false false acd false
  have hfc : (headerOf p (body p (controlField (8 : Fin 16) false false acd false) address
      asdu)).fc = 8 := headerOf_fc 8 false false acd false asdu
  have hbit : hasBit (octet (body p (controlField (8 : Fin 16) false false acd false) address asdu)
      0) 0x40 = false := hprm
  unfold dataOf
  rw [(laid_sent_variable h).response_eq, if_pos ⟨rfl, hbit⟩]
  dsimp only
  rw [if_pos hfc, headerOf_userData]

end Sent

section Taken

variable {cfg : Setup} {s t u : Secondary} {replies later : List (List ℕ)}

def Secondary.queue (s : Secondary) : UserDataClass → List (List ℕ)
  | .class1 => s.userDataClass1Queue
  | .class2 => s.userDataClass2Queue

/-- The user data of a class that were taken from their queue, or are still in it. -/
def account (c : UserDataClass) (s : Secondary) : List (List ℕ) :=
  (s.taken.filter (·.1 = c)).map (·.2) ++ s.queue c

/-- The user data a station sends are taken from its queues, each once and in order. -/
structure Takes (cfg : Setup) (replies : List (List ℕ)) (s t : Secondary) : Prop where
  sends : ∃ took, t.taken = s.taken ++ took ∧
    (inFlight cfg.parameters t.sent).Sublist
      (inFlight cfg.parameters s.sent ++ took.map (·.2))
  class1 : (account .class1 t).Sublist (account .class1 s ++ replies)
  class2 : (account .class2 t).Sublist (account .class2 s)

theorem Takes.of_eq (htaken : t.taken = s.taken)
    (hsent : (inFlight cfg.parameters t.sent).Sublist (inFlight cfg.parameters s.sent))
    (hclass1 : t.userDataClass1Queue.Sublist (s.userDataClass1Queue ++ replies))
    (hclass2 : t.userDataClass2Queue.Sublist s.userDataClass2Queue) : Takes cfg replies s t where
  sends := ⟨[], by rw [htaken, List.append_nil], by rwa [List.map_nil, List.append_nil]⟩
  class1 := by
    rw [account, account, htaken, List.append_assoc]
    exact hclass1.append_left _
  class2 := by
    rw [account, account, htaken]
    exact hclass2.append_left _

theorem Takes.refl (s : Secondary) : Takes cfg [] s s :=
  .of_eq rfl (List.Sublist.refl _) (List.sublist_append_left _ _) (List.Sublist.refl _)

theorem Takes.trans (h : Takes cfg replies s t) (h' : Takes cfg later t u) :
    Takes cfg (replies ++ later) s u where
  sends := by
    obtain ⟨took, htook, hsent⟩ := h.sends
    obtain ⟨took', htook', hsent'⟩ := h'.sends
    refine ⟨took ++ took', by rw [htook', htook, List.append_assoc], hsent'.trans ?_⟩
    rw [List.map_append, ← List.append_assoc]
    exact hsent.append_right _
  class1 := by
    rw [← List.append_assoc]
    exact h'.class1.trans (h.class1.append_right _)
  class2 := h'.class2.trans h.class2

theorem Takes.weaken (h : Takes cfg [] s t) (replies : List (List ℕ)) :
    Takes cfg replies s t where
  sends := h.sends
  class1 := h.class1.trans ((List.nil_sublist _).append_left _)
  class2 := h.class2

/-- A message without user data is sent. -/
theorem takes_send {msg : List ℕ} (hmsg : dataOf cfg.parameters msg = none) (s : Secondary) :
    Takes cfg [] s (s.send msg) := by
  refine .of_eq rfl ?_ (List.sublist_append_left _ _) (List.Sublist.refl _)
  rw [Secondary.send, inFlight_append, inFlight, inFlight, List.filterMap_cons, hmsg]
  simp

theorem takes_fixed {fc : Fin 16} (hfc : fc ≠ 8) (acd dfc : Bool) (s : Secondary) :
    Takes cfg [] s (s.send (Secondary.fixedFrame cfg fc acd dfc)) :=
  takes_send (dataOf_fixed hfc _ _ _ _ _) s

theorem takes_acknowledge {fc : Fin 16} (hfc : fc ≠ 8) (demand acd : Bool) (s : Secondary) :
    Takes cfg [] s (s.acknowledge cfg fc demand acd) := by
  unfold Secondary.acknowledge
  split
  · exact takes_send rfl s
  · exact takes_fixed hfc _ _ s

theorem takes_checkFCB (fcb fcv : Bool) (s : Secondary) : Takes cfg [] s (s.CheckFCB fcb fcv) := by
  unfold Secondary.CheckFCB
  split
  · exact .of_eq rfl (List.Sublist.refl _) (List.sublist_append_left _ _) (List.Sublist.refl _)
  · exact .refl s

theorem takes_enqueue (asdu : List ℕ) (s : Secondary) :
    Takes cfg [asdu] s (s.EnqueueUserDataClass1 cfg asdu) :=
  .of_eq rfl (List.Sublist.refl _) (List.drop_sublist _ _) (List.Sublist.refl _)

theorem takes_handleData (userData : List ℕ) (s : Secondary) :
    Takes cfg replies s (s.handleData cfg replies userData) := by
  have hfold : ∀ (replies : List (List ℕ)) (s : Secondary),
      Takes cfg replies s (replies.foldl (Secondary.EnqueueUserDataClass1 cfg) s) := by
    intro replies
    induction replies with
    | nil => exact Takes.refl
    | cons asdu replies ih => exact fun s => (takes_enqueue asdu s).trans (ih _)
  unfold Secondary.handleData
  split
  · exact (Takes.refl s).weaken replies
  · have hhandled : Takes cfg [] s { s with handled := s.handled ++ [userData] } :=
      .of_eq rfl (List.Sublist.refl _) (List.sublist_append_left _ _) (List.Sublist.refl _)
    exact hhandled.trans (hfold replies _)

/-- What the station takes to respond with: nothing, or the oldest of a queue. -/
inductive Took (s : Secondary) : Option (List ℕ) × Secondary → Prop
  | nothing : Took s (none, s)
  | class1 {asdu : List ℕ} {rest : List (List ℕ)} (h : s.userDataClass1Queue = asdu :: rest) :
      Took s (some asdu,
        { s with userDataClass1Queue := rest, taken := s.taken ++ [(.class1, asdu)] })
  | class2 {asdu : List ℕ} {rest : List (List ℕ)} (h : s.userDataClass2Queue = asdu :: rest) :
      Took s (some asdu,
        { s with userDataClass2Queue := rest, taken := s.taken ++ [(.class2, asdu)] })

theorem took_class1 (s : Secondary) : Took s s.GetClass1Data := by
  unfold Secondary.GetClass1Data
  split
  · exact .nothing
  · exact .class1 ‹_›

theorem took_class2 (s : Secondary) : Took s s.GetCLass2Data := by
  unfold Secondary.GetCLass2Data
  split
  · exact took_class1 s
  · exact .class2 ‹_›

theorem inFlight_userData (address : ℕ) (acd : Bool) (asdu : List ℕ) (sent : List (List ℕ)) :
    (inFlight cfg.parameters (sent ++ (SendVariableLengthFrameSecondary cfg.parameters false false
      (8 : Fin 16) address acd false asdu).toList)).Sublist
        (inFlight cfg.parameters sent ++ [asdu]) := by
  rw [inFlight_append]
  refine List.Sublist.append_left ?_ _
  cases hframe : SendVariableLengthFrameSecondary cfg.parameters false false (8 : Fin 16) address
      acd false asdu with
  | none => exact List.nil_sublist _
  | some msg =>
    rw [Option.toList_some, inFlight, List.filterMap_cons, dataOf_userData hframe]
    exact List.Sublist.refl _

theorem takes_respond {r : Option (List ℕ) × Secondary} (h : Took s r) :
    Takes cfg [] s (Secondary.respond cfg r) := by
  cases h with
  | nothing => exact takes_acknowledge (by decide) _ _ s
  | class1 h =>
    refine ⟨⟨_, rfl, inFlight_userData _ _ _ _⟩, ?_, ?_⟩
    · simp [account, Secondary.respond, Secondary.queue, h]
    · simp [account, Secondary.respond, Secondary.queue]
  | class2 h =>
    refine ⟨⟨_, rfl, inFlight_userData _ _ _ _⟩, ?_, ?_⟩
    · simp [account, Secondary.respond, Secondary.queue]
    · simp [account, Secondary.respond, Secondary.queue, h]

theorem takes_reset (s : Secondary) : Takes cfg [] s (s.reset cfg) := by
  have hcleared : Takes cfg [] (s.acknowledge cfg 0 false false) (s.reset cfg) :=
    .of_eq rfl (List.Sublist.refl _) (List.nil_sublist _) (List.nil_sublist _)
  exact (takes_acknowledge (by decide) false false s).trans hcleared

/-- Whatever message a polled station handles. -/
theorem takes_handleMessage (h : Header) (s : Secondary) :
    Takes cfg replies s (s.HandleMessage cfg replies h) := by
  unfold Secondary.HandleMessage
  split
  · split
    · exact (Takes.refl s).weaken replies
    · exact (takes_fixed (by decide) _ _ s).weaken replies
  · split
    · exact (Takes.refl s).weaken replies
    · exact (takes_reset s).weaken replies
  · split
    · exact (Takes.refl s).weaken replies
    · exact (takes_reset s).weaken replies
  · exact ((takes_checkFCB _ _ s).trans (takes_respond (took_class2 _))).weaken replies
  · exact ((takes_checkFCB _ _ s).trans (takes_respond (took_class1 _))).weaken replies
  · have hack : ∀ s : Secondary,
        Takes cfg [] s (s.acknowledge cfg 0 s.IsClass1DataAvailable false) :=
      fun s => takes_acknowledge (by decide) _ _ s
    have hfcb : Takes cfg [] s (s.CheckFCB h.fcb h.fcv) := takes_checkFCB _ _ s
    dsimp only
    split
    · have hdata : Takes cfg replies (s.CheckFCB h.fcb h.fcv)
          ((s.CheckFCB h.fcb h.fcv).handleData cfg replies h.userData) := takes_handleData _ _
      have hall := (hfcb.trans hdata).trans (hack _)
      rwa [List.nil_append, List.append_nil] at hall
    · exact (hfcb.trans (hack _)).weaken replies
  · split
    · exact (Takes.refl s).weaken replies
    · exact takes_handleData _ s
  · exact (takes_fixed (by decide) _ _ s).weaken replies

end Taken

section Polled

variable {cfg : Setup} {s t : Line} {as : List LineAction}

/-- The user data that reach the application of the polling station. -/
theorem userData_receive (p : LinkLayerParameters) (now : ℤ) (msg : List ℕ) (s : Primary) :
    (s.receive p now msg).userData.Sublist (s.userData ++ (dataOf p msg).toList) := by
  have hsame : s.userData.Sublist (s.userData ++ (dataOf p msg).toList) :=
    List.sublist_append_left _ _
  have hack (h : Header) (hfc : h.fc ≠ 8) : (s.HandleMessage p now h).userData = s.userData := by
    unfold Primary.HandleMessage
    split
    · rfl
    · dsimp only
      rw [if_neg fun hand => hfc hand.1, List.append_nil]
  unfold Primary.receive
  split
  · exact hsame
  · split
    · rw [hack _ (Nat.zero_ne_add_one 7)]
      exact hsame
    · exact hsame
  · rename_i h hheader
    split
    · by_cases hfc : h.fc = 8
      · have hdata : dataOf p msg = some h.userData := by
          rw [dataOf, hheader]
          exact if_pos hfc
        unfold Primary.HandleMessage
        split
        · exact hsame
        · rw [hdata]
          refine List.Sublist.append_left ?_ _
          split
          · exact List.Sublist.refl _
          · exact List.nil_sublist _
      · rw [hack h hfc]
        exact hsame
    · exact hsame

theorem userData_run {p : LinkLayerParameters} {now : ℤ} {s t : Primary}
    (h : s.RunStateMachine p now = some t) : t.userData = s.userData := by
  unfold Primary.RunStateMachine at h
  obtain ⟨r, -, rfl⟩ := Option.map_eq_some_iff.mp h
  rfl

/-- The user data given to the queue of class 1, by the application or as an answer. -/
def offeredClass1 : List LineAction → List (List ℕ) :=
  List.flatMap fun
    | .enqueueClass1 asdu => [asdu]
    | .secondaryReceive replies => replies
    | _ => []

def offeredClass2 : List LineAction → List (List ℕ) :=
  List.flatMap fun
    | .enqueueClass2 asdu => [asdu]
    | _ => []

/-- What has arrived and what is on its way was taken, and what was taken was offered. -/
structure Polled (cfg : Setup) (as : List LineAction) (s : Line) : Prop where
  arrived : (s.primary.userData ++ inFlight cfg.parameters s.secondary.sent).Sublist
    (s.secondary.taken.map (·.2))
  class1 : (account .class1 s.secondary).Sublist (offeredClass1 as)
  class2 : (account .class2 s.secondary).Sublist (offeredClass2 as)

theorem Polled.primary {primary : Primary} (h : Polled cfg as s)
    (hdata : primary.userData = s.primary.userData) (a : LineAction) :
    Polled cfg (as ++ [a]) { s with primary } where
  arrived := by
    rw [hdata]
    exact h.arrived
  class1 := by
    rw [offeredClass1, List.flatMap_append]
    exact h.class1.trans (List.sublist_append_left _ _)
  class2 := by
    rw [offeredClass2, List.flatMap_append]
    exact h.class2.trans (List.sublist_append_left _ _)

theorem Polled.secondary {replies : List (List ℕ)} {u : Secondary} (h : Polled cfg as s)
    (ht : Takes cfg replies s.secondary u) {a : LineAction}
    (ha : offeredClass1 [a] = replies) (primary : Primary)
    (hdata : primary.userData = s.primary.userData) :
    Polled cfg (as ++ [a]) { primary, secondary := u } where
  arrived := by
    obtain ⟨took, htook, hsent⟩ := ht.sends
    rw [hdata, htook, List.map_append]
    refine (hsent.append_left _).trans ?_
    rw [← List.append_assoc]
    exact h.arrived.append_right _
  class1 := by
    rw [← ha] at ht
    rw [offeredClass1, List.flatMap_append]
    exact ht.class1.trans (h.class1.append_right _)
  class2 := by
    rw [offeredClass2, List.flatMap_append]
    exact (ht.class2.trans h.class2).trans (List.sublist_append_left _ _)

theorem polled_step {a : LineAction} (h : Polled cfg as s) (hs : s.step cfg a = some t) :
    Polled cfg (as ++ [a]) t := by
  cases a with
  | primaryRun now =>
    obtain ⟨primary, hrun, rfl⟩ := Option.map_eq_some_iff.mp hs
    exact h.primary (userData_run hrun) _
  | primaryReceive now =>
    rw [Line.step] at hs
    split at hs
    · cases hs
    · rename_i msg rest hsent
      obtain rfl := Option.some.inj hs
      refine ⟨?_, (h.primary rfl (.primaryReceive now)).class1,
        (h.primary rfl (.primaryReceive now)).class2⟩
      have harrived := h.arrived
      rw [hsent, inFlight, List.filterMap_cons] at harrived
      refine ((userData_receive cfg.parameters now msg s.primary).append_right _).trans ?_
      rw [List.append_assoc]
      cases hdata : dataOf cfg.parameters msg <;> rw [hdata] at harrived <;> exact harrived
  | secondaryReceive replies =>
    rw [Line.step] at hs
    split at hs
    · cases hs
    · rename_i msg rest hsent
      obtain rfl := Option.some.inj hs
      have ht : Takes cfg replies s.secondary (s.secondary.receive cfg replies msg) := by
        unfold Secondary.receive
        split
        · exact (Takes.refl _).weaken replies
        · exact takes_handleMessage _ _
      have ha : offeredClass1 [.secondaryReceive replies] = replies := List.append_nil replies
      exact h.secondary ht ha _ rfl
  | pollSingleSlave =>
    obtain rfl := Option.some.inj hs
    refine h.primary ?_ _
    unfold Primary.PollSingleSlave
    split <;> rfl
  | requestClass1Data =>
    obtain rfl := Option.some.inj hs
    refine h.primary ?_ _
    rfl
  | sendConfirmed message =>
    obtain rfl := Option.some.inj hs
    refine h.primary ?_ _
    unfold Primary.SendConfirmed
    split <;> rfl
  | enqueueClass1 asdu =>
    obtain rfl := Option.some.inj hs
    exact h.secondary (takes_enqueue asdu s.secondary) rfl s.primary rfl
  | enqueueClass2 asdu =>
    obtain rfl := Option.some.inj hs
    refine ⟨h.arrived, ?_, ?_⟩
    · exact (h.primary rfl (.enqueueClass2 asdu)).class1
    · rw [offeredClass2, List.flatMap_append]
      have hqueue : (account .class2 (s.secondary.EnqueueUserDataClass2 cfg asdu)).Sublist
          (account .class2 s.secondary ++ [asdu]) := by
        rw [account, account, List.append_assoc]
        exact (List.drop_sublist _ _).append_left _
      exact hqueue.trans (h.class2.append_right _)
  | loseRequest i =>
    obtain rfl := Option.some.inj hs
    refine h.primary ?_ _
    rfl
  | loseResponse i =>
    obtain rfl := Option.some.inj hs
    have ht : Takes cfg [] s.secondary
        { s.secondary with sent := s.secondary.sent.eraseIdx i } :=
      .of_eq rfl ((List.eraseIdx_sublist _ i).filterMap _) (List.sublist_append_left _ _)
        (List.Sublist.refl _)
    exact h.secondary ht rfl s.primary rfl

theorem polled_start : Polled cfg [] (Line.start cfg) :=
  ⟨List.Sublist.refl _, List.Sublist.refl _, List.Sublist.refl _⟩

/-- On a line that may lose any message, in every run, the user data that reach the polling
station were taken from the queues of the polled one, each at most once and in the order in which
they were taken; and those of a class were taken in the order in which they were offered. -/
theorem data_at_most_once (hr : Machine.run (Line.step cfg) (Line.start cfg) as = some t) :
    t.primary.userData.Sublist (t.secondary.taken.map (·.2)) ∧
      ((t.secondary.taken.filter (·.1 = .class1)).map (·.2)).Sublist (offeredClass1 as) ∧
      ((t.secondary.taken.filter (·.1 = .class2)).map (·.2)).Sublist (offeredClass2 as) := by
  have hall : Machine.Every (Line.step cfg) (fun _ _ => True) (Line.start cfg) as :=
    Machine.every_of_forall_mem fun _ _ => trivial
  have h : Polled cfg as t := Machine.run_trace_invariant
    (fun _ _ _ _ _ hi hs => polled_step hi hs) hall polled_start hr
  exact ⟨(List.sublist_append_left _ _).trans h.arrived,
    (List.sublist_append_left _ _).trans h.class1,
    (List.sublist_append_left _ _).trans h.class2⟩

def sampleSetup : Setup where
  parameters := sampleParameters
  linkLayerAddress := 1
  userDataClass1QueueMaxSize := 100
  userDataClass2QueueMaxSize := 100

/-- The link becomes available. -/
def opening : List LineAction :=
  [.primaryRun 1, .secondaryReceive [], .primaryReceive 2, .secondaryReceive [],
    .primaryReceive 3]

/-- A measured value is polled, and the next one is lost on the line. -/
def polling : List LineAction :=
  opening ++ [.enqueueClass2 [9, 1, 3], .enqueueClass2 [9, 1, 1], .pollSingleSlave, .primaryRun 4,
    .secondaryReceive [], .primaryReceive 5, .pollSingleSlave, .primaryRun 6,
    .secondaryReceive [], .loseResponse 0]

theorem measured_value_polled :
    ∃ t, Machine.run (Line.step sampleSetup) (Line.start sampleSetup) polling = some t ∧
      t.primary.userData.Sublist (t.secondary.taken.map (·.2)) ∧
      ((t.secondary.taken.filter (·.1 = .class1)).map (·.2)).Sublist [] ∧
      ((t.secondary.taken.filter (·.1 = .class2)).map (·.2)).Sublist [[9, 1, 3], [9, 1, 1]] := by
  have hends : ∃ t, Machine.run (Line.step sampleSetup) (Line.start sampleSetup) polling =
      some t := by
    rw [← Option.isSome_iff_exists]
    decide +kernel
  obtain ⟨t, ht⟩ := hends
  exact ⟨t, ht, data_at_most_once ht⟩

end Polled

section Confirmed

variable {cfg : Setup} {p : LinkLayerParameters} {s t : Line} {as : List LineAction}

/-- A frame the polling station sends: one without user data, class 2 requested only if it is to
be, or one with the message that is next or was last. -/
inductive Frame (p : LinkLayerParameters) (s : SlaveConnection) : List ℕ → Prop
  | fixed (fc : Fin 16) (address : ℕ) (fcb fcv : Bool)
      (h : fc ≠ 11 ∨ s.requestClass2Data = true) :
      Frame p s (SendFixedFrame p fc address true false fcb fcv)
  | userData {address : ℕ} {fcb : Bool} {asdu msg : List ℕ}
      (h : s.nextMessage = some asdu ∨ s.lastSentASDU = some asdu)
      (hmsg : SendVariableLengthFramePrimary p false (3 : Fin 16) address fcb true asdu =
        some msg) : Frame p s msg

/-- What `RunStateMachine` leaves as it is, and what it sends. -/
structure Runs (p : LinkLayerParameters) (s t : SlaveConnection) (frames : List (List ℕ)) :
    Prop where
  nextMessage : t.nextMessage = s.nextMessage
  lastSentASDU : t.lastSentASDU = s.lastSentASDU
  requestClass2Data : t.requestClass2Data = true → s.requestClass2Data = true
  frames : ∀ f ∈ frames, Frame p s f

theorem Runs.of_nil {s t : SlaveConnection} (hnext : t.nextMessage = s.nextMessage)
    (hlast : t.lastSentASDU = s.lastSentASDU)
    (hclass2 : t.requestClass2Data = true → s.requestClass2Data = true) : Runs p s t [] :=
  ⟨hnext, hlast, hclass2, fun _ hf => absurd hf List.not_mem_nil⟩

theorem Runs.of_fixed {s t : SlaveConnection} {fc : Fin 16} {address : ℕ} {fcb fcv : Bool}
    (hfc : fc ≠ 11 ∨ s.requestClass2Data = true) (hnext : t.nextMessage = s.nextMessage)
    (hlast : t.lastSentASDU = s.lastSentASDU)
    (hclass2 : t.requestClass2Data = true → s.requestClass2Data = true) :
    Runs p s t [SendFixedFrame p fc address true false fcb fcv] := by
  refine ⟨hnext, hlast, hclass2, fun f hf => ?_⟩
  rw [List.mem_singleton.mp hf]
  exact .fixed fc address fcb fcv hfc

theorem Runs.of_userData {s t : SlaveConnection} {address : ℕ} {fcb : Bool} {asdu : List ℕ}
    (h : s.nextMessage = some asdu ∨ s.lastSentASDU = some asdu)
    (hnext : t.nextMessage = s.nextMessage) (hlast : t.lastSentASDU = s.lastSentASDU)
    (hclass2 : t.requestClass2Data = true → s.requestClass2Data = true) :
    Runs p s t
      (SendVariableLengthFramePrimary p false (3 : Fin 16) address fcb true asdu).toList :=
  ⟨hnext, hlast, hclass2, fun _ hf => .userData h (Option.mem_toList.mp hf)⟩

namespace SlaveConnection

variable (now : ℤ) (s : SlaveConnection)

@[simp] theorem checkSendTime_nextMessage : (s.checkSendTime now).nextMessage = s.nextMessage := by
  unfold checkSendTime
  split <;> rfl

@[simp] theorem checkSendTime_lastSentASDU : (s.checkSendTime now).lastSentASDU = s.lastSentASDU := by
  unfold checkSendTime
  split <;> rfl

@[simp] theorem checkSendTime_requestClass2Data :
    (s.checkSendTime now).requestClass2Data = s.requestClass2Data := by
  unfold checkSendTime
  split <;> rfl

end SlaveConnection

/-- The state machine keeps the message that is next, whatever it does. -/
theorem runs_of_eq {now : ℤ} {s t : SlaveConnection} {frames : List (List ℕ)}
    (h : s.RunStateMachine p now = some (t, frames)) : Runs p s t frames := by
  unfold SlaveConnection.RunStateMachine at h
  split at h
  · obtain ⟨rfl, rfl⟩ := Prod.mk.inj (Option.some.inj h)
    refine .of_nil ?_ ?_ ?_ <;> split <;> simp
  · obtain ⟨rfl, rfl⟩ := Prod.mk.inj (Option.some.inj h)
    exact .of_fixed (.inl (by decide)) rfl rfl id
  · split at h
    · obtain ⟨rfl, rfl⟩ := Prod.mk.inj (Option.some.inj h)
      refine .of_nil ?_ ?_ ?_ <;> split <;> simp [SlaveConnection.timeout]
    · obtain ⟨rfl, rfl⟩ := Prod.mk.inj (Option.some.inj h)
      exact .of_fixed (.inl (by decide)) rfl rfl id
  · split at h
    · obtain ⟨rfl, rfl⟩ := Prod.mk.inj (Option.some.inj h)
      refine .of_nil ?_ ?_ ?_ <;> split <;> simp [SlaveConnection.timeout]
    · obtain ⟨rfl, rfl⟩ := Prod.mk.inj (Option.some.inj h)
      exact .of_nil rfl rfl id
  · split at h
    · obtain ⟨rfl, rfl⟩ := Prod.mk.inj (Option.some.inj h)
      exact .of_fixed (.inl (by decide)) rfl rfl id
    · split at h
      · obtain ⟨rfl, rfl⟩ := Prod.mk.inj (Option.some.inj h)
        exact .of_fixed (.inl (by decide)) rfl rfl id
      · split at h
        · rename_i hclass2
          obtain ⟨rfl, rfl⟩ := Prod.mk.inj (Option.some.inj h)
          exact .of_fixed (.inr hclass2) rfl rfl fun _ => hclass2
        · split at h
          · obtain ⟨rfl, rfl⟩ := Prod.mk.inj (Option.some.inj h)
            exact .of_nil rfl rfl id
          · split at h
            · obtain ⟨rfl, rfl⟩ := Prod.mk.inj (Option.some.inj h)
              exact .of_nil rfl rfl id
            · rename_i hnext
              obtain ⟨rfl, rfl⟩ := Prod.mk.inj (Option.some.inj h)
              exact .of_userData (.inl hnext) rfl rfl id
  · dsimp only at h
    split at h
    · split at h
      · obtain ⟨rfl, rfl⟩ := Prod.mk.inj (Option.some.inj h)
        refine .of_nil ?_ ?_ ?_ <;> simp [SlaveConnection.timeout]
      · split at h
        · obtain ⟨rfl, rfl⟩ := Prod.mk.inj (Option.some.inj h)
          refine .of_fixed (.inl (by decide)) ?_ ?_ ?_ <;> simp
        · obtain ⟨asdu, hasdu, h⟩ := Option.map_eq_some_iff.mp h
          obtain ⟨rfl, rfl⟩ := Prod.mk.inj h
          rw [SlaveConnection.checkSendTime_lastSentASDU] at hasdu
          refine .of_userData (.inr hasdu) ?_ ?_ ?_ <;> simp
    · obtain ⟨rfl, rfl⟩ := Prod.mk.inj (Option.some.inj h)
      refine .of_nil ?_ ?_ ?_ <;> simp
  · dsimp only at h
    split at h
    · split at h
      · obtain ⟨rfl, rfl⟩ := Prod.mk.inj (Option.some.inj h)
        refine .of_nil ?_ ?_ ?_ <;>
          simp [SlaveConnection.illegal, SlaveConnection.clearRequests]
      · obtain ⟨rfl, rfl⟩ := Prod.mk.inj (Option.some.inj h)
        split
        · refine .of_fixed (.inl (by decide)) ?_ ?_ ?_ <;> simp
        · split
          · rename_i hclass2
            rw [SlaveConnection.checkSendTime_requestClass2Data] at hclass2
            refine .of_fixed (.inr hclass2) ?_ ?_ ?_ <;> simp
          · refine .of_nil ?_ ?_ ?_ <;> simp
    · obtain ⟨rfl, rfl⟩ := Prod.mk.inj (Option.some.inj h)
      refine .of_nil ?_ ?_ ?_ <;> simp
  · obtain ⟨rfl, rfl⟩ := Prod.mk.inj (Option.some.inj h)
    exact .of_nil rfl rfl id

end Confirmed

section Kept

variable {cfg : Setup} {s t : Line} {as : List LineAction}

/-- The message that is next stays, and class 2 is requested no more than before. -/
structure Keeps (s t : SlaveConnection) : Prop where
  nextMessage : t.nextMessage = s.nextMessage
  lastSentASDU : t.lastSentASDU = s.lastSentASDU
  requestClass2Data : t.requestClass2Data = true → s.requestClass2Data = true

namespace Keeps

theorem refl (s : SlaveConnection) : Keeps s s := ⟨rfl, rfl, id⟩

theorem trans {s t u : SlaveConnection} (h : Keeps s t) (h' : Keeps t u) : Keeps s u :=
  ⟨h'.nextMessage.trans h.nextMessage, h'.lastSentASDU.trans h.lastSentASDU,
    fun hu => h.requestClass2Data (h'.requestClass2Data hu)⟩

end Keeps

theorem keeps_answered (now : ℤ) (fcs : ℕ) (s : SlaveConnection) :
    Keeps s (s.answered now fcs) := by
  unfold SlaveConnection.answered
  dsimp only
  split <;> (try split) <;> constructor <;>
    simp [SlaveConnection.available, SlaveConnection.illegal, SlaveConnection.clearRequests]

/-- A frame of the polling station tells the other one its user data: nothing, or the message
that is next or was last. -/
theorem userData_of_frame {f : List ℕ} {s : SlaveConnection} {h : Header} {b : Bool}
    (hf : Frame cfg.parameters s f)
    (hheard : ParseHeaderSecondaryUnbalanced cfg.parameters cfg.linkLayerAddress f f.length =
      some (h, b)) :
    (h.userData = [] ∨ s.nextMessage = some h.userData ∨ s.lastSentASDU = some h.userData) ∧
      (h.fc = 11 → s.requestClass2Data = true) := by
  have hheader {octets : List ℕ} (hsome : heard cfg.parameters cfg.linkLayerAddress octets =
      some (h, b)) : h = headerOf cfg.parameters octets := by
    simp only [heard, Option.ite_none_left_eq_some, Option.ite_none_right_eq_some,
      Option.some.injEq, Prod.mk.injEq] at hsome
    exact hsome.2.2.1.symm
  cases hf with
  | fixed fc address fcb fcv hfc =>
    rw [(laid_sent_fixed _ _ _ _ _ _).heard_eq, if_pos rfl] at hheard
    obtain rfl := hheader hheard
    refine ⟨.inl (headerOf_userData _ _), fun h11 => ?_⟩
    rw [headerOf_fc] at h11
    exact hfc.resolve_left fun hne => hne (Fin.ext h11)
  | userData hasdu hmsg =>
    rw [(laid_sent_variable hmsg).heard_eq, if_pos rfl] at hheard
    obtain rfl := hheader hheard
    rw [headerOf_fc, headerOf_userData]
    exact ⟨.inr hasdu, fun h3 => absurd h3 (by decide)⟩

/-- What the polling station does to its connection, and the frames that it adds to the line. -/
structure Acts (p : LinkLayerParameters) (s t : Primary) : Prop where
  slave : Keeps s.slave t.slave
  sent : ∃ frames, t.sent = s.sent ++ frames ∧ ∀ f ∈ frames, Frame p s.slave f

theorem Acts.refl (p : LinkLayerParameters) (s : Primary) : Acts p s s :=
  ⟨.refl _, [], (List.append_nil _).symm, fun _ hf => absurd hf List.not_mem_nil⟩

theorem acts_run {p : LinkLayerParameters} {now : ℤ} {s t : Primary}
    (h : s.RunStateMachine p now = some t) : Acts p s t := by
  obtain ⟨⟨slave, frames⟩, hrun, rfl⟩ := Option.map_eq_some_iff.mp h
  have hruns := runs_of_eq hrun
  exact ⟨⟨hruns.nextMessage, hruns.lastSentASDU, hruns.requestClass2Data⟩, frames, rfl,
    hruns.frames⟩

theorem acts_handleMessage (p : LinkLayerParameters) (now : ℤ) (h : Header) (s : Primary) :
    Acts p s (s.HandleMessage p now h) := by
  have hanswered := keeps_answered now h.fc s.slave
  unfold Primary.HandleMessage
  split
  · exact ⟨⟨rfl, rfl, id⟩, [], (List.append_nil _).symm, fun _ hf => absurd hf List.not_mem_nil⟩
  · refine ⟨?_, _, rfl, fun f hf => ?_⟩
    · dsimp only
      split
      · exact ⟨hanswered.nextMessage, hanswered.lastSentASDU, hanswered.requestClass2Data⟩
      · exact hanswered
    · split at hf
      · rw [List.mem_singleton.mp hf]
        exact .fixed _ _ _ _ (.inl (by decide))
      · exact absurd hf List.not_mem_nil

theorem acts_receive (p : LinkLayerParameters) (now : ℤ) (msg : List ℕ) (s : Primary) :
    Acts p s (s.receive p now msg) := by
  unfold Primary.receive
  split
  · exact .refl p s
  · split
    · exact acts_handleMessage p now _ s
    · exact .refl p s
  · split
    · exact acts_handleMessage p now _ s
    · exact .refl p s

theorem handled_handleData {replies : List (List ℕ)} {userData d : List ℕ} {s : Secondary}
    (hd : d ∈ (s.handleData cfg replies userData).handled) :
    d ∈ s.handled ∨ d = userData ∧ d ≠ [] := by
  have hfold : ∀ (replies : List (List ℕ)) (s : Secondary),
      (replies.foldl (Secondary.EnqueueUserDataClass1 cfg) s).handled = s.handled := by
    intro replies
    induction replies with
    | nil => exact fun _ => rfl
    | cons asdu replies ih => exact fun s => ih _
  unfold Secondary.handleData at hd
  split at hd
  · exact .inl hd
  · rename_i hdata
    rw [hfold] at hd
    refine (List.mem_append.mp hd).imp_right fun hd => ?_
    obtain rfl := List.mem_singleton.mp hd
    exact ⟨rfl, hdata⟩

theorem took_fields {s : Secondary} {r : Option (List ℕ) × Secondary} (h : Took s r) :
    (Secondary.respond cfg r).handled = s.handled := by
  cases h <;> rfl

theorem checkFCB_handled (fcb fcv : Bool) (s : Secondary) :
    (s.CheckFCB fcb fcv).handled = s.handled := by
  unfold Secondary.CheckFCB
  split <;> rfl

/-- The polled station handles the user data of the message, if any. -/
theorem handled_handleMessage {replies : List (List ℕ)} {h : Header} {d : List ℕ}
    {s : Secondary} (hd : d ∈ (s.HandleMessage cfg replies h).handled) :
    d ∈ s.handled ∨ d = h.userData ∧ d ≠ [] := by
  unfold Secondary.HandleMessage at hd
  split at hd
  · split at hd <;> exact .inl hd
  · split at hd <;> exact .inl hd
  · split at hd <;> exact .inl hd
  · rw [took_fields (took_class2 _), checkFCB_handled] at hd
    exact .inl hd
  · rw [took_fields (took_class1 _), checkFCB_handled] at hd
    exact .inl hd
  · dsimp only at hd
    split at hd
    · have hdata : d ∈ (s.CheckFCB h.fcb h.fcv).handled ∨ d = h.userData ∧ d ≠ [] :=
        handled_handleData hd
      rwa [checkFCB_handled] at hdata
    · have hsame : d ∈ (s.CheckFCB h.fcb h.fcv).handled := hd
      rw [checkFCB_handled] at hsame
      exact .inl hsame
  · split at hd
    · exact .inl hd
    · exact handled_handleData hd
  · exact .inl hd

end Kept

section Copies

variable {cfg : Setup} {first : Option (List ℕ)} {s t : Line} {as : List LineAction}

/-- The messages that the application of the polling station sends. -/
def confirmed : List LineAction → List (List ℕ) :=
  List.filterMap fun
    | .sendConfirmed message => some message
    | _ => none

/-- Only the first message is on the line, and only it was handled. -/
structure Copies (cfg : Setup) (first : Option (List ℕ)) (s : Line) : Prop where
  nextMessage : s.primary.slave.nextMessage = first
  lastSentASDU : s.primary.slave.lastSentASDU = none
  sent : ∀ f ∈ s.primary.sent, ∀ h b,
    ParseHeaderSecondaryUnbalanced cfg.parameters cfg.linkLayerAddress f f.length = some (h, b) →
      h.userData = [] ∨ first = some h.userData
  handled : ∀ d ∈ s.secondary.handled, first = some d

theorem Copies.acts {primary : Primary} {secondary : Secondary} (h : Copies cfg first s)
    (ha : Acts cfg.parameters s.primary primary) (hs : secondary.handled = s.secondary.handled) :
    Copies cfg first { primary, secondary } where
  nextMessage := ha.slave.nextMessage.trans h.nextMessage
  lastSentASDU := ha.slave.lastSentASDU.trans h.lastSentASDU
  sent := by
    obtain ⟨frames, hframes, hframe⟩ := ha.sent
    intro f hf header b hheard
    rw [hframes] at hf
    rcases List.mem_append.mp hf with hf | hf
    · exact h.sent f hf header b hheard
    · rcases (userData_of_frame (hframe f hf) hheard).1 with hdata | hdata | hdata
      · exact .inl hdata
      · exact .inr (h.nextMessage.symm.trans hdata)
      · rw [h.lastSentASDU] at hdata
        cases hdata
  handled := by
    rw [hs]
    exact h.handled

/-- Fewer messages on the line. -/
theorem Copies.fewer {primary : Primary} {secondary : Secondary} (h : Copies cfg first s)
    (hslave : Keeps s.primary.slave primary.slave) (hsent : ∀ f ∈ primary.sent, f ∈ s.primary.sent)
    (hs : ∀ d ∈ secondary.handled, first = some d) :
    Copies cfg first { primary, secondary } where
  nextMessage := hslave.nextMessage.trans h.nextMessage
  lastSentASDU := hslave.lastSentASDU.trans h.lastSentASDU
  sent := fun f hf => h.sent f (hsent f hf)
  handled := hs

theorem copies_step {a : LineAction} (h : Copies cfg (confirmed as).head? s)
    (hs : s.step cfg a = some t) : Copies cfg (confirmed (as ++ [a])).head? t := by
  have hconfirmed : confirmed (as ++ [a]) = confirmed as ++ confirmed [a] :=
    List.filterMap_append
  rw [hconfirmed]
  cases a with
  | primaryRun now =>
    obtain ⟨primary, hrun, rfl⟩ := Option.map_eq_some_iff.mp hs
    rw [show confirmed [.primaryRun now] = [] from rfl, List.append_nil]
    exact h.acts (acts_run hrun) rfl
  | primaryReceive now =>
    rw [show confirmed [.primaryReceive now] = [] from rfl, List.append_nil]
    rw [Line.step] at hs
    split at hs
    · cases hs
    · obtain rfl := Option.some.inj hs
      refine h.acts (acts_receive _ now _ _) ?_
      rfl
  | secondaryReceive replies =>
    rw [show confirmed [.secondaryReceive replies] = [] from rfl, List.append_nil]
    rw [Line.step] at hs
    split at hs
    · cases hs
    · rename_i msg rest hsent
      obtain rfl := Option.some.inj hs
      refine h.fewer ⟨rfl, rfl, id⟩ (fun f hf => hsent ▸ List.mem_cons_of_mem msg hf) ?_
      unfold Secondary.receive
      split
      · exact h.handled
      · rename_i header b hheard
        intro d hd
        rcases handled_handleMessage hd with hd | ⟨rfl, hne⟩
        · exact h.handled d hd
        · exact (h.sent msg (hsent ▸ List.mem_cons_self) header b hheard).resolve_left hne
  | pollSingleSlave =>
    obtain rfl := Option.some.inj hs
    rw [show confirmed [.pollSingleSlave] = [] from rfl, List.append_nil]
    unfold Primary.PollSingleSlave
    split
    · exact h
    · exact ⟨h.nextMessage, h.lastSentASDU, h.sent, h.handled⟩
  | requestClass1Data =>
    obtain rfl := Option.some.inj hs
    rw [show confirmed [.requestClass1Data] = [] from rfl, List.append_nil]
    exact ⟨h.nextMessage, h.lastSentASDU, h.sent, h.handled⟩
  | sendConfirmed message =>
    obtain rfl := Option.some.inj hs
    rw [show confirmed [.sendConfirmed message] = [message] from rfl, List.head?_append]
    unfold Primary.SendConfirmed
    cases hfirst : (confirmed as).head? with
    | some first =>
      rw [hfirst] at h
      rw [if_pos (by rw [h.nextMessage]; rfl)]
      exact h
    | none =>
      rw [hfirst] at h
      rw [if_neg (by rw [h.nextMessage]; exact Bool.false_ne_true)]
      refine ⟨rfl, h.lastSentASDU, fun f hf header b hheard => ?_, fun d hd => ?_⟩
      · exact .inl ((h.sent f hf header b hheard).resolve_right fun hnone =>
          Option.some_ne_none _ hnone.symm)
      · cases h.handled d hd
  | enqueueClass1 asdu =>
    obtain rfl := Option.some.inj hs
    rw [show confirmed [.enqueueClass1 asdu] = [] from rfl, List.append_nil]
    exact h.acts (.refl _ _) rfl
  | enqueueClass2 asdu =>
    obtain rfl := Option.some.inj hs
    rw [show confirmed [.enqueueClass2 asdu] = [] from rfl, List.append_nil]
    exact h.acts (.refl _ _) rfl
  | loseRequest i =>
    obtain rfl := Option.some.inj hs
    rw [show confirmed [.loseRequest i] = [] from rfl, List.append_nil]
    exact h.fewer ⟨rfl, rfl, id⟩ (fun f hf => (List.eraseIdx_sublist _ i).subset hf) h.handled
  | loseResponse i =>
    obtain rfl := Option.some.inj hs
    rw [show confirmed [.loseResponse i] = [] from rfl, List.append_nil]
    exact h.acts (.refl _ _) rfl

theorem copies_start : Copies cfg none (Line.start cfg) where
  nextMessage := rfl
  lastSentASDU := rfl
  sent := fun _ hf => absurd hf List.not_mem_nil
  handled := fun _ hd => absurd hd List.not_mem_nil

/-- In every run the polled station handles no message but the first that the application of the
polling one sends: it is never cleared, and every later one is refused. -/
theorem only_first_message (hr : Machine.run (Line.step cfg) (Line.start cfg) as = some t) :
    ∀ d ∈ t.secondary.handled, (confirmed as).head? = some d := by
  have hall : Machine.Every (Line.step cfg) (fun _ _ => True) (Line.start cfg) as :=
    Machine.every_of_forall_mem fun _ _ => trivial
  have h : Copies cfg (confirmed as).head? t := Machine.run_trace_invariant
    (I := fun as s => Copies cfg (confirmed as).head? s)
    (fun _ _ _ _ _ hi hs => copies_step hi hs) hall copies_start hr
  exact h.handled

/-- An interrogation is sent, and a command that is refused. -/
def commanding : List LineAction :=
  opening ++ [.sendConfirmed [100, 1, 6], .sendConfirmed [45, 1, 6], .primaryRun 4,
    .secondaryReceive [], .primaryReceive 5, .sendConfirmed [45, 1, 6], .primaryRun 6,
    .secondaryReceive []]

theorem command_never_handled :
    ∃ t, Machine.run (Line.step sampleSetup) (Line.start sampleSetup) commanding = some t ∧
      ∀ d ∈ t.secondary.handled, some [100, 1, 6] = some d := by
  have hends : ∃ t, Machine.run (Line.step sampleSetup) (Line.start sampleSetup) commanding =
      some t := by
    rw [← Option.isSome_iff_exists]
    decide +kernel
  obtain ⟨t, ht⟩ := hends
  exact ⟨t, ht, only_first_message ht⟩

/-- The line when an interrogation is next. -/
def interrogating : Line :=
  (Machine.run (Line.step sampleSetup) (Line.start sampleSetup)
    (opening ++ [.sendConfirmed [100, 1, 6]])).getD (Line.start sampleSetup)

end Copies

section Starved

variable {cfg : Setup} {s t : Line} {as : List LineAction}

def Secondary.takenOf (c : UserDataClass) (s : Secondary) : List (UserDataClass × List ℕ) :=
  s.taken.filter (·.1 = c)

/-- A message is next, and class 2 is neither requested nor to be requested. -/
structure Starved (cfg : Setup) (s : Line) : Prop where
  nextMessage : s.primary.slave.nextMessage.isSome = true
  requestClass2Data : s.primary.slave.requestClass2Data = false
  sent : ∀ f ∈ s.primary.sent, ∀ h b,
    ParseHeaderSecondaryUnbalanced cfg.parameters cfg.linkLayerAddress f f.length = some (h, b) →
      h.fc ≠ 11

theorem Starved.acts {primary : Primary} {secondary : Secondary} (h : Starved cfg s)
    (ha : Acts cfg.parameters s.primary primary) : Starved cfg { primary, secondary } where
  nextMessage := by
    rw [ha.slave.nextMessage]
    exact h.nextMessage
  requestClass2Data := by
    rw [← Bool.not_eq_true]
    intro hclass2
    have hbefore := ha.slave.requestClass2Data hclass2
    rw [h.requestClass2Data] at hbefore
    cases hbefore
  sent := by
    obtain ⟨frames, hframes, hframe⟩ := ha.sent
    intro f hf header b hheard h11
    rw [hframes] at hf
    rcases List.mem_append.mp hf with hf | hf
    · exact h.sent f hf header b hheard h11
    · have hrequested := (userData_of_frame (hframe f hf) hheard).2 h11
      rw [h.requestClass2Data] at hrequested
      cases hrequested

theorem Starved.fewer {primary : Primary} {secondary : Secondary} (h : Starved cfg s)
    (hslave : primary.slave = s.primary.slave)
    (hsent : ∀ f ∈ primary.sent, f ∈ s.primary.sent) : Starved cfg { primary, secondary } where
  nextMessage := by
    rw [hslave]
    exact h.nextMessage
  requestClass2Data := by
    rw [hslave]
    exact h.requestClass2Data
  sent := fun f hf => h.sent f (hsent f hf)

theorem takenOf_handleData (replies : List (List ℕ)) (userData : List ℕ) (s : Secondary) :
    (s.handleData cfg replies userData).taken = s.taken := by
  have hfold : ∀ (replies : List (List ℕ)) (s : Secondary),
      (replies.foldl (Secondary.EnqueueUserDataClass1 cfg) s).taken = s.taken := by
    intro replies
    induction replies with
    | nil => exact fun _ => rfl
    | cons asdu replies ih => exact fun s => ih _
  unfold Secondary.handleData
  split
  · rfl
  · exact hfold _ _

theorem checkFCB_taken (fcb fcv : Bool) (s : Secondary) :
    (s.CheckFCB fcb fcv).taken = s.taken := by
  unfold Secondary.CheckFCB
  split <;> rfl

theorem takenOf_respond (s : Secondary) :
    (Secondary.respond cfg s.GetClass1Data).takenOf .class2 = s.takenOf .class2 := by
  unfold Secondary.GetClass1Data
  split
  · rfl
  · simp [Secondary.respond, Secondary.takenOf]

/-- Only a request of class 2 takes data of class 2. -/
theorem takenOf_handleMessage {h : Header} (h11 : h.fc ≠ 11) (replies : List (List ℕ))
    (s : Secondary) :
    (s.HandleMessage cfg replies h).takenOf .class2 = s.takenOf .class2 := by
  unfold Secondary.HandleMessage
  split
  · split <;> rfl
  · split <;> rfl
  · split <;> rfl
  · exact absurd ‹_› h11
  · rw [takenOf_respond, Secondary.takenOf, checkFCB_taken]
    rfl
  · dsimp only
    split
    · have hdata : ((s.CheckFCB h.fcb h.fcv).handleData cfg replies h.userData).taken = s.taken :=
        (takenOf_handleData _ _ _).trans (checkFCB_taken _ _ _)
      exact congrArg (List.filter (·.1 = .class2)) hdata
    · exact congrArg (List.filter (·.1 = .class2)) (checkFCB_taken _ _ _)
  · split
    · rfl
    · exact congrArg (List.filter (·.1 = .class2)) (takenOf_handleData _ _ _)
  · rfl

theorem starved_step {a : LineAction} (h : Starved cfg s) (hs : s.step cfg a = some t) :
    Starved cfg t ∧ t.secondary.takenOf .class2 = s.secondary.takenOf .class2 := by
  cases a with
  | primaryRun now =>
    obtain ⟨primary, hrun, rfl⟩ := Option.map_eq_some_iff.mp hs
    exact ⟨h.acts (acts_run hrun), rfl⟩
  | primaryReceive now =>
    rw [Line.step] at hs
    split at hs
    · cases hs
    · obtain rfl := Option.some.inj hs
      exact ⟨h.acts (acts_receive _ now _ _), rfl⟩
  | secondaryReceive replies =>
    rw [Line.step] at hs
    split at hs
    · cases hs
    · rename_i msg rest hsent
      obtain rfl := Option.some.inj hs
      refine ⟨h.fewer rfl fun f hf => hsent ▸ List.mem_cons_of_mem msg hf, ?_⟩
      dsimp only
      unfold Secondary.receive
      split
      · rfl
      · rename_i header b hheard
        exact takenOf_handleMessage
          (h.sent msg (hsent ▸ List.mem_cons_self) header b hheard) replies _
  | pollSingleSlave =>
    obtain rfl := Option.some.inj hs
    refine ⟨?_, rfl⟩
    unfold Primary.PollSingleSlave
    rw [if_pos (by rw [SlaveConnection.IsMessageWaitingToSend, h.nextMessage, Bool.or_true])]
    exact h
  | requestClass1Data =>
    obtain rfl := Option.some.inj hs
    exact ⟨⟨h.nextMessage, h.requestClass2Data, h.sent⟩, rfl⟩
  | sendConfirmed message =>
    obtain rfl := Option.some.inj hs
    refine ⟨?_, rfl⟩
    unfold Primary.SendConfirmed
    rw [if_pos h.nextMessage]
    exact h
  | enqueueClass1 asdu =>
    obtain rfl := Option.some.inj hs
    exact ⟨h.fewer rfl fun _ hf => hf, rfl⟩
  | enqueueClass2 asdu =>
    obtain rfl := Option.some.inj hs
    exact ⟨h.fewer rfl fun _ hf => hf, rfl⟩
  | loseRequest i =>
    obtain rfl := Option.some.inj hs
    exact ⟨h.fewer rfl fun f hf => (List.eraseIdx_sublist _ i).subset hf, rfl⟩
  | loseResponse i =>
    obtain rfl := Option.some.inj hs
    exact ⟨h.fewer rfl fun _ hf => hf, rfl⟩

/-- Once a message is next, in every run from there, however long and however often the
application polls, no data of class 2 are taken any more. -/
theorem class2_starved (h : Starved cfg s) (hr : Machine.run (Line.step cfg) s as = some t) :
    t.secondary.takenOf .class2 = s.secondary.takenOf .class2 := by
  have hall : Machine.Every (Line.step cfg) (fun _ _ => True) s as :=
    Machine.every_of_forall_mem fun _ _ => trivial
  have hboth : Starved cfg t ∧ t.secondary.takenOf .class2 = s.secondary.takenOf .class2 :=
    Machine.run_invariant
      (I := fun u => Starved cfg u ∧ u.secondary.takenOf .class2 = s.secondary.takenOf .class2)
      (fun _ _ _ _ hi hs => ⟨(starved_step hi.1 hs).1, (starved_step hi.1 hs).2.trans hi.2⟩)
      hall ⟨h, rfl⟩ hr
  exact hboth.2

theorem measured_value_waits :
    ∃ t, Machine.run (Line.step sampleSetup) interrogating
        [.enqueueClass2 [9, 1, 3], .pollSingleSlave, .primaryRun 7, .secondaryReceive [],
          .primaryReceive 8] = some t ∧
      t.secondary.takenOf .class2 = interrogating.secondary.takenOf .class2 := by
  have hquiet : interrogating.primary.sent = [] := by decide +kernel
  have hstarved : Starved sampleSetup interrogating := by
    refine ⟨by decide +kernel, by decide +kernel, fun f hf => ?_⟩
    rw [hquiet] at hf
    exact absurd hf List.not_mem_nil
  have hends : ∃ t, Machine.run (Line.step sampleSetup) interrogating
      [.enqueueClass2 [9, 1, 3], .pollSingleSlave, .primaryRun 7, .secondaryReceive [],
        .primaryReceive 8] = some t := by
    rw [← Option.isSome_iff_exists]
    decide +kernel
  obtain ⟨t, ht⟩ := hends
  exact ⟨t, ht, class2_starved hstarved ht⟩

end Starved

section Repeated

variable {cfg : Setup} {message : List ℕ} {s : Line}

/-- The link is available, and a message is next that fits a frame. -/
structure Ready (cfg : Setup) (message : List ℕ) (s : Line) : Prop where
  available : s.primary.slave.primaryState = .LINK_LAYERS_AVAILABLE
  noTest : s.primary.slave.sendLinkLayerTestFunction = false
  noClass1 : s.primary.slave.requestClass1Data = false
  noClass2 : s.primary.slave.requestClass2Data = false
  sendMessages : s.primary.slave.dontSendMessages = false
  nextMessage : s.primary.slave.nextMessage = some message
  address : s.primary.slave.address = cfg.linkLayerAddress
  inStep : s.secondary.expectedFcb = s.primary.slave.nextFcb
  noData : s.secondary.userDataClass1Queue = []
  quiet : s.primary.sent = [] ∧ s.secondary.sent = []

/-- An address of one station and a message of some octets that fits a frame. -/
structure Sendable (cfg : Setup) (message : List ℕ) : Prop where
  address : cfg.linkLayerAddress < 0x100 ^ cfg.parameters.addressLength
  single : isBroadcast cfg.parameters cfg.linkLayerAddress = false
  nonempty : message ≠ []
  fits : 1 + cfg.parameters.addressLength + message.length ≤ 255

/-- The frame of the message. -/
def messageFrame (cfg : Setup) (message : List ℕ) (fcb : Bool) : PrimaryFrame where
  fc := 3
  address := cfg.linkLayerAddress
  fcb := fcb
  fcv := true
  userData := some message

theorem exists_frame (h : Sendable cfg message) (fcb : Bool) :
    ∃ frame, SendVariableLengthFramePrimary cfg.parameters false (3 : Fin 16)
        cfg.linkLayerAddress fcb true message = some frame ∧
      ParseHeaderSecondaryUnbalanced cfg.parameters cfg.linkLayerAddress frame frame.length =
        some ((messageFrame cfg message fcb).header, false) := by
  obtain ⟨frame, hframe⟩ : ∃ frame, SendVariableLengthFramePrimary cfg.parameters false
      (3 : Fin 16) cfg.linkLayerAddress fcb true message = some frame := by
    unfold SendVariableLengthFramePrimary variableLengthFrame
    dsimp only
    rw [if_neg (Nat.not_lt.mpr h.fits)]
    exact ⟨_, rfl⟩
  have hfor : (messageFrame cfg message fcb).isFor cfg.parameters cfg.linkLayerAddress = true := by
    unfold PrimaryFrame.isFor messageFrame
    rw [h.single]
    exact decide_eq_true rfl
  have hoctets : (messageFrame cfg message fcb).octets cfg.parameters false = some frame := hframe
  refine ⟨frame, hframe, ?_⟩
  rw [PrimaryFrame.heard_eq hoctets h.address, if_pos hfor]
  exact congrArg (fun b => some ((messageFrame cfg message fcb).header, b)) h.single

/-- The connection behind a sent message. -/
def sentSlave (now : ℤ) (s : SlaveConnection) : SlaveConnection :=
  s.serviceSent now .EXECUTE_SERVICE_SEND_CONFIRM

/-- The connection behind its confirmation. -/
def confirmedSlave (now : ℤ) (s : SlaveConnection) : SlaveConnection :=
  (sentSlave now s).answered now 0

def acknowledgement (cfg : Setup) : List ℕ :=
  if cfg.parameters.useSingleCharACK then SINGLE_CHAR_ACK
  else Secondary.fixedFrame cfg 0 false false

/-- The confirmation is one of the slave that is polled. -/
theorem receive_acknowledgement (h : Sendable cfg message) (now : ℤ) {s : Primary}
    (hcurrent : s.isCurrent = true) (haddress : s.slave.address = cfg.linkLayerAddress) :
    s.receive cfg.parameters now (acknowledgement cfg) =
      { s with slave := s.slave.answered now 0 } := by
  have hack (address : ℕ) : s.HandleMessage cfg.parameters now ⟨0, false, false, address, []⟩ =
      { s with slave := s.slave.answered now 0 } := by
    simp [Primary.HandleMessage]
  unfold acknowledgement
  split
  · have hsingle : HandleMessageBalancedAndPrimaryUnbalanced cfg.parameters SINGLE_CHAR_ACK
        SINGLE_CHAR_ACK.length = some .ack := rfl
    rw [Primary.receive, hsingle]
    dsimp only
    rw [if_pos hcurrent, hack]
  · obtain ⟨-, hprm, -, -⟩ := controlField_bits 0 false false false false
    have hbit : hasBit (octet (body cfg.parameters (controlField (0 : Fin 16) false false false
        false) cfg.linkLayerAddress []) 0) 0x40 = false := hprm
    have hfixed : HandleMessageBalancedAndPrimaryUnbalanced cfg.parameters
        (Secondary.fixedFrame cfg 0 false false)
        (Secondary.fixedFrame cfg 0 false false).length =
          some (.message ⟨(0 : Fin 16), false, false, cfg.linkLayerAddress, []⟩) := by
      unfold Secondary.fixedFrame
      rw [(laid_sent_fixed _ _ _ _ _ _).response_eq, if_pos ⟨rfl, hbit⟩, headerOf_body h.address]
    rw [Primary.receive, hfixed]
    dsimp only
    rw [if_pos haddress.symm]
    exact hack _

/-- One round on an undisturbed line: the message is sent, handled and confirmed, and it is next
again. -/
theorem ready_round (h : Sendable cfg message) (hs : Ready cfg message s) (now : ℤ) :
    ∃ t, Machine.run (Line.step cfg) s
        [.primaryRun now, .secondaryReceive [], .primaryReceive now] = some t ∧
      Ready cfg message t ∧ t.secondary.handled = s.secondary.handled ++ [message] := by
  obtain ⟨⟨slave, isCurrent, sent, userData⟩,
    ⟨expectedFcb, class1, class2, handled, taken, answers⟩⟩ := s
  obtain ⟨havailable, hnotest, hclass1, hclass2, hsend, hnext, haddress, hfcb, hempty, hquiet⟩ := hs
  dsimp only at havailable hnotest hclass1 hclass2 hsend hnext haddress hfcb hempty hquiet
  obtain ⟨frame, hframe, hheard⟩ := exists_frame h slave.nextFcb
  obtain ⟨rfl, rfl⟩ := hquiet
  have hrun : slave.RunStateMachine cfg.parameters now = some (sentSlave now slave, [frame]) := by
    unfold SlaveConnection.RunStateMachine SlaveConnection.userDataFrame
    rw [havailable]
    dsimp only
    simp only [hnotest, hclass1, hclass2, hsend, hnext, Bool.false_eq_true, if_false]
    rw [haddress, hframe]
    rfl
  have hreceive : (⟨expectedFcb, class1, class2, handled, taken, []⟩ : Secondary).receive cfg []
      frame = ⟨!expectedFcb, class1, class2, handled ++ [message], taken,
        [acknowledgement cfg]⟩ := by
    unfold Secondary.receive
    rw [hheard]
    change Secondary.HandleMessage cfg [] ⟨3, slave.nextFcb, true, cfg.linkLayerAddress, message⟩
      _ = _
    simp [Secondary.HandleMessage, Secondary.CheckFCB, Secondary.handleData, h.nonempty,
      Secondary.acknowledge, Secondary.send, Secondary.IsClass1DataAvailable, hempty, hfcb,
      acknowledgement]
  have hanswered : (⟨sentSlave now slave, true, [], userData⟩ : Primary).receive cfg.parameters
      now (acknowledgement cfg) = ⟨confirmedSlave now slave, true, [], userData⟩ :=
    receive_acknowledgement h now rfl haddress
  refine ⟨⟨⟨confirmedSlave now slave, true, [], userData⟩,
    ⟨!expectedFcb, class1, class2, handled ++ [message], taken, []⟩⟩, ?_, ?_, rfl⟩
  · simp only [Machine.run, Line.step, Primary.RunStateMachine, hrun, Option.map_some,
      Option.bind_some, List.nil_append, hreceive]
    exact congrArg (fun primary => some (Line.mk primary _)) hanswered
  · refine ⟨rfl, rfl, hclass1, hclass2, rfl, hnext, haddress, ?_, hempty, rfl, rfl⟩
    exact congrArg (!·) hfcb

end Repeated

end JsonScada.Cs101
