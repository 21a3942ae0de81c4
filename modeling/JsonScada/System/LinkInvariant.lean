/- path: JsonScada/System/LinkInvariant
   source: lib60870.netcore/lib60870/CS104/Connection.cs, ClientConnection.cs
   digest: What holds of the two ends of a connection whatever the order of the threads. -/

import JsonScada.Cs104.Link
import JsonScada.Cs104.QueueContents
import JsonScada.Cs104.Station

set_option autoImplicit false
set_option relaxedAutoImplicit false

namespace JsonScada.System.LinkInvariant

open JsonScada.Lib JsonScada.Cs104

/-- The station of the client. -/
def clientStation (c : Connection) : Station Unit where
  sendCount := c.sendSequenceNumber
  receiveCount := c.receiveSequenceNumber
  unconfirmed := c.unconfirmedReceivedIMessages
  kBuffer := c.kBuffer
  written := c.netStream
  transmitted := c.transmitted
  received := c.received

/-- The station of the server. -/
def serverStation (c : ClientConnection) : Station QueuePlace where
  sendCount := c.sendCount
  receiveCount := c.receiveCount
  unconfirmed := c.unconfirmedReceivedIMessages
  kBuffer := c.kBuffer
  written := c.socketStream
  transmitted := c.transmitted
  received := c.receivedASDUs

/-- The messages without numbers that the client writes. -/
def clientOthers : List (List ℕ) := [STARTDT_ACT_MSG, TESTFR_ACT_MSG, TESTFR_CON_MSG]

/-- The messages without numbers that the server writes. -/
def serverOthers : List (List ℕ) := [STARTDT_CON_MSG, TESTFR_ACT_MSG, TESTFR_CON_MSG]

theorem testFrAct_client : TESTFR_ACT_MSG ∈ clientOthers := by decide

theorem testFrCon_client : TESTFR_CON_MSG ∈ clientOthers := by decide

theorem testFrAct_server : TESTFR_ACT_MSG ∈ serverOthers := by decide

/-- The server is started, or the request to start is the next message it reads. -/
def Started (l : Link) : Prop :=
  (l.server.isActive = true ∧ l.server.state = .M_CON_STATE_STARTED) ∨
    (l.server.isActive = false ∧ l.client.netStream.head? = some STARTDT_ACT_MSG)

/-- What holds of the two ends at any time, for the two streams between them. -/
structure Safe (cfg : LinkConfig) (l : Link) (f g : Flow (List ℕ)) : Prop where
  joined : Station.Joined cfg.Encoded clientOthers serverOthers (clientStation l.client)
    (serverStation l.server) f g
  started : Started l
  notStopping : l.client.conState ≠ .STATE_WAITING_FOR_STOPDT_CON
  clientSize : l.client.kBuffer.maxSentASDUs = cfg.client.K
  serverSize : l.server.kBuffer.maxSentASDUs = cfg.server.K
  clientWindow : l.client.unconfirmedReceivedIMessages < cfg.client.W
  serverWindow : l.server.unconfirmedReceivedIMessages < cfg.server.W
  waiting : ∀ asdu ∈ l.client.waitingToBeSent, cfg.Encoded asdu
  low : l.server.lowPrioQueue.Filled cfg.Encoded
  high : l.server.highPrioQueue.Stocked fun asdu _ => cfg.Encoded asdu

variable {cfg : LinkConfig} {l : Link} {f g : Flow (List ℕ)}

theorem Safe.start (h : cfg.Valid) {lowPrioQueue : ASDUQueue}
    (hlow : lowPrioQueue.Filled cfg.Encoded) (now : ℕ) :
    Safe cfg (Link.connect cfg lowPrioQueue now) {} {} := by
  have hk : Outstanding (KBuffer.empty () cfg.client.K) 0 [] :=
    Outstanding.start h.clientK
  have hk' : Outstanding (KBuffer.empty (⟨0, 0⟩ : QueuePlace) cfg.server.K) 0 [] :=
    Outstanding.start h.serverK
  refine ⟨⟨Flow.Sound.start, Flow.Sound.start, ⟨rfl, rfl, rfl, rfl, rfl, [], hk, rfl⟩,
    ⟨rfl, rfl, rfl, rfl, rfl, [], hk', rfl⟩, ?_, .nil⟩, Or.inr ⟨rfl, rfl⟩, nofun, ?_, ?_,
    h.clientW, h.serverW, fun _ hmem => absurd hmem List.not_mem_nil,
    hlow, ASDUQueue.Stocked.new h.high cfg.enqueueMode⟩
  · exact .unnumbered STARTDT_ACT_MSG List.mem_cons_self .nil
  · exact List.length_replicate
  · exact List.length_replicate

/-- The confirmed ASDUs leave the low-priority queue. -/
def markAll (removed : List (SentASDU QueuePlace)) (q : ASDUQueue) : ASDUQueue :=
  removed.foldl (fun q slot => q.MarkASDUAsConfirmed slot.entry.queueIndex slot.entry.entryTime) q

/-- The ASDUs the server keeps and those it sent are the same. -/
structure SameAsdus (c c' : ClientConnection) : Prop where
  kBuffer : c'.kBuffer = c.kBuffer
  transmitted : c'.transmitted = c.transmitted
  low : c'.lowPrioQueue = c.lowPrioQueue
  high : c'.highPrioQueue = c.highPrioQueue

theorem SameAsdus.trans {c c' c'' : ClientConnection} (h : SameAsdus c c')
    (h' : SameAsdus c' c'') : SameAsdus c c'' :=
  ⟨h'.kBuffer.trans h.kBuffer, h'.transmitted.trans h.transmitted, h'.low.trans h.low,
    h'.high.trans h.high⟩

/-- What becomes of the ASDUs the server keeps, and of the count of those confirmed: an ASDU
of a queue is sent, or a confirmation is heard, or nothing changes. -/
inductive Served : ClientConnection → ℕ → ClientConnection → ℕ → Prop
  | same {c c' : ClientConnection} {n : ℕ} (h : SameAsdus c c') : Served c n c' n
  | low {c : ClientConnection} {n : ℕ} {taken : List ℕ × ℤ × ℕ}
      (hfree : c.kBuffer.isSentBufferFull = false)
      (hcount : c.sendCount = c.transmitted.length % sequenceNumbers)
      (htaken : c.lowPrioQueue.GetNextWaitingASDU.1 = some taken) (now : ℕ) :
      Served c n
        ({ c with lowPrioQueue := c.lowPrioQueue.GetNextWaitingASDU.2 }.sendTaken taken now) n
  | high {c : ClientConnection} {n : ℕ} {taken : List ℕ × ℤ × ℕ}
      (hfree : c.kBuffer.isSentBufferFull = false)
      (hcount : c.sendCount = c.transmitted.length % sequenceNumbers)
      (htaken : c.highPrioQueue.GetNextHighPriorityWaitingASDU.1 = some taken) (now : ℕ) :
      Served c n ({ c with highPrioQueue :=
        c.highPrioQueue.GetNextHighPriorityWaitingASDU.2 }.sendTaken taken now) n
  | hears {c c' : ClientConnection} {n m : ℕ} {k : List (SentASDU QueuePlace)}
      (hk : Outstanding c.kBuffer n k) (hlen : n + k.length = c.transmitted.length)
      (hm : n ≤ m ∧ m ≤ n + k.length) (hk' : Outstanding c'.kBuffer m (k.drop (m - n)))
      (htransmitted : c'.transmitted = c.transmitted)
      (hlow : c'.lowPrioQueue = markAll (k.take (m - n)) c.lowPrioQueue)
      (hhigh : c'.highPrioQueue = c.highPrioQueue) : Served c n c' m
  | trans {c c' c'' : ClientConnection} {n n' n'' : ℕ} :
      Served c n c' n' → Served c' n' c'' n'' → Served c n c'' n''

/-- The ends are safe again, after the server did with its ASDUs what it may do. -/
def Reaches (cfg : LinkConfig) (c : ClientConnection) (n : ℕ) (l' : Link) : Prop :=
  ∃ f' g' : Flow (List ℕ), Safe cfg l' f' g' ∧ Served c n l'.server g'.acked

theorem Safe.reaches (h : Safe cfg l f g) : Reaches cfg l.server g.acked l :=
  ⟨f, g, h, .same ⟨rfl, rfl, rfl, rfl⟩⟩

theorem Reaches.trans {c c' : ClientConnection} {n n' : ℕ} (h : Served c n c' n')
    (h' : Reaches cfg c' n' l) : Reaches cfg c n l := by
  obtain ⟨f, g, hsafe, hserved⟩ := h'
  exact ⟨f, g, hsafe, h.trans hserved⟩

/-! The client. -/

/-- The client changes, and may have read from the server's stream. -/
theorem Safe.clientReads (h : Safe cfg l f g) {c : Connection} {stream : List (List ℕ)}
    {f' g' : Flow (List ℕ)}
    (hjoined : Station.Joined cfg.Encoded clientOthers serverOthers (clientStation c)
      (serverStation { l.server with socketStream := stream }) f' g')
    (hhead : l.client.netStream.head? = some STARTDT_ACT_MSG →
      c.netStream.head? = some STARTDT_ACT_MSG)
    (hstate : c.conState ≠ .STATE_WAITING_FOR_STOPDT_CON)
    (hsize : c.kBuffer.maxSentASDUs = l.client.kBuffer.maxSentASDUs)
    (hwindow : c.unconfirmedReceivedIMessages < cfg.client.W)
    (hwaiting : ∀ asdu ∈ c.waitingToBeSent, cfg.Encoded asdu) :
    Safe cfg { client := c, server := { l.server with socketStream := stream } } f' g' := by
  refine ⟨hjoined, ?_, hstate, hsize.trans h.clientSize, h.serverSize, hwindow, h.serverWindow,
    hwaiting, h.low, h.high⟩
  rcases h.started with hactive | ⟨hinactive, hstream⟩
  · exact Or.inl hactive
  · exact Or.inr ⟨hinactive, hhead hstream⟩

/-- The client changes alone. -/
theorem Safe.client (h : Safe cfg l f g) {c : Connection} {f' g' : Flow (List ℕ)}
    (hjoined : Station.Joined cfg.Encoded clientOthers serverOthers (clientStation c)
      (serverStation l.server) f' g')
    (hhead : l.client.netStream.head? = some STARTDT_ACT_MSG →
      c.netStream.head? = some STARTDT_ACT_MSG)
    (hstate : c.conState ≠ .STATE_WAITING_FOR_STOPDT_CON)
    (hsize : c.kBuffer.maxSentASDUs = l.client.kBuffer.maxSentASDUs)
    (hwindow : c.unconfirmedReceivedIMessages < cfg.client.W)
    (hwaiting : ∀ asdu ∈ c.waitingToBeSent, cfg.Encoded asdu) :
    Safe cfg { l with client := c } f' g' := by
  have hreads := @Safe.clientReads _ _ _ _ h c l.server.socketStream f' g' hjoined hhead hstate hsize hwindow
    hwaiting
  exact hreads

/-- A stream that has a first message keeps it when more is written. -/
theorem head_append {α : Type} {xs ys : List α} {x : α} (h : xs.head? = some x) :
    (xs ++ ys).head? = some x := by
  cases xs with
  | nil => cases h
  | cons a xs => exact h

theorem maxSentASDUs_update {ε : Type} (b : KBuffer ε) (sent : SentASDU ε) :
    (b.update sent).maxSentASDUs = b.maxSentASDUs :=
  List.length_set

/-- The loop over the waiting ASDUs sends them in order until the k-buffer is full. -/
theorem sendWaiting_safe (hpos : 0 < cfg.client.W) (now : ℕ) :
    ∀ (waiting : List (List ℕ)) (l : Link) (f g : Flow (List ℕ)), Safe cfg l f g →
      l.client.waitingToBeSent = waiting →
      (∃ f' g', Safe cfg { l with client := Connection.sendWaiting now waiting l.client } f' g' ∧
          g'.acked = g.acked) ∧
        (Connection.sendWaiting now waiting l.client).transmitted ++
            (Connection.sendWaiting now waiting l.client).waitingToBeSent =
          l.client.transmitted ++ waiting := by
  intro waiting
  induction waiting with
  | nil =>
    intro l f g h hwaiting
    refine ⟨⟨f, g, h, rfl⟩, ?_⟩
    simp only [Connection.sendWaiting, hwaiting]
  | cons asdu rest ih =>
    intro l f g h hwaiting
    unfold Connection.sendWaiting
    by_cases hfull : l.client.kBuffer.isSentBufferFull = true
    · rw [if_pos hfull, hwaiting]
      exact ⟨⟨f, g, h, rfl⟩, rfl⟩
    · rw [if_neg hfull]
      have hp : cfg.Encoded asdu := h.waiting asdu (by rw [hwaiting]; exact List.mem_cons_self)
      have hsent := h.joined.send (Bool.eq_false_iff.mpr hfull) () (now : ℤ) hp
      have hnext : Safe cfg { l with client :=
          { l.client with waitingToBeSent := rest }.SendIMessageAndUpdateSentASDUs asdu now }
          (f.send asdu) g.tell := by
        refine h.client hsent head_append h.notStopping (maxSentASDUs_update _ _) hpos ?_
        intro x hx
        refine h.waiting x ?_
        rw [hwaiting]
        exact List.mem_cons_of_mem asdu hx
      obtain ⟨hsafe, hall⟩ := ih _ _ _ hnext rfl
      refine ⟨hsafe, hall.trans ?_⟩
      exact List.append_assoc l.client.transmitted [asdu] rest

/-- What taking a message leaves of the client beside its station. -/
structure ClientKept (c c' : Connection) : Prop where
  head : c.netStream.head? = some STARTDT_ACT_MSG → c'.netStream.head? = some STARTDT_ACT_MSG
  state : c.conState ≠ .STATE_WAITING_FOR_STOPDT_CON →
    c'.conState ≠ .STATE_WAITING_FOR_STOPDT_CON
  window : c'.unconfirmedReceivedIMessages ≤ c.unconfirmedReceivedIMessages + 1
  waiting : c'.waitingToBeSent = c.waitingToBeSent
  transmitted : c'.transmitted = c.transmitted

theorem client_startT2 (c : Connection) (now : ℕ) :
    ∃ t b, c.startT2 now = { c with lastConfirmationTime := t, timeoutT2Triggered := b } := by
  unfold Connection.startT2
  split
  · exact ⟨c.lastConfirmationTime, c.timeoutT2Triggered, rfl⟩
  · exact ⟨now, true, rfl⟩

/-- A message in sequence, with a confirmation in range, is taken. -/
theorem client_checkMessage_information (p : APCIParameters) {c : Connection} (now : ℕ) {r : ℕ}
    {asdu : List ℕ} {kBuffer : KBuffer Unit} {removed : List (SentASDU Unit)}
    (hcount : c.receiveSequenceNumber < sequenceNumbers) (hr : r < sequenceNumbers)
    (hheader : p.asduHeaderSize ≤ asdu.length)
    (hcheck : checkSequenceNumber c.kBuffer c.sendSequenceNumber r = some (kBuffer, removed)) :
    ∃ c', c.checkMessage p now (iMessage c.receiveSequenceNumber r asdu)
        (iMessage c.receiveSequenceNumber r asdu).length = (true, c') ∧
      clientStation c' = ((clientStation c).hear kBuffer).take asdu ∧ ClientKept c c' := by
  obtain ⟨t, b, hstart⟩ := client_startT2 c now
  have hheader' : 2 ≤ p.asduHeaderSize := by
    unfold APCIParameters.asduHeaderSize
    omega
  have hsize : ¬6 + asdu.length < 7 := by omega
  have hfits : ¬6 + asdu.length - 6 < p.asduHeaderSize := by omega
  have htake : ((iMessage c.receiveSequenceNumber r asdu).take (6 + asdu.length)).drop 6 =
      asdu := by
    rw [← length_iMessage c.receiveSequenceNumber r asdu, List.take_length, drop_iMessage]
  unfold Connection.checkMessage
  rw [if_pos (octet_iMessage_even _ _ _), hstart, length_iMessage]
  simp only [hsize, if_false, iSequence_send hcount, iSequence_receive hr, ne_eq,
    not_true_eq_false, Connection.CheckSequenceNumber, hcheck, Option.map_some, hfits]
  rw [htake]
  exact ⟨_, rfl, rfl, fun h => h, fun h => h, le_rfl, rfl, rfl⟩

/-- A confirmation in range is taken. -/
theorem client_checkMessage_supervisory (p : APCIParameters) {c : Connection} (now : ℕ) {r : ℕ}
    {kBuffer : KBuffer Unit} {removed : List (SentASDU Unit)} (hr : r < sequenceNumbers)
    (hcheck : checkSequenceNumber c.kBuffer c.sendSequenceNumber r = some (kBuffer, removed)) :
    ∃ c', c.checkMessage p now (sMessage r) (sMessage r).length = (true, c') ∧
      clientStation c' = (clientStation c).hear kBuffer ∧ ClientKept c c' := by
  have hoctet : octet (sMessage r) 2 = 1 := rfl
  unfold Connection.checkMessage
  rw [hoctet, if_neg (by decide), if_pos (by decide), sSequence_eq hr]
  simp only [Connection.CheckSequenceNumber, hcheck, Option.map_some]
  exact ⟨_, rfl, rfl, fun h => h, fun h => h, Nat.le_succ _, rfl, rfl⟩

/-- A message of the server without a number is taken, and answered where it asks for it. -/
theorem client_checkMessage_unnumbered (p : APCIParameters) (c : Connection) (now : ℕ)
    {u : List ℕ} (hu : u ∈ serverOthers) :
    ∃ c', c.checkMessage p now u u.length = (true, c') ∧ ClientKept c c' ∧
      (clientStation c' = clientStation c ∨
        clientStation c' = (clientStation c).write TESTFR_CON_MSG) := by
  have hcode : ∃ code, octet u 2 = code ∧ (code = 0x0b ∨ code = 0x43 ∨ code = 0x83) := by
    simp only [serverOthers, List.mem_cons, List.not_mem_nil, or_false] at hu
    rcases hu with rfl | rfl | rfl
    · exact ⟨0x0b, rfl, Or.inl rfl⟩
    · exact ⟨0x43, rfl, Or.inr (Or.inl rfl)⟩
    · exact ⟨0x83, rfl, Or.inr (Or.inr rfl)⟩
  obtain ⟨code, hoctet, hcases⟩ := hcode
  unfold Connection.checkMessage
  rw [hoctet]
  rcases hcases with rfl | rfl | rfl
  · rw [if_neg (by decide), if_neg (by decide), if_pos (by decide)]
    exact ⟨_, rfl, ⟨fun h => h, fun _ => nofun, Nat.le_succ _, rfl, rfl⟩, Or.inl rfl⟩
  · rw [if_neg (by decide), if_neg (by decide), if_pos (by decide)]
    exact ⟨_, rfl, ⟨head_append, fun h => h, Nat.le_succ _, rfl, rfl⟩, Or.inr rfl⟩
  · rw [if_neg (by decide), if_neg (by decide), if_pos (by decide)]
    exact ⟨_, rfl, ⟨fun h => h, fun h => h, Nat.le_succ _, rfl, rfl⟩, Or.inl rfl⟩

/-- The client takes whatever the server wrote next. -/
theorem client_checkMessage (h : Safe cfg l f g) {msg : List ℕ} {rest : List (List ℕ)}
    (hstream : l.server.socketStream = msg :: rest) (now : ℕ) :
    ∃ c f' g', l.client.checkMessage cfg.client now msg msg.length = (true, c) ∧
      ClientKept l.client c ∧ c.kBuffer.maxSentASDUs = l.client.kBuffer.maxSentASDUs ∧
      Station.Joined cfg.Encoded clientOthers serverOthers (clientStation c)
        (serverStation { l.server with socketStream := rest }) f' g' ∧ g'.acked = g.acked := by
  have hread : serverStation { l.server with socketStream := rest } =
      (serverStation l.server).read := by
    unfold Station.read serverStation
    simp only [hstream, List.drop_succ_cons, List.drop_zero]
  have hmod : ∀ n : ℕ, n % sequenceNumbers < sequenceNumbers :=
    fun n => Nat.mod_lt n (by decide)
  have hcount : l.client.receiveSequenceNumber < sequenceNumbers := by
    have hknown : l.client.receiveSequenceNumber = _ := h.joined.first.receiveCount
    rw [hknown]
    exact hmod _
  obtain ⟨k, hk, hlen⟩ := h.joined.first.outstanding
  rw [hread]
  rcases h.joined.receive hstream hk hlen with
    ⟨r, asdu, kBuffer, rfl, hp, hcheck, hsize, -, -, hjoined⟩ |
    ⟨r, kBuffer, rfl, hcheck, hsize, -, -, hjoined⟩ | ⟨hu, hjoined⟩
  · obtain ⟨c, hc, hstation, hkept⟩ := client_checkMessage_information cfg.client now hcount
      (hmod r) hp.1 hcheck
    rw [← hstation] at hjoined
    have hbuffer : c.kBuffer = kBuffer := congrArg Station.kBuffer hstation
    exact ⟨c, _, _, hc, hkept, hbuffer ▸ hsize, hjoined, rfl⟩
  · obtain ⟨c, hc, hstation, hkept⟩ := client_checkMessage_supervisory cfg.client now (hmod r) hcheck
    rw [← hstation] at hjoined
    have hbuffer : c.kBuffer = kBuffer := congrArg Station.kBuffer hstation
    exact ⟨c, _, _, hc, hkept, hbuffer ▸ hsize, hjoined, rfl⟩
  · obtain ⟨c, hc, hkept, hstation⟩ :=
      client_checkMessage_unnumbered cfg.client l.client now hu
    rcases hstation with hstation | hstation
    · have hbuffer : c.kBuffer = l.client.kBuffer := congrArg Station.kBuffer hstation
      rw [← hstation] at hjoined
      exact ⟨c, _, _, hc, hkept, by rw [hbuffer], hjoined, rfl⟩
    · have hbuffer : c.kBuffer = l.client.kBuffer := congrArg Station.kBuffer hstation
      have hwrite := hjoined.write testFrCon_client
      rw [← hstation] at hwrite
      exact ⟨c, _, _, hc, hkept, by rw [hbuffer], hwrite, rfl⟩

/-- A confirmation keeps the ends joined. -/
theorem Safe.clientConfirm (hpos : 0 < cfg.client.W) (h : Safe cfg l f g) (now : ℕ) :
    Safe cfg { l with client := l.client.confirm now } f g.tell :=
  h.client h.joined.confirm head_append h.notStopping rfl hpos h.waiting

theorem clientReceive_safe (hpos : 0 < cfg.client.W) (h : Safe cfg l f g) {msg : List ℕ}
    {rest : List (List ℕ)} (hstream : l.server.socketStream = msg :: rest) (now : ℕ) :
    (∃ f' g', Safe cfg
        { client := l.client.handleMessage cfg.client now msg msg.length
          server := { l.server with socketStream := rest } } f' g' ∧ g'.acked = g.acked) ∧
      (l.client.handleMessage cfg.client now msg msg.length).transmitted = l.client.transmitted ∧
      (l.client.handleMessage cfg.client now msg msg.length).waitingToBeSent =
        l.client.waitingToBeSent := by
  obtain ⟨c, f', g', hc, hkept, hsize, hjoined, hacked⟩ := client_checkMessage h hstream now
  have hstate := hkept.state h.notStopping
  have hwaiting : ∀ asdu ∈ c.waitingToBeSent, cfg.Encoded asdu := by
    rw [hkept.waiting]
    exact h.waiting
  have hwindow := h.clientWindow
  have hkeptWindow := hkept.window
  unfold Connection.handleMessage
  rw [hc]
  dsimp only
  by_cases hfull : cfg.client.W ≤ c.unconfirmedReceivedIMessages
  · rw [if_pos (Or.inl hfull)]
    refine ⟨⟨f', g'.tell, ?_, hacked⟩, hkept.transmitted, hkept.waiting⟩
    exact h.clientReads hjoined.confirm (fun hhead => head_append (hkept.head hhead)) hstate hsize
      hpos hwaiting
  · rw [if_neg (not_or.mpr ⟨hfull, hstate⟩)]
    refine ⟨⟨f', g', ?_, hacked⟩, hkept.transmitted, hkept.waiting⟩
    exact h.clientReads hjoined hkept.head hstate hsize (Nat.lt_of_not_le hfull) hwaiting

/-- The end of the loop changes nothing else. -/
theorem Safe.clientStops (h : Safe cfg l f g) (running loopRunning : Bool) :
    Safe cfg { l with client := { l.client with running := running, loopRunning := loopRunning } }
      f g :=
  h.client h.joined (fun hhead => hhead) h.notStopping rfl h.clientWindow h.waiting

theorem clientTimeouts_safe (hpos : 0 < cfg.client.W) (h : Safe cfg l f g) (now : ℕ) :
    (∃ f' g', Safe cfg { l with client := l.client.handleTimeouts cfg.client now } f' g' ∧
        g'.acked = g.acked) ∧
      (l.client.handleTimeouts cfg.client now).transmitted = l.client.transmitted ∧
      (l.client.handleTimeouts cfg.client now).waitingToBeSent = l.client.waitingToBeSent := by
  -- the three tests one after the other, on the way to the end of the loop
  have hT3 : ∀ c, l.client.handleT3 cfg.client now = some c →
      Safe cfg { l with client := c } f g ∧ c.transmitted = l.client.transmitted ∧
        c.waitingToBeSent = l.client.waitingToBeSent := by
    intro c hc
    unfold Connection.handleT3 at hc
    split at hc
    next =>
      split at hc
      next => cases hc
      next =>
        cases hc
        exact ⟨h.client (h.joined.write testFrAct_client) head_append
          h.notStopping rfl h.clientWindow h.waiting, rfl, rfl⟩
    next =>
      cases hc
      exact ⟨h, rfl, rfl⟩
  have hT2 : ∀ (l : Link) (f g : Flow (List ℕ)), Safe cfg l f g →
      (∃ f' g', Safe cfg { l with client := l.client.handleT2 cfg.client now } f' g' ∧
          g'.acked = g.acked) ∧
        (l.client.handleT2 cfg.client now).transmitted = l.client.transmitted ∧
        (l.client.handleT2 cfg.client now).waitingToBeSent = l.client.waitingToBeSent := by
    intro l f g h
    unfold Connection.handleT2
    split
    next => exact ⟨⟨_, _, h.clientConfirm hpos now, rfl⟩, rfl, rfl⟩
    next => exact ⟨⟨_, _, h, rfl⟩, rfl, rfl⟩
  unfold Connection.handleTimeouts
  cases hthree : l.client.handleT3 cfg.client now with
  | none => exact ⟨⟨f, g, h.clientStops l.client.running false, rfl⟩, rfl, rfl⟩
  | some c =>
    obtain ⟨hsafe, htransmitted, hwaiting⟩ := hT3 c hthree
    obtain ⟨⟨f', g', hsafe', hacked⟩, htransmitted', hwaiting'⟩ := hT2 _ f g hsafe
    dsimp only at hsafe' htransmitted' hwaiting' ⊢
    split
    next =>
      exact ⟨⟨f', g', hsafe'.clientStops (c.handleT2 cfg.client now).running false, hacked⟩,
        htransmitted'.trans htransmitted, hwaiting'.trans hwaiting⟩
    next =>
      exact ⟨⟨f', g', hsafe', hacked⟩, htransmitted'.trans htransmitted,
        hwaiting'.trans hwaiting⟩

theorem clientClose_safe (hpos : 0 < cfg.client.W) (h : Safe cfg l f g) (now : ℕ) :
    (∃ f' g', Safe cfg { l with client := l.client.close now } f' g' ∧ g'.acked = g.acked) ∧
      (l.client.close now).transmitted = l.client.transmitted ∧
      (l.client.close now).waitingToBeSent = l.client.waitingToBeSent := by
  unfold Connection.close
  split
  next => exact ⟨⟨_, _, (h.clientConfirm hpos now).clientStops false false, rfl⟩, rfl, rfl⟩
  next => exact ⟨⟨_, _, h.clientStops false false, rfl⟩, rfl, rfl⟩

/-! The server. -/

/-- The server changes, and may have read from the client's stream. -/
theorem Safe.serverReads (h : Safe cfg l f g) {c : ClientConnection} {stream : List (List ℕ)}
    {f' g' : Flow (List ℕ)}
    (hjoined : Station.Joined cfg.Encoded clientOthers serverOthers
      (clientStation { l.client with netStream := stream }) (serverStation c) f' g')
    (hstarted : Started { client := { l.client with netStream := stream }, server := c })
    (hsize : c.kBuffer.maxSentASDUs = l.server.kBuffer.maxSentASDUs)
    (hwindow : c.unconfirmedReceivedIMessages < cfg.server.W)
    (hlow : c.lowPrioQueue.Filled cfg.Encoded) (hhigh : c.highPrioQueue.Stocked fun asdu _ => cfg.Encoded asdu) :
    Safe cfg { client := { l.client with netStream := stream }, server := c } f' g' :=
  ⟨hjoined, hstarted, h.notStopping, h.clientSize, hsize.trans h.serverSize, h.clientWindow,
    hwindow, h.waiting, hlow, hhigh⟩

/-- The server changes alone, and stays as active as it is. -/
theorem Safe.server (h : Safe cfg l f g) {c : ClientConnection} {f' g' : Flow (List ℕ)}
    (hjoined : Station.Joined cfg.Encoded clientOthers serverOthers (clientStation l.client)
      (serverStation c) f' g')
    (hactive : c.isActive = l.server.isActive) (hstate : c.state = l.server.state)
    (hsize : c.kBuffer.maxSentASDUs = l.server.kBuffer.maxSentASDUs)
    (hwindow : c.unconfirmedReceivedIMessages < cfg.server.W)
    (hlow : c.lowPrioQueue.Filled cfg.Encoded) (hhigh : c.highPrioQueue.Stocked fun asdu _ => cfg.Encoded asdu) :
    Safe cfg { l with server := c } f' g' := by
  have hstarted : Started { l with server := c } := by
    unfold Started
    dsimp only
    rw [hactive, hstate]
    exact h.started
  exact @Safe.serverReads _ _ _ _ h c l.client.netStream f' g' hjoined hstarted hsize hwindow
    hlow hhigh

theorem Safe.serverConfirm (hpos : 0 < cfg.server.W) (h : Safe cfg l f g) (now : ℕ) :
    Safe cfg { l with server := l.server.confirm now } f.tell g :=
  h.server h.joined.symm.confirm.symm rfl rfl rfl hpos h.low h.high

/-- An ASDU from a queue is sent while the k-buffer is not full. -/
theorem Safe.serverSends (hpos : 0 < cfg.server.W) (h : Safe cfg l f g)
    (hfree : l.server.kBuffer.isSentBufferFull = false) {taken : List ℕ × ℤ × ℕ}
    (hp : cfg.Encoded taken.1) (now : ℕ) :
    Safe cfg { l with server := l.server.sendTaken taken now } f.tell (g.send taken.1) :=
  h.server (h.joined.symm.send hfree ⟨taken.2.1, taken.2.2⟩ (now : ℤ) hp).symm rfl rfl
    (maxSentASDUs_update _ _) hpos h.low h.high

/-- The slot that an ASDU takes when it is sent. -/
def slot (c : ClientConnection) (taken : List ℕ × ℤ × ℕ) (now : ℕ) : SentASDU QueuePlace :=
  ⟨⟨taken.2.1, taken.2.2⟩, now, (c.sendCount + 1) % 32768⟩

theorem outstanding_sendTaken {c : ClientConnection} {n : ℕ} {k : List (SentASDU QueuePlace)}
    (hk : Outstanding c.kBuffer n k) (hfree : c.kBuffer.isSentBufferFull = false)
    (hcount : c.sendCount = (n + k.length) % sequenceNumbers) (taken : List ℕ × ℤ × ℕ)
    (now : ℕ) : Outstanding (c.sendTaken taken now).kBuffer n (k ++ [slot c taken now]) := by
  refine hk.update hfree ?_
  have hmod : (c.sendCount + 1) % sequenceNumbers = (n + k.length + 1) % sequenceNumbers := by
    rw [hcount, Nat.mod_add_mod]
  exact hmod

/-- The queues change alone. -/
theorem Safe.queues (h : Safe cfg l f g) {low high : ASDUQueue} (hlow : low.Filled cfg.Encoded)
    (hhigh : high.Stocked fun asdu _ => cfg.Encoded asdu) :
    Safe cfg { l with server :=
      { l.server with lowPrioQueue := low, highPrioQueue := high } } f g :=
  h.server h.joined rfl rfl rfl h.serverWindow hlow hhigh

theorem Safe.sendCount (h : Safe cfg l f g) :
    l.server.sendCount = l.server.transmitted.length % sequenceNumbers := by
  have hsent : l.server.transmitted = g.sent := h.joined.second.transmitted
  rw [hsent]
  exact h.joined.second.sendCount

theorem sendNextAvailable_safe (hpos : 0 < cfg.server.W) (h : Safe cfg l f g) (now : ℕ) :
    Reaches cfg l.server g.acked { l with server := l.server.sendNextAvailableASDU now } := by
  unfold ClientConnection.sendNextAvailableASDU
  split
  next => exact h.reaches
  next hfree =>
    have hfree := Bool.eq_false_iff.mpr hfree
    dsimp only
    split
    next => exact h.reaches
    next taken htaken =>
      obtain ⟨hlow, hp⟩ := h.low.getNext htaken
      exact ⟨_, _, (h.queues hlow h.high).serverSends hpos hfree hp now,
        .low hfree h.sendCount htaken now⟩

/-- There is an ASDU to take while the queue counts one. -/
theorem sendNextHighPriority_safe (hpos : 0 < cfg.server.W) (h : Safe cfg l f g)
    (havailable : l.server.highPrioQueue.IsHighPriorityAsduAvailable = true) (now : ℕ) :
    Reaches cfg l.server g.acked
      { l with server := (l.server.sendNextHighPriorityASDU now).2 } := by
  obtain ⟨hhigh, hall⟩ := h.high.getNext
  obtain ⟨taken, htaken⟩ := h.high.getNext_some (of_decide_eq_true havailable)
  unfold ClientConnection.sendNextHighPriorityASDU
  split
  next => exact h.reaches
  next hfree =>
    have hfree := Bool.eq_false_iff.mpr hfree
    dsimp only
    rw [htaken]
    exact ⟨_, _, (h.queues h.low hhigh).serverSends hpos hfree (hall taken htaken) now,
      .high hfree h.sendCount htaken now⟩

theorem sendHighPriority_safe (hpos : 0 < cfg.server.W) (now rounds : ℕ) :
    ∀ (l : Link) (f g : Flow (List ℕ)), Safe cfg l f g →
      Reaches cfg l.server g.acked
        { l with server := (ClientConnection.sendHighPriority now rounds l.server).2 } := by
  induction rounds with
  | zero => exact fun l f g h => h.reaches
  | succ rounds ih =>
    intro l f g h
    unfold ClientConnection.sendHighPriority
    split
    next havailable =>
      obtain ⟨f', g', hnext, hserved⟩ := sendNextHighPriority_safe hpos h havailable now
      dsimp only
      split
      next => exact .trans hserved (ih _ f' g' hnext)
      next => exact ⟨f', g', hnext, hserved⟩
    next => exact h.reaches

theorem sendWaitingASDUs_safe (hpos : 0 < cfg.server.W) (h : Safe cfg l f g) (now : ℕ) :
    Reaches cfg l.server g.acked { l with server := l.server.SendWaitingASDUs now } := by
  obtain ⟨f', g', hhigh, hserved⟩ := sendHighPriority_safe hpos now
    l.server.highPrioQueue.numberOfAsduInQueue l f g h
  unfold ClientConnection.SendWaitingASDUs
  dsimp only
  split
  next => exact .trans hserved (sendNextAvailable_safe hpos hhigh now)
  next => exact ⟨f', g', hhigh, hserved⟩

/-- The server as it is when the ASDU of a driver was put in its queue. -/
def enqueued (c : ClientConnection) : LinkAction → ClientConnection
  | .serverEnqueue asdu now =>
    { c with lowPrioQueue := (c.lowPrioQueue.EnqueueAsdu asdu now).getD c.lowPrioQueue }
  | .serverSend asdu now =>
    if c.isActive then
      { c with highPrioQueue := (c.highPrioQueue.EnqueueAsdu asdu now).getD c.highPrioQueue }
    else c
  | _ => c

theorem serverSend_safe (hpos : 0 < cfg.server.W) (h : Safe cfg l f g) {asdu : List ℕ}
    (hp : cfg.Encoded asdu) {now : ℕ} {c : ClientConnection}
    (hc : l.server.SendASDUInternal asdu now = some c) :
    Reaches cfg (enqueued l.server (.serverSend asdu now)) g.acked { l with server := c } := by
  unfold ClientConnection.SendASDUInternal at hc
  unfold enqueued
  dsimp only
  split at hc
  next hactive =>
    obtain ⟨q, hq, rfl⟩ := Option.map_eq_some_iff.mp hc
    rw [if_pos hactive, hq]
    exact sendWaitingASDUs_safe hpos (h.queues h.low (h.high.enqueue hp hq)) now
  next hactive =>
    cases hc
    rw [if_neg hactive]
    exact h.reaches

/-- What taking a message that confirms these ASDUs leaves of a started server beside its
station. -/
structure ServerKept (removed : List (SentASDU QueuePlace)) (c c' : ClientConnection) :
    Prop where
  active : c'.isActive = true
  state : c'.state = .M_CON_STATE_STARTED
  window : c'.unconfirmedReceivedIMessages ≤ c.unconfirmedReceivedIMessages + 1
  low : c'.lowPrioQueue = markAll removed c.lowPrioQueue
  high : c'.highPrioQueue = c.highPrioQueue

theorem server_startT2 (c : ClientConnection) (now : ℕ) :
    ∃ t b, c.startT2 now = { c with lastConfirmationTime := t, timeoutT2Triggered := b } := by
  unfold ClientConnection.startT2
  split
  · exact ⟨c.lastConfirmationTime, c.timeoutT2Triggered, rfl⟩
  · exact ⟨now, true, rfl⟩

theorem markAll_filled {P : List ℕ → Prop} (removed : List (SentASDU QueuePlace)) :
    ∀ q : ASDUQueue, q.Filled P → (markAll removed q).Filled P := by
  induction removed with
  | nil => exact fun _ h => h
  | cons slot rest ih =>
    intro q h
    exact ih _ (h.confirm slot.entry.queueIndex slot.entry.entryTime)

section Taken

variable {c : ClientConnection} {kBuffer : KBuffer QueuePlace}
  {removed : List (SentASDU QueuePlace)} {r : ℕ}

theorem server_handle_information (hactive : c.isActive = true)
    (hstate : c.state = .M_CON_STATE_STARTED) (now : ℕ) {asdu : List ℕ} (hcount : c.receiveCount < sequenceNumbers)
    (hr : r < sequenceNumbers) (hp : cfg.Encoded asdu)
    (hcheck : checkSequenceNumber c.kBuffer c.sendCount r = some (kBuffer, removed)) :
    ∃ c', c.HandleMessage cfg.server now (iMessage c.receiveCount r asdu)
        (iMessage c.receiveCount r asdu).length = (true, c') ∧
      serverStation c' = ((serverStation c).hear kBuffer).take asdu ∧ ServerKept removed c c' := by
  obtain ⟨t, b, hstart⟩ := server_startT2 c now
  obtain ⟨-, hheader, hmax⟩ := hp
  have hheader' : 2 ≤ cfg.server.asduHeaderSize := by
    unfold APCIParameters.asduHeaderSize
    omega
  have hsmall : ¬6 + asdu.length < 3 := by omega
  have hsize : ¬6 + asdu.length < 7 := by omega
  have hfits : ¬6 + asdu.length - 6 < cfg.server.asduHeaderSize := by omega
  have hzero : octet (iMessage c.receiveCount r asdu) 0 = 0x68 := rfl
  have hone : octet (iMessage c.receiveCount r asdu) 1 = 6 + asdu.length - 2 := by
    have hoctet : octet (iMessage c.receiveCount r asdu) 1 = (6 + asdu.length - 2) % 256 := rfl
    rw [hoctet]
    exact Nat.mod_eq_of_lt (by omega)
  have htake : ((iMessage c.receiveCount r asdu).take (6 + asdu.length)).drop 6 = asdu := by
    rw [← length_iMessage c.receiveCount r asdu, List.take_length, drop_iMessage]
  have hhandled : ∃ c', c.handleI cfg.server now (iMessage c.receiveCount r asdu)
      (6 + asdu.length) = (true, c') ∧
      serverStation c' = ((serverStation c).hear kBuffer).take asdu ∧ ServerKept removed c c' := by
    unfold ClientConnection.handleI
    rw [hstart]
    simp only [hsize, if_false, hstate, ne_eq, not_true_eq_false, iSequence_send hcount,
      iSequence_receive hr, ClientConnection.CheckSequenceNumber, hcheck, Option.map_some,
      ClientConnection.countReceived, hactive, if_true, hfits]
    rw [htake]
    exact ⟨_, rfl, rfl, rfl, rfl, le_rfl, rfl, rfl⟩
  obtain ⟨c', hc', hstation, hkept⟩ := hhandled
  unfold ClientConnection.HandleMessage
  rw [length_iMessage]
  simp only [hsmall, if_false, hzero, ne_eq, not_true_eq_false, hone,
    octet_iMessage_even, if_true, hc']
  exact ⟨_, rfl, hstation, hkept.active, hkept.state, hkept.window, hkept.low, hkept.high⟩

theorem server_handle_supervisory (hactive : c.isActive = true)
    (hstate : c.state = .M_CON_STATE_STARTED) (now : ℕ) (hr : r < sequenceNumbers)
    (hcheck : checkSequenceNumber c.kBuffer c.sendCount r = some (kBuffer, removed)) :
    ∃ c', c.HandleMessage cfg.server now (sMessage r) (sMessage r).length = (true, c') ∧
      serverStation c' = (serverStation c).hear kBuffer ∧ ServerKept removed c c' := by
  have hoctet : octet (sMessage r) 2 = 1 := rfl
  have hzero : octet (sMessage r) 0 = 0x68 := rfl
  have hone : octet (sMessage r) 1 = 4 := rfl
  have hlen : (sMessage r).length = 6 := rfl
  have hhandled : ∃ c', c.handleS (sMessage r) = (true, c') ∧
      serverStation c' = (serverStation c).hear kBuffer ∧ ServerKept removed c c' := by
    unfold ClientConnection.handleS
    rw [sSequence_eq hr]
    simp only [ClientConnection.CheckSequenceNumber, hcheck, Option.map_some, hstate]
    exact ⟨_, rfl, rfl, hactive, rfl, Nat.le_succ _, rfl, rfl⟩
  obtain ⟨c', hc', hstation, hkept⟩ := hhandled
  unfold ClientConnection.HandleMessage
  rw [hlen, hoctet, hzero, hone]
  rw [if_neg (by decide), if_neg (by decide), if_neg (by decide), if_neg (by decide),
    if_neg (by decide), if_neg (by decide), if_neg (by decide), if_neg (by decide),
    if_pos rfl, hc']
  exact ⟨_, rfl, hstation, hkept.active, hkept.state, hkept.window, hkept.low, hkept.high⟩

end Taken

/-- A message of the client without a number is taken, and answered where it asks for it.
The request to start makes the server active, and any other comes after that one. -/
theorem server_handle_unnumbered (h : Safe cfg l f g) {u : List ℕ} {rest : List (List ℕ)}
    (hstream : l.client.netStream = u :: rest) (hu : u ∈ clientOthers) (now : ℕ) :
    ∃ c', l.server.HandleMessage cfg.server now u u.length = (true, c') ∧
      ServerKept [] l.server c' ∧ (serverStation c' = serverStation l.server ∨
        ∃ u' ∈ serverOthers, serverStation c' = (serverStation l.server).write u') := by
  simp only [clientOthers, List.mem_cons, List.not_mem_nil, or_false] at hu
  have hactive : u ≠ STARTDT_ACT_MSG →
      l.server.isActive = true ∧ l.server.state = .M_CON_STATE_STARTED := by
    intro hne
    rcases h.started with hactive | ⟨-, hhead⟩
    · exact hactive
    · rw [hstream, List.head?_cons, Option.some.injEq] at hhead
      exact absurd hhead hne
  have hcode : ∀ code, octet [0x68, 0x04, code, 0x00, 0x00, 0x00] 2 = code := fun _ => rfl
  unfold ClientConnection.HandleMessage
  rcases hu with rfl | rfl | rfl
  · rw [STARTDT_ACT_MSG, hcode]
    rw [if_neg (by decide), if_neg (by decide), if_neg (by decide), if_neg (by decide),
      if_neg (by decide), if_pos (by decide)]
    unfold ClientConnection.handleStartDT
    rcases h.started with ⟨hact, hstate⟩ | ⟨hinactive, -⟩
    · rw [if_pos hact]
      exact ⟨_, rfl, ⟨hact, hstate, Nat.le_succ _, rfl, rfl⟩,
        Or.inr ⟨STARTDT_CON_MSG, by decide, rfl⟩⟩
    · rw [if_neg (by rw [hinactive]; decide)]
      exact ⟨_, rfl, ⟨rfl, rfl, Nat.le_succ _, rfl, rfl⟩,
        Or.inr ⟨STARTDT_CON_MSG, by decide, rfl⟩⟩
  · obtain ⟨hact, hstate⟩ := hactive (by decide)
    rw [TESTFR_ACT_MSG, hcode]
    rw [if_neg (by decide), if_neg (by decide), if_neg (by decide), if_neg (by decide),
      if_pos (by decide)]
    exact ⟨_, rfl, ⟨hact, hstate, Nat.le_succ _, rfl, rfl⟩,
      Or.inr ⟨TESTFR_CON_MSG, by decide, rfl⟩⟩
  · obtain ⟨hact, hstate⟩ := hactive (by decide)
    rw [TESTFR_CON_MSG, hcode]
    rw [if_neg (by decide), if_neg (by decide), if_neg (by decide), if_neg (by decide),
      if_neg (by decide), if_neg (by decide), if_neg (by decide), if_pos (by decide)]
    exact ⟨_, rfl, ⟨hact, hstate, Nat.le_succ _, rfl, rfl⟩, Or.inl rfl⟩

/-- The server takes whatever the client wrote next. -/
theorem server_HandleMessage (h : Safe cfg l f g) {msg : List ℕ} {rest : List (List ℕ)}
    (hstream : l.client.netStream = msg :: rest) (now : ℕ) :
    ∃ c f' g' removed, l.server.HandleMessage cfg.server now msg msg.length = (true, c) ∧
      ServerKept removed l.server c ∧
      c.kBuffer.maxSentASDUs = l.server.kBuffer.maxSentASDUs ∧
      Station.Joined cfg.Encoded clientOthers serverOthers
        (clientStation { l.client with netStream := rest }) (serverStation c) f' g' ∧
      Served l.server g.acked c g'.acked := by
  have hread : clientStation { l.client with netStream := rest } =
      (clientStation l.client).read := by
    unfold Station.read clientStation
    simp only [hstream, List.drop_succ_cons, List.drop_zero]
  have hmod : ∀ n : ℕ, n % sequenceNumbers < sequenceNumbers :=
    fun n => Nat.mod_lt n (by decide)
  have hcount : l.server.receiveCount < sequenceNumbers := by
    have hknown : l.server.receiveCount = _ := h.joined.second.receiveCount
    rw [hknown]
    exact hmod _
  have hstarted : octet msg 2 ≠ 7 →
      l.server.isActive = true ∧ l.server.state = .M_CON_STATE_STARTED := by
    intro hne
    rcases h.started with hactive | ⟨-, hhead⟩
    · exact hactive
    · rw [hstream, List.head?_cons, Option.some.injEq] at hhead
      exact absurd (congrArg (octet · 2) hhead) hne
  obtain ⟨k, hk, hlen⟩ := h.joined.second.outstanding
  have hlen' : g.acked + k.length = l.server.transmitted.length := by
    have hsent : l.server.transmitted = g.sent := h.joined.second.transmitted
    rw [hlen, hsent]
  rw [hread]
  rcases h.joined.symm.receive hstream hk hlen with
    ⟨r, asdu, kBuffer, rfl, hp, hcheck, hsize, hr, hk', hjoined⟩ |
    ⟨r, kBuffer, rfl, hcheck, hsize, hr, hk', hjoined⟩ | ⟨hu, hjoined⟩
  · have hne : octet (iMessage l.server.receiveCount (r % sequenceNumbers) asdu) 2 ≠ 7 := by
      have hoctet : octet (iMessage l.server.receiveCount (r % sequenceNumbers) asdu) 2 =
          l.server.receiveCount % 128 * 2 % 256 := rfl
      omega
    obtain ⟨hactive, hstate⟩ := hstarted hne
    obtain ⟨c, hc, hstation, hkept⟩ := server_handle_information hactive hstate now hcount
      (hmod r) hp hcheck
    have hbuffer : c.kBuffer = kBuffer := congrArg Station.kBuffer hstation
    have htransmitted : c.transmitted = l.server.transmitted :=
      congrArg Station.transmitted hstation
    have hjoined' := hjoined.symm
    rw [← hstation] at hjoined'
    exact ⟨c, _, _, _, hc, hkept, hbuffer ▸ hsize, hjoined',
      .hears hk hlen' hr (hbuffer ▸ hk') htransmitted hkept.low hkept.high⟩
  · have hoctet : octet (sMessage (r % sequenceNumbers)) 2 = 1 := rfl
    obtain ⟨hactive, hstate⟩ := hstarted (by rw [hoctet]; decide)
    obtain ⟨c, hc, hstation, hkept⟩ := server_handle_supervisory hactive hstate now (hmod r)
      hcheck
    have hbuffer : c.kBuffer = kBuffer := congrArg Station.kBuffer hstation
    have htransmitted : c.transmitted = l.server.transmitted :=
      congrArg Station.transmitted hstation
    have hjoined' := hjoined.symm
    rw [← hstation] at hjoined'
    exact ⟨c, _, _, _, hc, hkept, hbuffer ▸ hsize, hjoined',
      .hears hk hlen' hr (hbuffer ▸ hk') htransmitted hkept.low hkept.high⟩
  · obtain ⟨c, hc, hkept, hstation⟩ := server_handle_unnumbered h hstream hu now
    rcases hstation with hstation | ⟨u, hmem, hstation⟩
    · have hbuffer : c.kBuffer = l.server.kBuffer := congrArg Station.kBuffer hstation
      have htransmitted : c.transmitted = l.server.transmitted :=
        congrArg Station.transmitted hstation
      have hjoined' := hjoined.symm
      rw [← hstation] at hjoined'
      exact ⟨c, _, _, _, hc, hkept, by rw [hbuffer], hjoined',
        .same ⟨hbuffer, htransmitted, hkept.low, hkept.high⟩⟩
    · have hbuffer : c.kBuffer = l.server.kBuffer := congrArg Station.kBuffer hstation
      have htransmitted : c.transmitted = l.server.transmitted :=
        congrArg Station.transmitted hstation
      have hwrite := (hjoined.write hmem).symm
      rw [← hstation] at hwrite
      exact ⟨c, _, _, _, hc, hkept, by rw [hbuffer], hwrite,
        .same ⟨hbuffer, htransmitted, hkept.low, hkept.high⟩⟩

theorem serverReceive_safe (hpos : 0 < cfg.server.W) (h : Safe cfg l f g) {msg : List ℕ}
    {rest : List (List ℕ)} (hstream : l.client.netStream = msg :: rest) (now : ℕ) :
    Reaches cfg l.server g.acked
      { client := { l.client with netStream := rest }
        server := l.server.receive cfg.server now msg msg.length } := by
  obtain ⟨c, f', g', removed, hc, hkept, hsize, hjoined, hserved⟩ :=
    server_HandleMessage h hstream now
  have hlow : c.lowPrioQueue.Filled cfg.Encoded := by
    rw [hkept.low]
    exact markAll_filled removed _ h.low
  have hhigh : c.highPrioQueue.Stocked fun asdu _ => cfg.Encoded asdu := by
    rw [hkept.high]
    exact h.high
  unfold ClientConnection.receive
  rw [hc]
  dsimp only
  by_cases hfull : cfg.server.W ≤ c.unconfirmedReceivedIMessages
  · rw [if_pos hfull]
    exact ⟨_, _, h.serverReads hjoined.symm.confirm.symm (Or.inl ⟨hkept.active, hkept.state⟩)
      hsize hpos hlow hhigh, .trans hserved (.same ⟨rfl, rfl, rfl, rfl⟩)⟩
  · rw [if_neg hfull]
    exact ⟨_, _, h.serverReads hjoined (Or.inl ⟨hkept.active, hkept.state⟩) hsize
      (Nat.lt_of_not_le hfull) hlow hhigh, .trans hserved (.same ⟨rfl, rfl, rfl, rfl⟩)⟩

/-- A server whose station and queues stay as they are. -/
theorem Safe.serverKeeps (h : Safe cfg l f g) {c : ClientConnection}
    (hstation : serverStation c = serverStation l.server)
    (hactive : c.isActive = l.server.isActive) (hstate : c.state = l.server.state)
    (hlow : c.lowPrioQueue = l.server.lowPrioQueue)
    (hhigh : c.highPrioQueue = l.server.highPrioQueue) : Safe cfg { l with server := c } f g := by
  have hbuffer : c.kBuffer = l.server.kBuffer := congrArg Station.kBuffer hstation
  have hcount : c.unconfirmedReceivedIMessages = l.server.unconfirmedReceivedIMessages :=
    congrArg Station.unconfirmed hstation
  refine h.server ?_ hactive hstate (by rw [hbuffer]) ?_ ?_ ?_
  · rw [hstation]
    exact h.joined
  · rw [hcount]
    exact h.serverWindow
  · rw [hlow]
    exact h.low
  · rw [hhigh]
    exact h.high

theorem serverT3_safe (h : Safe cfg l f g) (now : ℕ) :
    Safe cfg { l with server := l.server.handleT3 cfg.server now } f g := by
  -- an implausible time is set anew
  have hcheck : Safe cfg { l with server := (l.server.CheckT3Timeout cfg.server now).2 } f g := by
    unfold ClientConnection.CheckT3Timeout
    split
    next => exact h
    next =>
      dsimp only
      split
      next => exact h.serverKeeps rfl rfl rfl rfl rfl
      next => exact h
  unfold ClientConnection.handleT3
  dsimp only
  split
  next =>
    exact hcheck.server (hcheck.joined.symm.write testFrAct_server).symm rfl rfl
      rfl hcheck.serverWindow hcheck.low hcheck.high
  next => exact hcheck

/-- The tests of the times leave the ASDUs alone. -/
theorem handleTimeouts_same (p : APCIParameters) (c : ClientConnection) (now : ℕ) :
    SameAsdus c (c.handleTimeouts p now) := by
  have hT3 : SameAsdus c (c.handleT3 p now) := by
    have hcheck : SameAsdus c (c.CheckT3Timeout p now).2 := by
      unfold ClientConnection.CheckT3Timeout
      split
      next => exact ⟨rfl, rfl, rfl, rfl⟩
      next =>
        dsimp only
        split <;> exact ⟨rfl, rfl, rfl, rfl⟩
    refine hcheck.trans ?_
    unfold ClientConnection.handleT3
    dsimp only
    split <;> exact ⟨rfl, rfl, rfl, rfl⟩
  unfold ClientConnection.handleTimeouts
  refine hT3.trans ?_
  dsimp only
  generalize c.handleT3 p now = c
  have hcon : SameAsdus c (if c.waitingForTestFRcon then
      c.CheckTestFRConTimeout p now else (false, c)).2 := by
    unfold ClientConnection.CheckTestFRConTimeout
    split
    next =>
      dsimp only
      split <;> exact ⟨rfl, rfl, rfl, rfl⟩
    next => exact ⟨rfl, rfl, rfl, rfl⟩
  generalize (if c.waitingForTestFRcon then c.CheckTestFRConTimeout p now else (false, c)) = con
    at hcon ⊢
  refine hcon.trans ?_
  split
  next => exact ⟨rfl, rfl, rfl, rfl⟩
  next =>
    unfold ClientConnection.handleT2
    split <;> split <;> exact ⟨rfl, rfl, rfl, rfl⟩

theorem serverTimeouts_safe (hpos : 0 < cfg.server.W) (h : Safe cfg l f g) (now : ℕ) :
    ∃ f', Safe cfg { l with server := l.server.handleTimeouts cfg.server now } f' g := by
  have hT3 := serverT3_safe h now
  unfold ClientConnection.handleTimeouts
  dsimp only
  generalize l.server.handleT3 cfg.server now = c at hT3 ⊢
  have hcon : Safe cfg { l with server := (if c.waitingForTestFRcon then
      c.CheckTestFRConTimeout cfg.server now else (false, c)).2 } f g := by
    split
    next =>
      unfold ClientConnection.CheckTestFRConTimeout
      dsimp only
      split
      next => exact hT3.serverKeeps rfl rfl rfl rfl rfl
      next => exact hT3
    next => exact hT3
  generalize (if c.waitingForTestFRcon then
      c.CheckTestFRConTimeout cfg.server now else (false, c)) = con at hcon ⊢
  split
  next => exact ⟨f, hcon.serverKeeps rfl rfl rfl rfl rfl⟩
  next =>
    have hT2 : ∃ f', Safe cfg { l with server := con.2.handleT2 cfg.server now } f' g := by
      unfold ClientConnection.handleT2
      split
      next => exact ⟨_, hcon.serverConfirm hpos now⟩
      next => exact ⟨f, hcon⟩
    obtain ⟨f', hT2⟩ := hT2
    split
    next => exact ⟨f', hT2.serverKeeps rfl rfl rfl rfl rfl⟩
    next => exact ⟨f', hT2⟩

/-! The system. -/

/-- The ASDUs the client has from its driver, those it sent and those that wait. -/
def handed (l : Link) : List (List ℕ) := l.client.transmitted ++ l.client.waitingToBeSent

theorem submitted_append (as bs : List LinkAction) :
    submitted (as ++ bs) = submitted as ++ submitted bs :=
  List.filterMap_append

/-- What the client does leaves the ASDUs of the server alone. -/
theorem reaches_of_client {c : ClientConnection} {l' : Link}
    (h : ∃ f' g', Safe cfg l' f' g' ∧ g'.acked = g.acked) (hsame : SameAsdus c l'.server) :
    Reaches cfg c g.acked l' := by
  obtain ⟨f', g', hsafe, hacked⟩ := h
  refine ⟨f', g', hsafe, ?_⟩
  rw [hacked]
  exact .same hsame

/-- A step keeps the ends safe, and the client loses none of the ASDUs of its driver. -/
theorem step_safe (hv : cfg.Valid) (h : Safe cfg l f g) {a : LinkAction}
    (ha : a.Encoded cfg) {l' : Link} (hs : l.step cfg a = some l') :
    Reaches cfg (enqueued l.server a) g.acked l' ∧ handed l' = handed l ++ submitted [a] := by
  have hkept : ∀ {l' : Link} {a : LinkAction}, submitted [a] = [] →
      l'.client.transmitted = l.client.transmitted →
      l'.client.waitingToBeSent = l.client.waitingToBeSent →
      handed l' = handed l ++ submitted [a] := by
    intro l' a hnone htransmitted hwaiting
    rw [hnone, List.append_nil, handed, htransmitted, hwaiting, handed]
  cases a with
  | clientSend asdu now =>
    obtain ⟨c, hc, rfl⟩ := Option.map_eq_some_iff.mp hs
    unfold Connection.SendASDUInternal at hc
    split at hc
    next hrunning =>
      have hqueued : Safe cfg { l with client :=
          { l.client with waitingToBeSent := l.client.waitingToBeSent ++ [asdu] } } f g := by
        refine h.client h.joined (fun hhead => hhead) h.notStopping rfl h.clientWindow ?_
        intro x hx
        rcases List.mem_append.mp hx with hx | hx
        · exact h.waiting x hx
        · exact List.mem_singleton.mp hx ▸ ha
      unfold Connection.SendNextWaitingASDU at hc
      rw [if_pos hrunning] at hc
      cases hc
      obtain ⟨hsafe, hall⟩ := sendWaiting_safe hv.clientW now _ _ f g hqueued rfl
      refine ⟨reaches_of_client hsafe ⟨rfl, rfl, rfl, rfl⟩, hall.trans ?_⟩
      rw [handed, List.append_assoc]
      rfl
    next => cases hc
  | clientReceive now =>
    simp only [Link.step] at hs
    split at hs
    next msg rest _ hstream =>
      cases hs
      obtain ⟨hsafe, htransmitted, hwaiting⟩ := clientReceive_safe hv.clientW h hstream now
      exact ⟨reaches_of_client hsafe ⟨rfl, rfl, rfl, rfl⟩, hkept rfl htransmitted hwaiting⟩
    next => cases hs
  | clientTimeouts now =>
    simp only [Link.step] at hs
    split at hs
    next =>
      cases hs
      obtain ⟨hsafe, htransmitted, hwaiting⟩ := clientTimeouts_safe hv.clientW h now
      exact ⟨reaches_of_client hsafe ⟨rfl, rfl, rfl, rfl⟩, hkept rfl htransmitted hwaiting⟩
    next => cases hs
  | clientSendNext now =>
    obtain ⟨c, hc, rfl⟩ := Option.map_eq_some_iff.mp hs
    unfold Connection.SendNextWaitingASDU at hc
    split at hc
    next =>
      cases hc
      obtain ⟨hsafe, hall⟩ := sendWaiting_safe hv.clientW now _ l f g h rfl
      refine ⟨reaches_of_client hsafe ⟨rfl, rfl, rfl, rfl⟩, hall.trans ?_⟩
      rw [← handed]
      exact (List.append_nil _).symm
    next => cases hc
  | clientClose now =>
    simp only [Link.step] at hs
    split at hs
    next =>
      cases hs
      obtain ⟨hsafe, htransmitted, hwaiting⟩ := clientClose_safe hv.clientW h now
      exact ⟨reaches_of_client hsafe ⟨rfl, rfl, rfl, rfl⟩, hkept rfl htransmitted hwaiting⟩
    next => cases hs
  | serverEnqueue asdu now =>
    simp only [Link.step, Option.some.injEq] at hs
    simp only [enqueued]
    cases hq : l.server.lowPrioQueue.EnqueueAsdu asdu now with
    | none =>
      rw [hq] at hs
      cases hs
      exact ⟨h.reaches, hkept rfl rfl rfl⟩
    | some q =>
      rw [hq] at hs
      cases hs
      exact ⟨(h.queues (h.low.enqueue ha hq) h.high).reaches, hkept rfl rfl rfl⟩
  | serverSend asdu now =>
    simp only [Link.step, Option.some.injEq] at hs
    cases hc : l.server.SendASDUInternal asdu now with
    | none =>
      rw [hc] at hs
      cases hs
      refine ⟨?_, hkept rfl rfl rfl⟩
      -- the queue was full and stays as it is
      unfold ClientConnection.SendASDUInternal at hc
      split at hc
      next hactive =>
        rw [enqueued, if_pos hactive, Option.map_eq_none_iff.mp hc]
        exact h.reaches
      next => cases hc
    | some c =>
      rw [hc] at hs
      cases hs
      exact ⟨serverSend_safe hv.serverW h ha hc, hkept rfl rfl rfl⟩
  | serverReceive now =>
    simp only [Link.step] at hs
    split at hs
    next msg rest _ hstream =>
      cases hs
      exact ⟨serverReceive_safe hv.serverW h hstream now, hkept rfl rfl rfl⟩
    next => cases hs
  | serverTimeouts now =>
    simp only [Link.step] at hs
    split at hs
    next =>
      cases hs
      obtain ⟨f', hsafe⟩ := serverTimeouts_safe hv.serverW h now
      exact ⟨⟨f', g, hsafe, .same (handleTimeouts_same ..)⟩, hkept rfl rfl rfl⟩
    next => cases hs
  | serverSendWaiting now =>
    simp only [Link.step, Option.some.injEq] at hs
    cases hs
    refine ⟨?_, hkept rfl rfl rfl⟩
    unfold ClientConnection.ASDUReadyToSend
    split
    next => exact sendWaitingASDUs_safe hv.serverW h now
    next => exact h.reaches

/-- Every state of a run is safe, and the client has all the ASDUs its driver sent. -/
theorem run_safe (hv : cfg.Valid) {now : ℕ} {as : List LinkAction}
    (has : ∀ a ∈ as, a.Encoded cfg)
    (hr : Machine.run (Link.step cfg) (Link.start cfg now) as = some l) :
    (∃ f g, Safe cfg l f g) ∧ handed l = submitted as := by
  have hinv := Machine.run_trace_invariant (P := fun _ a => a.Encoded cfg)
    (I := fun as l => (∃ f g, Safe cfg l f g) ∧ handed l = submitted as)
    (fun as l a l' ha hi hs => by
      obtain ⟨⟨f, g, h⟩, hall⟩ := hi
      obtain ⟨⟨f', g', hsafe, -⟩, hnext⟩ := step_safe hv h ha hs
      exact ⟨⟨f', g', hsafe⟩, by rw [hnext, hall, submitted_append]⟩)
    (Machine.every_of_forall_mem has)
    ⟨⟨_, _, Safe.start hv (ASDUQueue.Filled.new hv.low cfg.enqueueMode) now⟩, rfl⟩ hr
  exact hinv

end JsonScada.System.LinkInvariant
