/- path: JsonScada/Cs104/Framing
   source: lib60870.netcore/lib60870/CS104/Connection.cs, ClientConnection.cs
   digest: The messages are read from a stream of octets that arrives in pieces of any size. -/

import JsonScada.Lib.Machine

set_option autoImplicit false
set_option relaxedAutoImplicit false

namespace JsonScada.Cs104

open JsonScada.Lib

inductive ReadState where
  | idle
  | startReceived
  | readingRemaining
  deriving DecidableEq, Repr

/-- The fields that `receiveMessage` keeps between its calls, and the buffer it fills. -/
structure Reader where
  readState : ReadState := .idle
  currentReadPos : ℕ := 0
  currentReadMsgLength : ℕ := 0
  remainingReadLength : ℕ := 0
  currentReadTimeout : ℕ := 0
  buffer : List ℕ := List.replicate 300 0
  deriving DecidableEq, Repr

/-- A call: the time, whether the socket has something to read, and the most octets its
read of the remaining ones gets. No octet within the time a read waits is an exception. -/
structure ReadCall where
  now : ℕ
  ready : Bool
  lengthArrives : Bool
  octets : ℕ
  deriving DecidableEq, Repr

/-- What a call comes to: 0, -1, the size of a message, or the exception of a read. -/
inductive ReadResult where
  | incomplete
  | invalid
  | message (size : ℕ)
  | exception
  deriving DecidableEq, Repr

namespace Reader

/-- Octets go into the buffer from a position on. -/
def fill (buffer : List ℕ) (pos : ℕ) (octets : List ℕ) : List ℕ :=
  buffer.take pos ++ octets ++ buffer.drop (pos + octets.length)

/-- The last lines of a call, which start the time of a message that is incomplete. -/
def startTimeout (receiveTimeout now : ℕ) (r : Reader) : Reader :=
  if r.currentReadTimeout = 0 then { r with currentReadTimeout := now + receiveTimeout } else r

/-- The octets after the length. -/
def readRemaining (receiveTimeout : ℕ) (call : ReadCall) (r : Reader) (stream : List ℕ) :
    ReadResult × Reader × List ℕ :=
  let octets := stream.take (min call.octets r.remainingReadLength)
  if octets = [] ∧ r.remainingReadLength ≠ 0 then (.exception, r, stream)
  else
    let r := { r with buffer := fill r.buffer r.currentReadPos octets }
    if octets.length = r.remainingReadLength then
      (.message (2 + r.currentReadMsgLength),
        { r with readState := .idle, currentReadTimeout := 0 }, stream.drop octets.length)
    else
      (.incomplete, startTimeout receiveTimeout call.now
        { r with
          currentReadPos := r.currentReadPos + octets.length
          remainingReadLength := r.remainingReadLength - octets.length },
        stream.drop octets.length)

/-- The length, and what follows it. -/
def readLength (receiveTimeout : ℕ) (call : ReadCall) (r : Reader) (stream : List ℕ) :
    ReadResult × Reader × List ℕ :=
  match call.lengthArrives, stream with
  | true, length :: stream =>
    readRemaining receiveTimeout call
      { r with
        buffer := fill r.buffer 1 [length]
        currentReadMsgLength := length
        remainingReadLength := length
        currentReadPos := 2
        readState := .readingRemaining } stream
  | _, _ => (.exception, r, stream)

/-- The reads of a call, by the state the calls before left. -/
def readOn (receiveTimeout : ℕ) (r : Reader) (call : ReadCall) (stream : List ℕ) :
    ReadResult × Reader × List ℕ :=
  match r.readState with
  | .idle =>
    match stream with
    | [] => (.exception, r, [])
    | start :: stream =>
      let r := { r with buffer := fill r.buffer 0 [start] }
      if start ≠ 0x68 then (.invalid, r, stream)
      else readLength receiveTimeout call { r with readState := .startReceived } stream
  | .startReceived => readLength receiveTimeout call r stream
  | .readingRemaining => readRemaining receiveTimeout call r stream

/-- `receiveMessage`, on the octets still to come. -/
def receiveMessage (receiveTimeout : ℕ) (r : Reader) (call : ReadCall) (stream : List ℕ) :
    ReadResult × Reader × List ℕ :=
  if r.readState ≠ .idle ∧ r.currentReadTimeout < call.now then (.invalid, r, stream)
  else if call.ready then readOn receiveTimeout r call stream
  else (.incomplete, r, stream)

end Reader

/-- A reader at its stream, with the messages it got from it. -/
structure Reading where
  reader : Reader := {}
  stream : List ℕ
  messages : List (List ℕ) := []
  deriving DecidableEq, Repr

/-- A call that ends with an exception, or with a message that is invalid or late, ends the
connection. -/
def Reading.step (receiveTimeout : ℕ) (s : Reading) (call : ReadCall) : Option Reading :=
  match s.reader.receiveMessage receiveTimeout call s.stream with
  | (.incomplete, reader, stream) => some { s with reader := reader, stream := stream }
  | (.message size, reader, stream) =>
    some ⟨reader, stream, s.messages ++ [reader.buffer.take size]⟩
  | _ => none

/-- A message as the two ends write them: its start, the number of the octets that follow,
and these. -/
structure Framed (msg : List ℕ) : Prop where
  start : msg[0]? = some 0x68
  length : msg[1]? = some (msg.length - 2)
  more : 2 < msg.length
  short : msg.length < 258

theorem Framed.eq_cons {msg : List ℕ} (h : Framed msg) :
    ∃ body, msg = 0x68 :: body.length :: body := by
  obtain ⟨hstart, hlength, hmore, -⟩ := h
  match msg with
  | [] => cases hstart
  | [a] => cases hlength
  | a :: b :: body =>
    cases hstart
    rw [List.getElem?_cons_succ, List.getElem?_cons_zero, Option.some.injEq] at hlength
    refine ⟨body, ?_⟩
    rw [hlength]
    rfl

namespace Reader

theorem length_fill {buffer octets : List ℕ} {pos : ℕ}
    (h : pos + octets.length ≤ buffer.length) : (fill buffer pos octets).length = buffer.length := by
  unfold fill
  rw [List.length_append, List.length_append, List.length_take, List.length_drop]
  omega

theorem take_fill {buffer octets : List ℕ} {pos : ℕ} (h : pos ≤ buffer.length) :
    (fill buffer pos octets).take (pos + octets.length) = buffer.take pos ++ octets := by
  unfold fill
  refine List.take_left' ?_
  rw [List.length_append, List.length_take, Nat.min_eq_left h]

/-- The reader has the first `n` octets of the message, and reads the others next. -/
structure Inside (r : Reader) (msg : List ℕ) (n : ℕ) : Prop where
  state : r.readState = .readingRemaining
  pos : r.currentReadPos = n
  size : r.currentReadMsgLength = msg.length - 2
  remaining : r.remainingReadLength = msg.length - n
  buffer : r.buffer.length = 300
  taken : r.buffer.take n = msg.take n

theorem Inside.startTimeout {r : Reader} {msg : List ℕ} {n timeout now : ℕ}
    (h : Inside r msg n) : Inside (Reader.startTimeout timeout now r) msg n := by
  unfold Reader.startTimeout
  split
  · exact ⟨h.state, h.pos, h.size, h.remaining, h.buffer, h.taken⟩
  · exact h

/-- The read of the remaining octets completes the message, or leaves the reader further
inside it. -/
theorem readRemaining_inside (timeout : ℕ) {call : ReadCall} {r : Reader} {msg rest : List ℕ}
    {n : ℕ} (h : Inside r msg n) (hn : n < msg.length) (hmsg : Framed msg)
    (hoctets : call.octets ≠ 0) :
    (∃ r', readRemaining timeout call r (msg.drop n ++ rest) = (.message msg.length, r', rest) ∧
        r'.readState = .idle ∧ r'.buffer.length = 300 ∧ r'.buffer.take msg.length = msg) ∨
      ∃ r' n', readRemaining timeout call r (msg.drop n ++ rest) =
          (.incomplete, r', msg.drop n' ++ rest) ∧ n' < msg.length ∧ Inside r' msg n' := by
  have hmore := hmsg.more
  have hshort := hmsg.short
  have htake : (msg.drop n ++ rest).take (min call.octets (msg.length - n)) =
      (msg.drop n).take (min call.octets (msg.length - n)) := by
    refine List.take_append_of_le_length ?_
    rw [List.length_drop]
    exact Nat.min_le_right _ _
  have hlen : ((msg.drop n).take (min call.octets (msg.length - n))).length =
      min call.octets (msg.length - n) := by
    rw [List.length_take, List.length_drop]
    omega
  have hdrop : (msg.drop n ++ rest).drop (min call.octets (msg.length - n)) =
      msg.drop (n + min call.octets (msg.length - n)) ++ rest := by
    rw [List.drop_append_of_le_length (by rw [List.length_drop]; exact Nat.min_le_right _ _),
      List.drop_drop]
  have hsome : ¬((msg.drop n).take (min call.octets (msg.length - n)) = [] ∧
      msg.length - n ≠ 0) := by
    rintro ⟨hnil, -⟩
    rw [hnil, List.length_nil] at hlen
    omega
  have hbuffer : (fill r.buffer n ((msg.drop n).take (min call.octets (msg.length - n)))).take
      (n + min call.octets (msg.length - n)) =
      msg.take (n + min call.octets (msg.length - n)) := by
    have hfill := @take_fill r.buffer ((msg.drop n).take (min call.octets (msg.length - n))) n
      (by rw [h.buffer]; omega)
    rw [hlen] at hfill
    rw [hfill, h.taken, List.take_add]
  have hsize : (fill r.buffer n
      ((msg.drop n).take (min call.octets (msg.length - n)))).length = 300 := by
    rw [length_fill (by rw [hlen, h.buffer]; omega), h.buffer]
  unfold readRemaining
  rw [h.remaining, htake, h.pos]
  simp only [if_neg hsome, hlen, hdrop]
  by_cases hall : min call.octets (msg.length - n) = msg.length - n
  · left
    have hend : n + (msg.length - n) = msg.length := by omega
    rw [hall, hend, List.take_length] at hbuffer
    rw [hall] at hsize
    have hbody : 2 + r.currentReadMsgLength = msg.length := by
      rw [h.size]
      omega
    have hnext : msg.drop (n + (msg.length - n)) = [] := by rw [hend, List.drop_length]
    rw [if_pos hall, hall, hbody, hnext, List.nil_append]
    exact ⟨_, rfl, rfl, hsize, hbuffer⟩
  · right
    rw [if_neg hall]
    refine ⟨_, n + min call.octets (msg.length - n), rfl, by omega, Inside.startTimeout ?_⟩
    refine ⟨h.state, rfl, h.size, ?_, hsize, hbuffer⟩
    simp only
    omega

/-- The octets that follow the start complete the message, or leave the reader inside it. -/
theorem readLength_inside (timeout : ℕ) {call : ReadCall} {r : Reader} {msg rest : List ℕ}
    (hbuffer : r.buffer.length = 300) (hstart : r.buffer.take 1 = [0x68]) (hmsg : Framed msg)
    (harrives : call.lengthArrives = true) (hoctets : call.octets ≠ 0) :
    (∃ r', readLength timeout call r (msg.drop 1 ++ rest) = (.message msg.length, r', rest) ∧
        r'.readState = .idle ∧ r'.buffer.length = 300 ∧ r'.buffer.take msg.length = msg) ∨
      ∃ r' n, readLength timeout call r (msg.drop 1 ++ rest) =
          (.incomplete, r', msg.drop n ++ rest) ∧ n < msg.length ∧ Inside r' msg n := by
  obtain ⟨body, hbody⟩ := hmsg.eq_cons
  have hlen : body.length = msg.length - 2 := by
    rw [hbody]
    rfl
  have hdrop : msg.drop 1 ++ rest = body.length :: (msg.drop 2 ++ rest) := by
    rw [hbody]
    rfl
  have hfill := @take_fill r.buffer [body.length] 1 (by omega)
  have hinside : Inside { r with
      buffer := fill r.buffer 1 [body.length]
      currentReadMsgLength := body.length
      remainingReadLength := body.length
      currentReadPos := 2
      readState := .readingRemaining } msg 2 := by
    refine ⟨rfl, rfl, hlen, hlen, ?_, ?_⟩
    · rw [length_fill (by rw [hbuffer, List.length_singleton]; decide), hbuffer]
    · have htwo : (fill r.buffer 1 [body.length]).take 2 = _ := hfill
      rw [hstart] at htwo
      rw [htwo, hbody]
      rfl
  unfold readLength
  rw [harrives, hdrop]
  exact readRemaining_inside timeout hinside hmsg.more hmsg hoctets

/-- Without an octet the read is an exception. -/
theorem readRemaining_exception (timeout : ℕ) {call : ReadCall} {r : Reader} (stream : List ℕ)
    (hoctets : call.octets = 0) (hmore : r.remainingReadLength ≠ 0) :
    (readRemaining timeout call r stream).1 = .exception := by
  unfold readRemaining
  rw [hoctets, Nat.zero_min, List.take_zero, if_pos ⟨rfl, hmore⟩]

theorem readLength_exception (timeout : ℕ) {call : ReadCall} {r : Reader} {msg : List ℕ}
    (rest : List ℕ) (hmsg : Framed msg) (h : call.lengthArrives = false ∨ call.octets = 0) :
    (readLength timeout call r (msg.drop 1 ++ rest)).1 = .exception := by
  obtain ⟨body, hbody⟩ := hmsg.eq_cons
  have hpos : body.length ≠ 0 := by
    have hmore := hmsg.more
    rw [hbody, List.length_cons, List.length_cons] at hmore
    omega
  have hdrop : msg.drop 1 ++ rest = body.length :: (msg.drop 2 ++ rest) := by
    rw [hbody]
    rfl
  unfold readLength
  rw [hdrop]
  cases harrives : call.lengthArrives with
  | false => rfl
  | true =>
    rcases h with hnot | hoctets
    · rw [harrives] at hnot
      cases hnot
    · exact readRemaining_exception timeout _ hoctets hpos

end Reader

/-- The messages read are the first ones of `messages`, and the octets still to come are those
of the others, from inside the first of them or from its start. -/
structure Reads (messages : List (List ℕ)) (s : Reading) : Prop where
  buffer : s.reader.buffer.length = 300
  place : ∃ rest, s.messages ++ rest = messages ∧
    ((s.reader.readState = .idle ∧ s.stream = rest.flatten) ∨
      ∃ msg rest' n, rest = msg :: rest' ∧ n < msg.length ∧ s.reader.Inside msg n ∧
        s.stream = msg.drop n ++ rest'.flatten)

/-- What ends a connection whose other end writes whole messages: a message that takes too
long, or a read that waits for an octet in vain. -/
def Late (s : Reading) (call : ReadCall) : Prop :=
  (s.reader.readState ≠ .idle ∧ s.reader.currentReadTimeout < call.now) ∨
    s.stream = [] ∨ call.lengthArrives = false ∨ call.octets = 0

theorem Reading.step_exception {timeout : ℕ} {s : Reading} {call : ReadCall}
    (h : (s.reader.receiveMessage timeout call s.stream).1 = .exception) :
    s.step timeout call = none := by
  unfold Reading.step
  generalize s.reader.receiveMessage timeout call s.stream = r at h ⊢
  obtain ⟨result, reader, stream⟩ := r
  cases h
  rfl

section Steps

variable {messages rest : List (List ℕ)} {msg : List ℕ} {timeout : ℕ} {s : Reading}
  {call : ReadCall}

/-- A call that completes the message, or leaves the reader inside it. -/
theorem Reads.taken (hplace : s.messages ++ msg :: rest = messages)
    (hcall : (∃ r', s.reader.receiveMessage timeout call s.stream =
          (.message msg.length, r', rest.flatten) ∧
        r'.readState = .idle ∧ r'.buffer.length = 300 ∧ r'.buffer.take msg.length = msg) ∨
      ∃ r' n, s.reader.receiveMessage timeout call s.stream =
          (.incomplete, r', msg.drop n ++ rest.flatten) ∧ n < msg.length ∧ r'.Inside msg n) :
    ∃ s', s.step timeout call = some s' ∧ Reads messages s' := by
  unfold Reading.step
  rcases hcall with ⟨r', heq, hidle, hbuffer, htake⟩ | ⟨r', n, heq, hn, hinside⟩
  · rw [heq]
    refine ⟨_, rfl, hbuffer, rest, ?_, Or.inl ⟨hidle, rfl⟩⟩
    rw [htake, List.append_assoc, List.singleton_append, hplace]
  · rw [heq]
    exact ⟨_, rfl, hinside.buffer, msg :: rest, hplace, Or.inr ⟨msg, rest, n, rfl, hn, hinside, rfl⟩⟩

theorem Reads.step (hall : ∀ msg ∈ messages, Framed msg) (h : Reads messages s) :
    (s.step timeout call = none → Late s call) ∧
      ∀ s', s.step timeout call = some s' → Reads messages s' := by
  -- either the call takes octets of the next message, or it ends the connection
  suffices hcase : (s.step timeout call = none ∧ Late s call) ∨
      ∃ s', s.step timeout call = some s' ∧ Reads messages s' by
    rcases hcase with ⟨hnone, hlate⟩ | ⟨s', hsome, hreads⟩
    · refine ⟨fun _ => hlate, fun s' hs' => ?_⟩
      rw [hnone] at hs'
      cases hs'
    · refine ⟨fun hnone => ?_, fun s'' hs'' => ?_⟩
      · rw [hsome] at hnone
        cases hnone
      · rw [hsome] at hs''
        cases hs''
        exact hreads
  by_cases hlate : s.reader.readState ≠ .idle ∧ s.reader.currentReadTimeout < call.now
  · refine Or.inl ⟨?_, Or.inl hlate⟩
    unfold Reading.step Reader.receiveMessage
    rw [if_pos hlate]
  cases hready : call.ready with
  | false =>
    refine Or.inr ⟨s, ?_, h⟩
    unfold Reading.step Reader.receiveMessage
    rw [if_neg hlate, hready]
    rfl
  | true =>
    obtain ⟨rest, hplace, hwhere⟩ := h.place
    have hmem : ∀ msg ∈ rest, Framed msg := by
      intro msg hmsg
      refine hall msg ?_
      rw [← hplace]
      exact List.mem_append_right _ hmsg
    have hcall : s.reader.receiveMessage timeout call s.stream =
        s.reader.readOn timeout call s.stream := by
      unfold Reader.receiveMessage
      rw [if_neg hlate, hready, if_pos rfl]
    unfold Reader.readOn at hcall
    rcases hwhere with ⟨hidle, hstream⟩ | ⟨msg, rest', n, rfl, hn, hinside, hstream⟩
    · rw [hidle] at hcall
      cases rest with
      | nil =>
        have hnil : s.stream = [] := hstream
        refine Or.inl ⟨Reading.step_exception ?_, Or.inr (Or.inl hnil)⟩
        rw [hcall, hnil]
      | cons msg rest' =>
        have hmsg := hmem msg List.mem_cons_self
        obtain ⟨body, hbody⟩ := hmsg.eq_cons
        have hoctets : s.stream = 0x68 :: (msg.drop 1 ++ rest'.flatten) := by
          rw [hstream, hbody]
          rfl
        rw [hoctets] at hcall
        simp only [ne_eq, not_true_eq_false, if_false] at hcall
        have hfill := @Reader.take_fill s.reader.buffer [0x68] 0 (Nat.zero_le _)
        have hsize := @Reader.length_fill s.reader.buffer [0x68] 0
          (by rw [h.buffer]; decide)
        by_cases hwait : call.lengthArrives = false ∨ call.octets = 0
        · refine Or.inl ⟨Reading.step_exception ?_, Or.inr (Or.inr hwait)⟩
          rw [hoctets, hcall]
          exact Reader.readLength_exception timeout _ hmsg hwait
        · rw [not_or, Bool.not_eq_false] at hwait
          refine Or.inr (Reads.taken hplace ?_)
          rw [hoctets, hcall]
          exact Reader.readLength_inside timeout (hsize.trans h.buffer) hfill hmsg hwait.1 hwait.2
    · rw [hinside.state] at hcall
      have hmsg := hmem msg List.mem_cons_self
      by_cases hwait : call.octets = 0
      · refine Or.inl ⟨Reading.step_exception ?_, Or.inr (Or.inr (Or.inr hwait))⟩
        rw [hcall]
        refine Reader.readRemaining_exception timeout _ hwait ?_
        rw [hinside.remaining]
        omega
      · refine Or.inr (Reads.taken hplace ?_)
        rw [hcall, hstream]
        exact Reader.readRemaining_inside timeout hinside hn hmsg hwait

end Steps

/-- Whatever the sizes of the pieces in which the octets of whole messages arrive, and
however often the reader is called before they do, it gets these messages in their order and
nothing else, all of them once the octets are all taken; and the connection ends only where
a message takes longer than its time or a read waits for an octet in vain. -/
theorem messages_reassembled {messages : List (List ℕ)}
    (hall : ∀ msg ∈ messages, Framed msg) (timeout : ℕ) {calls : List ReadCall} {s : Reading}
    (hr : Machine.run (Reading.step timeout) { stream := messages.flatten } calls = some s) :
    s.messages <+: messages ∧ (s.stream = [] → s.messages = messages) ∧
      ∀ call, s.step timeout call = none → Late s call := by
  have hreads : Reads messages s :=
    Machine.run_invariant (P := fun _ _ => True) (I := Reads messages)
      (fun _ _ _ _ hi hs => (Reads.step hall hi).2 _ hs)
      (Machine.every_of_forall_mem fun _ _ => trivial)
      ⟨List.length_replicate, messages, rfl, Or.inl ⟨rfl, rfl⟩⟩ hr
  obtain ⟨rest, hplace, hwhere⟩ := hreads.place
  refine ⟨⟨rest, hplace⟩, fun hnil => ?_, fun call hnone => (Reads.step hall hreads).1 hnone⟩
  have hmem : ∀ msg ∈ rest, Framed msg := by
    intro msg hmsg
    refine hall msg ?_
    rw [← hplace]
    exact List.mem_append_right _ hmsg
  rcases hwhere with ⟨-, hstream⟩ | ⟨msg, rest', n, -, hn, -, hstream⟩
  · cases rest with
    | nil => rw [← hplace, List.append_nil]
    | cons msg rest' =>
      have hmore := (hmem msg List.mem_cons_self).more
      rw [hnil, List.flatten_cons] at hstream
      rw [(List.append_eq_nil_iff.mp hstream.symm).1] at hmore
      cases hmore
  · rw [hnil] at hstream
    have hlen := congrArg List.length (List.append_eq_nil_iff.mp hstream.symm).1
    rw [List.length_drop, List.length_nil] at hlen
    omega

end JsonScada.Cs104
