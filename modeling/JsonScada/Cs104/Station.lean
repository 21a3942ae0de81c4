/- path: JsonScada/Cs104/Station
   source: lib60870.netcore/lib60870/CS104/Connection.cs, ClientConnection.cs
   digest: What the two ends of a connection have in common, and the two streams of numbered
   messages between them. -/

import JsonScada.Lib.Flow
import JsonScada.Cs104.Connection

set_option autoImplicit false
set_option relaxedAutoImplicit false

namespace JsonScada.Cs104

open JsonScada.Lib

/-- The counters, the k-buffer and the streams of an end. -/
structure Station (ε : Type) where
  sendCount : ℕ
  receiveCount : ℕ
  unconfirmed : ℕ
  kBuffer : KBuffer ε
  written : List (List ℕ)
  transmitted : List (List ℕ)
  received : List (List ℕ)

namespace Station

variable {ε δ : Type}

/-- A message that carries no number is written. -/
def write (s : Station ε) (msg : List ℕ) : Station ε := { s with written := s.written ++ [msg] }

/-- The received messages are confirmed in S format. -/
def confirm (s : Station ε) : Station ε :=
  { s with written := s.written ++ [sMessage s.receiveCount], unconfirmed := 0 }

/-- An ASDU is sent in I format and kept in the k-buffer. -/
def send (s : Station ε) (entry : ε) (now : ℤ) (asdu : List ℕ) : Station ε :=
  let sendCount := (s.sendCount + 1) % sequenceNumbers
  { s with
    written := s.written ++ [iMessage s.sendCount s.receiveCount asdu]
    sendCount := sendCount
    unconfirmed := 0
    transmitted := s.transmitted ++ [asdu]
    kBuffer := s.kBuffer.update ⟨entry, now, sendCount⟩ }

/-- A received confirmation is applied. -/
def hear (s : Station ε) (kBuffer : KBuffer ε) : Station ε := { s with kBuffer := kBuffer }

/-- A message in I format is counted and handed on. -/
def take (s : Station ε) (asdu : List ℕ) : Station ε :=
  { s with
    receiveCount := (s.receiveCount + 1) % sequenceNumbers
    unconfirmed := s.unconfirmed + 1
    received := s.received ++ [asdu] }

/-- A message was read at the other end. -/
def read (s : Station ε) : Station ε := { s with written := s.written.drop 1 }

/-- The numbered items and the counts that a stream of messages carries, where the ASDUs
satisfy `P` and every other message is one of `others`. -/
inductive Traffic (P : List ℕ → Prop) (others : List (List ℕ)) :
    List (List ℕ) → List (ℕ × List ℕ) → List ℕ → Prop
  | nil : Traffic P others [] [] []
  | information {messages items acks} (n r : ℕ) (asdu : List ℕ) (h : P asdu) :
      Traffic P others messages items acks →
      Traffic P others (iMessage (n % sequenceNumbers) (r % sequenceNumbers) asdu :: messages)
        ((n, asdu) :: items) (r :: acks)
  | supervisory {messages items acks} (r : ℕ) :
      Traffic P others messages items acks →
      Traffic P others (sMessage (r % sequenceNumbers) :: messages) items (r :: acks)
  | unnumbered {messages items acks} (u : List ℕ) (h : u ∈ others) :
      Traffic P others messages items acks → Traffic P others (u :: messages) items acks

theorem Traffic.append {P : List ℕ → Prop} {others messages messages' : List (List ℕ)}
    {items items' : List (ℕ × List ℕ)} {acks acks' : List ℕ}
    (h : Traffic P others messages items acks) (h' : Traffic P others messages' items' acks') :
    Traffic P others (messages ++ messages') (items ++ items') (acks ++ acks') := by
  induction h with
  | nil => exact h'
  | information n r asdu hp _ ih => exact .information n r asdu hp ih
  | supervisory r _ ih => exact .supervisory r ih
  | unnumbered u hu _ ih => exact .unnumbered u hu ih

/-- An end knows its half of the two streams: `out` that it sends and `inc` that it
receives. -/
structure Knows (s : Station ε) (out inc : Flow (List ℕ)) : Prop where
  sendCount : s.sendCount = out.sent.length % sequenceNumbers
  transmitted : s.transmitted = out.sent
  receiveCount : s.receiveCount = inc.received.length % sequenceNumbers
  received : s.received = inc.received
  unconfirmed : s.unconfirmed + inc.told = inc.received.length
  outstanding : ∃ l, Outstanding s.kBuffer out.acked l ∧
    out.acked + l.length = out.sent.length

/-- Two ends joined by the streams `f` from the first to the second and `g` back. -/
structure Joined (P : List ℕ → Prop) (others others' : List (List ℕ)) (a : Station ε)
    (b : Station δ) (f g : Flow (List ℕ)) : Prop where
  soundOut : f.Sound
  soundBack : g.Sound
  first : a.Knows f g
  second : b.Knows g f
  out : Traffic P others a.written f.items g.acks
  back : Traffic P others' b.written g.items f.acks

namespace Joined

variable {P : List ℕ → Prop} {others others' : List (List ℕ)} {a : Station ε} {b : Station δ}
  {f g : Flow (List ℕ)}

theorem symm (h : Joined P others others' a b f g) : Joined P others' others b a g f :=
  ⟨h.soundBack, h.soundOut, h.second, h.first, h.back, h.out⟩

theorem write (h : Joined P others others' a b f g) {u : List ℕ} (hu : u ∈ others) :
    Joined P others others' (a.write u) b f g := by
  refine ⟨h.soundOut, h.soundBack, ⟨h.first.sendCount, h.first.transmitted,
    h.first.receiveCount, h.first.received, h.first.unconfirmed, h.first.outstanding⟩,
    h.second, ?_, h.back⟩
  have happend := h.out.append (.unnumbered u hu .nil)
  rwa [List.append_nil, List.append_nil] at happend

/-- The received messages are confirmed. -/
theorem confirm (h : Joined P others others' a b f g) :
    Joined P others others' a.confirm b f g.tell := by
  refine ⟨h.soundOut, h.soundBack.tell, ⟨h.first.sendCount, h.first.transmitted,
    h.first.receiveCount, h.first.received, Nat.zero_add _, h.first.outstanding⟩,
    ⟨h.second.sendCount, h.second.transmitted, h.second.receiveCount, h.second.received,
      h.second.unconfirmed, h.second.outstanding⟩, ?_, h.back⟩
  have happend := h.out.append (.supervisory g.received.length .nil)
  rw [List.append_nil, ← h.first.receiveCount] at happend
  exact happend

/-- An ASDU is sent while the k-buffer is not full, and confirms what was received. -/
theorem send (h : Joined P others others' a b f g) (hfree : a.kBuffer.isSentBufferFull = false)
    (entry : ε) (now : ℤ) {asdu : List ℕ} (hp : P asdu) :
    Joined P others others' (a.send entry now asdu) b (f.send asdu) g.tell := by
  have hcount : (a.sendCount + 1) % sequenceNumbers =
      (f.sent ++ [asdu]).length % sequenceNumbers := by
    rw [h.first.sendCount, Nat.mod_add_mod, List.length_append, List.length_singleton]
  refine ⟨h.soundOut.send asdu, h.soundBack.tell, ⟨hcount, ?_, h.first.receiveCount,
    h.first.received, Nat.zero_add _, ?_⟩,
    ⟨h.second.sendCount, h.second.transmitted, h.second.receiveCount, h.second.received,
      h.second.unconfirmed, h.second.outstanding⟩, ?_, h.back⟩
  · simp only [Station.send, Flow.send]
    rw [h.first.transmitted]
  · obtain ⟨l, hl, hlen⟩ := h.first.outstanding
    have hseq : (a.sendCount + 1) % sequenceNumbers =
        (f.acked + l.length + 1) % sequenceNumbers := by
      rw [hcount, hlen, List.length_append, List.length_singleton]
    refine ⟨_, hl.update hfree hseq, ?_⟩
    simp only [Flow.send, List.length_append, List.length_singleton]
    omega
  · have happend := h.out.append (.information f.sent.length g.received.length asdu hp .nil)
    rw [← h.first.receiveCount, ← h.first.sendCount] at happend
    exact happend

/-- The next confirmation is in range and removes what it confirms. -/
theorem hear (h : Joined P others others' a b f g) {r : ℕ} {rest : List ℕ}
    (hacks : f.acks = r :: rest) {l : List (SentASDU ε)}
    (hl : Outstanding a.kBuffer f.acked l) (hlen : f.acked + l.length = f.sent.length) :
    ∃ kBuffer, checkSequenceNumber a.kBuffer a.sendCount (r % sequenceNumbers) =
        some (kBuffer, l.take (r - f.acked)) ∧
      kBuffer.maxSentASDUs = a.kBuffer.maxSentASDUs ∧
      Outstanding kBuffer r (l.drop (r - f.acked)) ∧
      (a.hear kBuffer).Knows (f.hear r) g := by
  obtain ⟨hle, hge⟩ := h.soundOut.head_ack hacks
  have hj : r - f.acked ≤ l.length := by omega
  obtain ⟨kBuffer, hcheck, hout, hsize⟩ := hl.checkSequenceNumber_eq hj
  have hsum : f.acked + (r - f.acked) = r := by omega
  rw [hsum] at hcheck hout
  rw [hlen, ← h.first.sendCount] at hcheck
  refine ⟨kBuffer, hcheck, hsize, hout, ⟨h.first.sendCount, h.first.transmitted,
    h.first.receiveCount, h.first.received, h.first.unconfirmed, ?_⟩⟩
  refine ⟨_, hout, ?_⟩
  rw [List.length_drop]
  simp only [Flow.hear]
  omega

/-- What the next message at the other end is, and what becomes of the two ends when it
is taken. -/
theorem receive (h : Joined P others others' a b f g) {msg : List ℕ} {messages : List (List ℕ)}
    (hwritten : b.written = msg :: messages) {l : List (SentASDU ε)}
    (hl : Outstanding a.kBuffer f.acked l) (hlen : f.acked + l.length = f.sent.length) :
    (∃ r asdu kBuffer, msg = iMessage a.receiveCount (r % sequenceNumbers) asdu ∧ P asdu ∧
        checkSequenceNumber a.kBuffer a.sendCount (r % sequenceNumbers) =
          some (kBuffer, l.take (r - f.acked)) ∧
        kBuffer.maxSentASDUs = a.kBuffer.maxSentASDUs ∧
        (f.acked ≤ r ∧ r ≤ f.acked + l.length) ∧
        Outstanding kBuffer r (l.drop (r - f.acked)) ∧
        Joined P others others' ((a.hear kBuffer).take asdu) b.read (f.hear r)
          (g.receive asdu)) ∨
      (∃ r kBuffer, msg = sMessage (r % sequenceNumbers) ∧
        checkSequenceNumber a.kBuffer a.sendCount (r % sequenceNumbers) =
          some (kBuffer, l.take (r - f.acked)) ∧
        kBuffer.maxSentASDUs = a.kBuffer.maxSentASDUs ∧
        (f.acked ≤ r ∧ r ≤ f.acked + l.length) ∧
        Outstanding kBuffer r (l.drop (r - f.acked)) ∧
        Joined P others others' (a.hear kBuffer) b.read (f.hear r) g) ∨
      (msg ∈ others' ∧ Joined P others others' a b.read f g) := by
  have hback := h.back
  rw [hwritten] at hback
  have hread : b.read.written = messages := by
    simp only [Station.read, hwritten, List.drop_succ_cons, List.drop_zero]
  have hrange : ∀ {r : ℕ} {rest : List ℕ}, f.acks = r :: rest →
      f.acked ≤ r ∧ r ≤ f.acked + l.length := by
    intro r rest hacks
    obtain ⟨hle, hge⟩ := h.soundOut.head_ack hacks
    exact ⟨hle, by omega⟩
  generalize hitems : g.items = items at hback
  generalize hacks : f.acks = acks at hback
  cases hback with
  | @information _ items' acks' n r asdu hp hrest =>
    left
    obtain ⟨kBuffer, hcheck, hsize, hout, hknows⟩ := h.hear hacks hl hlen
    have hn := h.soundBack.head_item hitems
    refine ⟨r, asdu, kBuffer, ?_, hp, hcheck, hsize, hrange hacks, hout, h.soundOut.hear hacks,
      h.soundBack.receive hitems, ⟨hknows.sendCount, hknows.transmitted, ?_, ?_, ?_,
      hknows.outstanding⟩, ?_, ?_, ?_⟩
    · rw [hn, ← h.first.receiveCount]
    · simp only [Station.take, Station.hear, Flow.receive, List.length_append,
        List.length_singleton]
      rw [h.first.receiveCount, Nat.mod_add_mod]
    · simp only [Station.take, Station.hear, Flow.receive]
      rw [h.first.received]
    · have hunconfirmed := h.first.unconfirmed
      simp only [Station.take, Station.hear, Flow.receive, List.length_append,
        List.length_singleton]
      omega
    · exact ⟨h.second.sendCount, h.second.transmitted, h.second.receiveCount,
        h.second.received, h.second.unconfirmed, h.second.outstanding⟩
    · exact h.out
    · rw [hread]
      simp only [Flow.receive, Flow.hear, hitems, hacks, List.drop_succ_cons, List.drop_zero]
      exact hrest
  | @supervisory _ items' acks' r hrest =>
    right
    left
    obtain ⟨kBuffer, hcheck, hsize, hout, hknows⟩ := h.hear hacks hl hlen
    refine ⟨r, kBuffer, rfl, hcheck, hsize, hrange hacks, hout, h.soundOut.hear hacks, h.soundBack, hknows,
      ⟨h.second.sendCount, h.second.transmitted, h.second.receiveCount,
        h.second.received, h.second.unconfirmed, h.second.outstanding⟩, h.out, ?_⟩
    rw [hread, hitems]
    simp only [Flow.hear, hacks, List.drop_succ_cons, List.drop_zero]
    exact hrest
  | @unnumbered _ items' acks' u hu hrest =>
    right
    right
    refine ⟨hu, h.soundOut, h.soundBack, h.first,
      ⟨h.second.sendCount, h.second.transmitted, h.second.receiveCount,
        h.second.received, h.second.unconfirmed, h.second.outstanding⟩, h.out, ?_⟩
    rw [hread, hitems, hacks]
    exact hrest

/-- With nothing in flight between the ends each has what the other sent, and what one has
not confirmed is what the other keeps. -/
theorem quiet (h : Joined P others others' a b f g) (hout : a.written = [])
    (hback : b.written = []) :
    b.received = a.transmitted ∧ ∀ l, Outstanding a.kBuffer f.acked l →
      f.acked + l.length = f.sent.length → l.length = b.unconfirmed := by
  have htraffic := h.out
  have htraffic' := h.back
  rw [hout] at htraffic
  rw [hback] at htraffic'
  generalize hitems : f.items = items at htraffic
  generalize hacks : g.acks = acks at htraffic
  generalize hitems' : g.items = items' at htraffic'
  generalize hacks' : f.acks = acks' at htraffic'
  cases htraffic
  cases htraffic'
  obtain ⟨hall, hknown⟩ := h.soundOut.quiet hitems hacks'
  refine ⟨?_, ?_⟩
  · rw [h.second.received, h.first.transmitted, hall]
  · intro l _ hlen
    have hunconfirmed := h.second.unconfirmed
    rw [hall] at hunconfirmed
    omega

end Joined

end Station

end JsonScada.Cs104
