/- path: JsonScada/System/LinkSafety
   source: lib60870.netcore/lib60870/CS104/Connection.cs, ClientConnection.cs
   digest: Whatever the order of the threads, the ASDUs arrive once and in order, and neither
   end ever refuses a message of the other. -/

import JsonScada.Cs104.Framing
import JsonScada.System.LinkInvariant

set_option autoImplicit false
set_option relaxedAutoImplicit false

namespace JsonScada.System.LinkSafety

open JsonScada.Lib JsonScada.Cs104 JsonScada.System.LinkInvariant

variable {cfg : LinkConfig} {l : Link} {f g : Flow (List ℕ)}

/-- The ASDUs in a stream are the items it carries. -/
theorem informations_eq {P : List ℕ → Prop} {others messages : List (List ℕ)}
    {items : List (ℕ × List ℕ)} {acks : List ℕ}
    (hothers : ∀ u ∈ others, information u = none)
    (h : Station.Traffic P others messages items acks) :
    informations messages = items.map Prod.snd := by
  induction h with
  | nil => rfl
  | information n r asdu _ _ ih =>
    unfold informations at ih ⊢
    have hinfo : information (iMessage (n % sequenceNumbers) (r % sequenceNumbers) asdu) =
        some asdu := by
      unfold information
      rw [if_pos (octet_iMessage_even _ _ _), drop_iMessage]
    rw [List.filterMap_cons_some hinfo, ih, List.map_cons]
  | supervisory r _ ih =>
    unfold informations at ih ⊢
    have hoctet : octet (sMessage (r % sequenceNumbers)) 2 = 1 := rfl
    have hinfo : information (sMessage (r % sequenceNumbers)) = none := by
      unfold information
      rw [hoctet, if_neg (by decide)]
    rw [List.filterMap_cons_none hinfo, ih]
  | unnumbered u hu _ ih =>
    unfold informations at ih ⊢
    rw [List.filterMap_cons_none (hothers u hu), ih]

/-- What was received and what is on its way make up what was sent, both ways. -/
theorem received_of_safe (h : Safe cfg l f g) :
    l.server.receivedASDUs ++ informations l.client.netStream = l.client.transmitted ∧
      l.client.received ++ informations l.server.socketStream = l.server.transmitted := by
  have hout : informations l.client.netStream = _ :=
    informations_eq (by decide) h.joined.out
  have hback : informations l.server.socketStream = _ :=
    informations_eq (by decide) h.joined.back
  have hserver : l.server.receivedASDUs = f.received := h.joined.second.received
  have hclient : l.client.received = g.received := h.joined.first.received
  rw [hout, hback, hserver, hclient, h.joined.soundOut.data, h.joined.soundBack.data]
  exact ⟨h.joined.first.transmitted.symm, h.joined.second.transmitted.symm⟩

/-- A link with small windows and queues. -/
def smallLink : LinkConfig where
  client := { K := 2, W := 1 }
  server := { K := 2, W := 2 }
  maxQueueSize := 3
  maxHighPrioQueueSize := 2

theorem smallLink_valid : smallLink.Valid := by
  constructor <;> decide

/-- A run over the small link: the server starts, the client sends more than it may have
outstanding, and each takes a message of the other. -/
def smallRun : List LinkAction :=
  [.serverReceive 1, .clientReceive 2, .clientSend [100, 1, 6, 0, 1, 0, 0, 0, 0, 20] 3,
    .clientSend [103, 1, 6, 0, 1, 0, 0, 0, 0, 1] 3, .clientSend [101, 1, 6, 0, 1, 0, 0, 0, 0, 5] 3,
    .serverReceive 4, .serverEnqueue [1, 1, 3, 0, 1, 0, 9, 0, 0, 1] 5, .serverSendWaiting 5,
    .clientReceive 6]

theorem smallRun_encoded : ∀ a ∈ smallRun, a.Encoded smallLink := by decide

theorem smallRun_ends :
    ∃ l, Machine.run (Link.step smallLink) (Link.start smallLink 0) smallRun = some l := by
  rw [← Option.isSome_iff_exists]
  decide +kernel

/-- The messages in flight to an end are among those the other keeps. -/
theorem inFlight_le {ε δ : Type} {P : List ℕ → Prop} {others others' : List (List ℕ)}
    {a : Station ε} {b : Station δ} (h : Station.Joined P others others' a b f g)
    (hothers : ∀ u ∈ others, information u = none) :
    (informations a.written).length ≤ a.kBuffer.count ∧
      a.kBuffer.count ≤ a.kBuffer.maxSentASDUs := by
  obtain ⟨k, hk, hlen⟩ := h.first.outstanding
  have hacked := h.soundOut.acked_le_told
  have htold := h.soundOut.told_le
  have hsent := h.soundOut.sent_length
  rw [hk.count_eq, informations_eq hothers h.out, List.length_map]
  exact ⟨by omega, hk.length_le⟩

/-- A run after which nothing is in flight. -/
def quietRun : List LinkAction :=
  [.serverReceive 1, .clientReceive 2, .clientSend [100, 1, 6, 0, 1, 0, 0, 0, 0, 20] 3,
    .serverReceive 4]

theorem framed_iMessage (n r : ℕ) {asdu : List ℕ} (hpos : 0 < asdu.length)
    (hmax : asdu.length ≤ 249) : Framed (iMessage n r asdu) := by
  have hlen := length_iMessage n r asdu
  refine ⟨rfl, ?_, by omega, by omega⟩
  have hoctet : (iMessage n r asdu)[1]? = some ((6 + asdu.length - 2) % 256) := rfl
  rw [hoctet, hlen, Nat.mod_eq_of_lt (by omega)]

theorem framed_sMessage (r : ℕ) : Framed (sMessage r) := by
  have hlen : (sMessage r).length = 6 := rfl
  exact ⟨rfl, rfl, by rw [hlen]; decide, by rw [hlen]; decide⟩

/-- Every message in a stream between the ends is framed. -/
theorem framed_of_traffic {others messages : List (List ℕ)} {items : List (ℕ × List ℕ)}
    {acks : List ℕ} (hothers : ∀ u ∈ others, Framed u)
    (h : Station.Traffic cfg.Encoded others messages items acks) :
    ∀ msg ∈ messages, Framed msg := by
  induction h with
  | nil => exact fun _ hmem => absurd hmem List.not_mem_nil
  | information n r asdu hp _ ih =>
    obtain ⟨hheader, -, hmax⟩ := hp
    have hpos : 0 < asdu.length := by
      unfold APCIParameters.asduHeaderSize at hheader
      omega
    intro msg hmem
    rcases List.mem_cons.mp hmem with rfl | hmem
    · exact framed_iMessage _ _ hpos hmax
    · exact ih msg hmem
  | supervisory r _ ih =>
    intro msg hmem
    rcases List.mem_cons.mp hmem with rfl | hmem
    · exact framed_sMessage _
    · exact ih msg hmem
  | unnumbered u hu _ ih =>
    intro msg hmem
    rcases List.mem_cons.mp hmem with rfl | hmem
    · exact hothers msg hu
    · exact ih msg hmem

theorem framed_others : (∀ u ∈ clientOthers, Framed u) ∧ ∀ u ∈ serverOthers, Framed u := by
  constructor <;>
    · intro u hu
      simp only [clientOthers, serverOthers, List.mem_cons, List.not_mem_nil, or_false] at hu
      rcases hu with rfl | rfl | rfl <;> exact ⟨rfl, rfl, by decide, by decide⟩

/-- In every state of a link, however its ends came to it, the octets on their way to either
end, read in pieces of any size, come to the messages that the other end wrote, in order and
all of them once the octets are taken; and a reader fails only where a message takes longer
than its time or a read waits for an octet in vain. -/
theorem streams_reassembled (hv : cfg.Valid) {now : ℕ} {as : List LinkAction}
    (has : ∀ a ∈ as, a.Encoded cfg)
    (hr : Machine.run (Link.step cfg) (Link.start cfg now) as = some l) {stream : List (List ℕ)}
    (hstream : stream = l.client.netStream ∨ stream = l.server.socketStream) (timeout : ℕ)
    {calls : List ReadCall} {s : Reading}
    (hs : Machine.run (Reading.step timeout) { stream := stream.flatten } calls = some s) :
    s.messages <+: stream ∧ (s.stream = [] → s.messages = stream) ∧
      ∀ call, s.step timeout call = none → Late s call := by
  obtain ⟨⟨f, g, h⟩, -⟩ := run_safe hv has hr
  refine messages_reassembled ?_ timeout hs
  rcases hstream with rfl | rfl
  · exact framed_of_traffic framed_others.1 h.joined.out
  · exact framed_of_traffic framed_others.2 h.joined.back

/-- Calls that find the octets in pieces. -/
def pieces : List ReadCall :=
  [⟨10, true, true, 3⟩, ⟨20, false, true, 1⟩, ⟨30, true, true, 9⟩, ⟨40, true, true, 1⟩]

theorem smallRun_reassembled : ∃ l s,
    Machine.run (Link.step smallLink) (Link.start smallLink 0) smallRun = some l ∧
      Machine.run (Reading.step 1000) { stream := l.client.netStream.flatten } pieces = some s ∧
      s.messages <+: l.client.netStream ∧
      (s.stream = [] → s.messages = l.client.netStream) ∧
      ∀ call, s.step 1000 call = none → Late s call := by
  have hend : ((Machine.run (Link.step smallLink) (Link.start smallLink 0) smallRun).any
      fun l => (Machine.run (Reading.step 1000)
        { stream := l.client.netStream.flatten } pieces).isSome) = true := by
    decide +kernel
  obtain ⟨l, hl, hsome⟩ := (Option.any_eq_true _ _).mp hend
  obtain ⟨s, hs⟩ := Option.isSome_iff_exists.mp hsome
  exact ⟨l, s, hl, hs,
    streams_reassembled smallLink_valid smallRun_encoded hl (Or.inl rfl) 1000 hs⟩

end JsonScada.System.LinkSafety
