/- path: JsonScada/Cs104/Session
   source: lib60870.netcore/lib60870/ASDUQueue.cs, CS104/ClientConnection.cs, Server.cs
   digest: The entries of a queue with the names a connection confirms them by, and the
   connections of a client with a server one after the other, with the account of the ASDUs
   of the low-priority queue. -/

import JsonScada.Cs104.Link
import JsonScada.Cs104.QueueContents
import Mathlib.Data.List.Nodup
import Mathlib.Data.List.Rotate

set_option autoImplicit false
set_option relaxedAutoImplicit false

namespace JsonScada.Cs104

open JsonScada.Lib

/-- An ASDU in the queue, with its name. -/
abbrev Named := List ℕ × QueuePlace

def Named.item (x : Named) : ASDUQueue.Item := (x.1, x.2.entryTime)

/-- The ASDUs that the queue stores. -/
def ASDUQueue.stored (q : ASDUQueue) : List (List ℕ) :=
  (q.enqueuedASDUs.filter fun e => e.state ≠ .NOT_USED).map (·.asdu)

/-- The queue holds these ASDUs, and each has the place its name says. -/
structure Keeps (q : ASDUQueue) (sent waiting : List Named) : Prop where
  represents : q.Represents (sent.map Named.item) (waiting.map Named.item)
  places : ∀ i (h : i < (sent ++ waiting).length), ((sent ++ waiting)[i]).2.queueIndex =
    Ring.place q.maxQueueSize q.oldestQueueEntry i

theorem Keeps.new {n : ℕ} (hn : 0 < n) (mode : EnqueueMode) :
    Keeps (ASDUQueue.new n mode) [] [] :=
  ⟨ASDUQueue.Represents.new hn mode, fun i h => absurd h (Nat.not_lt_zero i)⟩

namespace Keeps

variable {q : ASDUQueue} {sent waiting : List Named}

theorem count (h : Keeps q sent waiting) :
    q.numberOfAsduInQueue = sent.length + waiting.length := by
  rw [h.represents.count, List.length_map, List.length_map]

/-- No two entries have one place. -/
theorem places_nodup (h : Keeps q sent waiting) :
    ((sent ++ waiting).map fun x => x.2.queueIndex).Nodup := by
  rw [List.Nodup, List.pairwise_map, List.pairwise_iff_getElem]
  intro i j hi hj hij heq
  rw [h.places i hi, h.places j hj] at heq
  rw [List.length_append] at hi hj
  exact h.represents.place_ne (by simpa using hi) (by simpa using hj) hij.ne heq

/-- No two entries have one name. -/
theorem names_nodup (h : Keeps q sent waiting) : ((sent ++ waiting).map Prod.snd).Nodup := by
  have hplaces := h.places_nodup
  have hmap : ((sent ++ waiting).map fun x => x.2.queueIndex) =
      ((sent ++ waiting).map Prod.snd).map (·.queueIndex) := by
    rw [List.map_map]
    rfl
  rw [hmap] at hplaces
  exact List.Nodup.of_map _ hplaces

/-- As long as a place is free a new ASDU waits behind the others. -/
theorem enqueue (h : Keeps q sent waiting) (hfree : q.numberOfAsduInQueue < q.maxQueueSize)
    (asdu : List ℕ) (now : ℤ) :
    ∃ q' place, q.EnqueueAsdu asdu now = some q' ∧
      Keeps q' sent (waiting ++ [(asdu, ⟨now, place⟩)]) := by
  obtain ⟨q', hq, hsize, -, hrep, hfirst⟩ := h.represents.enqueue hfree asdu now
  refine ⟨q', Ring.place q'.maxQueueSize q'.oldestQueueEntry (sent.length + waiting.length), hq,
    ?_, ?_⟩
  · rw [List.map_append]
    exact hrep
  · intro i hi
    simp only [← List.append_assoc] at hi ⊢
    rw [List.length_append, List.length_singleton] at hi
    rcases Nat.lt_succ_iff_lt_or_eq.mp hi with hlt | heq
    · rw [List.getElem_append_left hlt, h.places i hlt, hsize]
      rw [hfirst]
      rw [h.count]
      rw [List.length_append] at hlt
      omega
    · subst heq
      rw [List.getElem_append_right le_rfl]
      simp

theorem first_lt (h : Keeps q sent waiting) {x : Named} {rest : List Named}
    (hall : sent ++ waiting = x :: rest) : q.oldestQueueEntry < q.maxQueueSize := by
  have hne : ASDUQueue.entries (sent.map Named.item) (waiting.map Named.item) ≠ [] := by
    intro hnil
    obtain ⟨hsent, hwaiting⟩ := ASDUQueue.entries_nil_iff.mp hnil
    rw [List.map_eq_nil_iff.mp hsent, List.map_eq_nil_iff.mp hwaiting] at hall
    cases hall
  exact (h.represents.placed hne).ring.first_lt

/-- The place of the oldest entry. -/
theorem oldest (h : Keeps q sent waiting) {x : Named} {rest : List Named}
    (hall : sent ++ waiting = x :: rest) : q.oldestQueueEntry = x.2.queueIndex := by
  have hplace := h.places 0 (by rw [hall]; exact Nat.zero_lt_succ _)
  simp only [hall, List.getElem_cons_zero] at hplace
  rw [hplace, Ring.place_zero (h.first_lt hall)]

/-- The entry that the next ASDU pushes out of a full queue. -/
theorem oldest_entry (h : Keeps q sent waiting) {x : Named} {rest : List Named}
    (hall : sent ++ waiting = x :: rest) :
    ∃ state, q.enqueuedASDUs[q.oldestQueueEntry]? = some (ASDUQueue.entry state x.item) := by
  have hpos : 0 < (sent.map Named.item).length + (waiting.map Named.item).length := by
    rw [List.length_map, List.length_map, ← List.length_append, hall]
    exact Nat.zero_lt_succ _
  have hget := h.represents.getElem?_place hpos
  have hplace := h.places 0 (by rw [hall]; exact Nat.zero_lt_succ _)
  simp only [hall, List.getElem_cons_zero, ← h.oldest hall] at hplace
  rw [← hplace] at hget
  cases sent with
  | nil =>
    rw [List.nil_append] at hall
    subst hall
    exact ⟨.WAITING_FOR_TRANSMISSION, hget⟩
  | cons y sent =>
    obtain ⟨rfl, -⟩ := List.cons_eq_cons.mp hall
    exact ⟨.SENT_BUT_NOT_CONFIRMED, hget⟩

/-- A new ASDU takes the place of the oldest one in a full queue. -/
theorem enqueue_full (h : Keeps q sent waiting)
    (hfull : q.numberOfAsduInQueue = q.maxQueueSize) (hmode : q.enqueueMode = .REMOVE_OLDEST)
    (asdu : List ℕ) (now : ℤ) {x : Named} {rest : List Named}
    (hall : sent ++ waiting = x :: rest) :
    ∃ q', q.EnqueueAsdu asdu now = some q' ∧
      Keeps q' (sent.drop 1) (waiting.drop (1 - sent.length) ++
        [(asdu, ⟨now, x.2.queueIndex⟩)]) := by
  obtain ⟨q', hq, hsize, -, hrep, hfirst⟩ := h.represents.enqueue_full hfull hmode asdu now
  have hrest : sent.drop 1 ++ (waiting.drop (1 - sent.length) ++
      [(asdu, ⟨now, x.2.queueIndex⟩)]) = rest ++ [(asdu, ⟨now, x.2.queueIndex⟩)] := by
    rw [← List.append_assoc, ← List.drop_append, hall, List.drop_one, List.tail_cons]
  have hlen : rest.length + 1 = q.maxQueueSize := by
    rw [← hfull, h.count, ← List.length_append, hall, List.length_cons]
  refine ⟨q', hq, ?_, ?_⟩
  · rw [List.map_append, List.map_drop, List.map_drop, ← List.length_map Named.item]
    exact hrep
  · intro i hi
    simp only [hrest] at hi ⊢
    rw [hsize, hfirst, Ring.place_next]
    rw [List.length_append, List.length_singleton] at hi
    rcases Nat.lt_succ_iff_lt_or_eq.mp hi with hlt | heq
    · have hplace := h.places (i + 1) (by rw [hall]; exact Nat.succ_lt_succ hlt)
      simp only [hall, List.getElem_cons_succ] at hplace
      rw [List.getElem_append_left hlt, hplace]
    · subst heq
      rw [List.getElem_append_right le_rfl, hlen]
      simp only [Nat.sub_self, List.getElem_cons_zero, ← h.oldest hall]
      exact (Ring.place_full (h.first_lt hall)).symm

/-- The first ASDU that waits is sent. -/
theorem getNext (h : Keeps q sent waiting) :
    match waiting with
    | [] => q.GetNextWaitingASDU = (none, q)
    | x :: rest => ∃ q', q.GetNextWaitingASDU =
        (some (x.1, x.2.entryTime, x.2.queueIndex), q') ∧ Keeps q' (sent ++ [x]) rest := by
  cases waiting with
  | nil => exact h.represents.getNext_nil
  | cons x rest =>
    obtain ⟨q', hq, hsize, -, hfirst, hrep⟩ := h.represents.getNext_cons
    have hplace := h.places sent.length (by simp)
    simp only [List.getElem_append_right le_rfl, Nat.sub_self, List.getElem_cons_zero] at hplace
    refine ⟨q', ?_, ?_, ?_⟩
    · rw [hq, hplace, List.length_map]
      rfl
    · rw [List.map_append]
      exact hrep
    · intro i hi
      have heq : sent ++ [x] ++ rest = sent ++ x :: rest := by simp
      simp only [heq] at hi ⊢
      rw [h.places i hi, hsize, hfirst]

/-- The confirmation of the oldest ASDU that was sent removes it. -/
theorem confirm {x : Named} {rest : List Named} (h : Keeps q (x :: rest) waiting) :
    Keeps (q.MarkASDUAsConfirmed x.2.queueIndex x.2.entryTime) rest waiting := by
  have hplace := h.places 0 (Nat.zero_lt_succ _)
  simp only [List.cons_append, List.getElem_cons_zero] at hplace
  have hpos : 0 < ((x :: rest).map Named.item).length := by
    rw [List.length_map]
    exact Nat.zero_lt_succ _
  obtain ⟨q', hq, -, -, hrep, hshift⟩ := h.represents.confirm hpos
  rw [← hplace] at hq
  have hmark : q.MarkASDUAsConfirmed x.2.queueIndex x.2.entryTime = q' := hq
  rw [hmark]
  refine ⟨hrep, fun i hi => ?_⟩
  have hlt : 0 + 1 + i < ((x :: rest) ++ waiting).length := by
    rw [List.cons_append, List.length_cons]
    omega
  have hplace' := h.places (0 + 1 + i) hlt
  have hnext : ((x :: rest) ++ waiting)[0 + 1 + i] = (rest ++ waiting)[i] := by
    simp [Nat.add_comm 1 i]
  rw [hnext] at hplace'
  rw [hplace', hshift i ?_]
  rw [List.length_map, List.length_map, ← List.length_append]
  exact hlt

/-- A name that no entry sent has confirms nothing. -/
theorem confirm_other (h : Keeps q sent waiting) {name : QueuePlace}
    (hother : name ∉ sent.map Prod.snd) :
    q.MarkASDUAsConfirmed name.queueIndex name.entryTime = q := by
  refine h.represents.confirm_other ?_
  rintro j hj ⟨hindex, htime⟩
  rw [List.length_map] at hj
  have hplace := h.places j (by rw [List.length_append]; omega)
  rw [List.getElem_append_left hj] at hplace
  refine hother (List.mem_map.mpr ⟨sent[j], List.getElem_mem hj, ?_⟩)
  rw [← hplace] at hindex
  rw [List.get_eq_getElem, List.getElem_map] at htime
  exact (congrArg₂ QueuePlace.mk htime hindex).symm

/-- What was sent waits again. -/
theorem unmarkAll (h : Keeps q sent waiting) : Keeps q.UnmarkAllASDUs [] (sent ++ waiting) := by
  have hrep := h.represents.unmarkAll
  have hkept : q.UnmarkAllASDUs.maxQueueSize = q.maxQueueSize ∧
      q.UnmarkAllASDUs.oldestQueueEntry = q.oldestQueueEntry := by
    unfold ASDUQueue.UnmarkAllASDUs
    split
    next => exact ⟨List.length_map .., rfl⟩
    next => exact ⟨rfl, rfl⟩
  refine ⟨?_, fun i hi => ?_⟩
  · rw [List.map_append]
    exact hrep
  · simp only [List.nil_append] at hi ⊢
    rw [h.places i hi, hkept.1, hkept.2]

/-- What the queue stores are its entries. -/
theorem stored (h : Keeps q sent waiting) :
    q.stored.Perm ((sent ++ waiting).map Prod.fst) := by
  have hlen : (sent ++ waiting).length ≤ q.maxQueueSize := by
    have hle := h.represents.count_le
    rwa [List.length_map, List.length_map, ← List.length_append] at hle
  have hitems : (sent.map Named.item).length + (waiting.map Named.item).length =
      (sent ++ waiting).length := by
    rw [List.length_map, List.length_map, List.length_append]
  -- turned to the oldest entry, the ring is the entries and then what is not used
  have hfirst : (q.enqueuedASDUs.rotate q.oldestQueueEntry).take (sent ++ waiting).length =
      ASDUQueue.entries (sent.map Named.item) (waiting.map Named.item) := by
    refine List.ext_getElem? fun i => ?_
    rw [List.getElem?_take]
    split
    next hi =>
      rw [← h.represents.getElem?_place (by rw [hitems]; exact hi),
        List.getElem?_rotate (hi.trans_le hlen), Ring.place, Nat.add_comm]
    next hi =>
      rw [List.getElem?_eq_none]
      rw [ASDUQueue.length_entries, hitems]
      omega
  have hrest : ∀ e ∈ (q.enqueuedASDUs.rotate q.oldestQueueEntry).drop (sent ++ waiting).length,
      e.state = .NOT_USED := by
    intro e he
    obtain ⟨i, hi, rfl⟩ := List.mem_iff_getElem.mp he
    rw [List.length_drop, List.length_rotate] at hi
    rw [List.getElem_drop, List.getElem_rotate]
    have hunused := h.represents.unused
      (((sent ++ waiting).length + i + q.oldestQueueEntry) % q.maxQueueSize) ?_
    · unfold ASDUQueue.stateAt at hunused
      rw [List.getElem?_eq_getElem (Nat.mod_lt _ (by omega))] at hunused
      exact hunused
    · intro j hj heq
      rw [hitems] at hj
      obtain ⟨x, rest, hall⟩ := List.exists_cons_of_length_pos (Nat.zero_lt_of_lt hj)
      have hplace : Ring.place q.maxQueueSize q.oldestQueueEntry ((sent ++ waiting).length + i) =
          Ring.place q.maxQueueSize q.oldestQueueEntry j := by
        rw [← heq, Ring.place, Nat.add_comm]
      have hsum : (sent ++ waiting).length + i < q.maxQueueSize := Nat.add_lt_of_lt_sub' hi
      have := Ring.place_inj (h.first_lt hall) hsum (hj.trans_le hlen) hplace
      omega
  unfold ASDUQueue.stored
  refine (((List.rotate_perm q.enqueuedASDUs q.oldestQueueEntry).symm.filter _).map _).trans ?_
  rw [← List.take_append_drop (sent ++ waiting).length
    (q.enqueuedASDUs.rotate q.oldestQueueEntry), hfirst, List.filter_append, List.map_append]
  have hnone : ((q.enqueuedASDUs.rotate q.oldestQueueEntry).drop (sent ++ waiting).length).filter
      (fun e => decide (e.state ≠ .NOT_USED)) = [] :=
    List.filter_eq_nil_iff.mpr fun e he => by simp [hrest e he]
  have hall : (ASDUQueue.entries (sent.map Named.item) (waiting.map Named.item)).filter
      (fun e => decide (e.state ≠ .NOT_USED)) =
      ASDUQueue.entries (sent.map Named.item) (waiting.map Named.item) := by
    refine List.filter_eq_self.mpr fun e he => ?_
    rcases List.mem_append.mp he with hmem | hmem <;>
      obtain ⟨_, -, rfl⟩ := List.mem_map.mp hmem <;> rfl
  rw [hnone, hall, List.map_nil, List.append_nil]
  simp only [ASDUQueue.entries, List.map_append, List.map_map]
  exact List.Perm.refl _

end Keeps

namespace ASDUQueue

/-- A new ASDU is not ignored or refused. -/
def accepts (q : ASDUQueue) : Bool :=
  q.numberOfAsduInQueue != q.maxQueueSize || q.enqueueMode == .REMOVE_OLDEST

/-- The entry that a new ASDU pushes out. -/
def pushedOut (q : ASDUQueue) : Option ASDUQueueEntry :=
  if q.numberOfAsduInQueue = q.maxQueueSize ∧ q.enqueueMode = .REMOVE_OLDEST then
    q.enqueuedASDUs[q.oldestQueueEntry]?
  else none

end ASDUQueue

/-- The connection there is, with the ASDUs that the clients of the connections before it
received, the ASDUs the low-priority queue accepted and those it pushed out again, and the
times when an ASDU was last put in each queue. -/
structure Session where
  link : Link
  delivered : List (List ℕ) := []
  accepted : List (List ℕ) := []
  pushedOut : List (List ℕ) := []
  lowClock : ℕ := 0
  highClock : ℕ := 0

/-- The threads of a connection act, or the connection ends and the client connects anew. -/
inductive SessionAction where
  | link (a : LinkAction)
  | reconnect (now : ℕ)

def SessionAction.Encoded (cfg : LinkConfig) : SessionAction → Prop
  | .link a => a.Encoded cfg
  | .reconnect _ => True

instance (cfg : LinkConfig) (a : SessionAction) : Decidable (a.Encoded cfg) :=
  match a with
  | .link a => inferInstanceAs (Decidable (a.Encoded cfg))
  | .reconnect _ => inferInstanceAs (Decidable True)

def Session.start (cfg : LinkConfig) (now : ℕ) : Session where
  link := Link.start cfg now

/-- The account of an action. -/
def Session.record (s : Session) : LinkAction → Session
  | .serverEnqueue asdu now =>
    let q := s.link.server.lowPrioQueue
    { s with
      accepted := s.accepted ++ if q.accepts then [asdu] else []
      pushedOut := s.pushedOut ++ (q.pushedOut.map (·.asdu)).toList
      lowClock := now }
  | .serverSend _ now => { s with highClock := now }
  | _ => s

/-- The end of `HandleConnection` leaves the low-priority queue to the next connection. -/
def Session.step (cfg : LinkConfig) (s : Session) : SessionAction → Option Session
  | .link a => (s.link.step cfg a).map fun l => { s.record a with link := l }
  | .reconnect now => some { s with
      link := Link.connect cfg s.link.server.finish.lowPrioQueue now
      delivered := s.delivered ++ s.link.client.received }

/-- The clock does not go back, the two queues are not filled within one millisecond, and an
ASDU does not push out another of its own millisecond. -/
def Session.Timely (s : Session) : SessionAction → Prop
  | .link (.serverEnqueue _ now) => s.lowClock ≤ now ∧ s.highClock < now ∧
      ∀ e ∈ s.link.server.lowPrioQueue.pushedOut, e.entryTimestamp < now
  | .link (.serverSend _ now) => s.highClock ≤ now ∧ s.lowClock < now
  | _ => True

instance (s : Session) (a : SessionAction) : Decidable (s.Timely a) := by
  unfold Session.Timely
  split <;> infer_instance

end JsonScada.Cs104
