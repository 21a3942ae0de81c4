/- path: JsonScada/Cs104/QueueContents
   source: lib60870.netcore/lib60870/ASDUQueue.cs
   digest: The queue of encoded ASDUs as a list: what each of its functions does to it. -/

import JsonScada.Lib.Ring
import JsonScada.Cs104.Queue

set_option autoImplicit false
set_option relaxedAutoImplicit false

namespace JsonScada.Cs104

open JsonScada.Lib

namespace ASDUQueue

/-- An ASDU of the queue, with the time it was put there. -/
abbrev Item := List ℕ × ℤ

/-- The entry of an item. -/
def entry (state : QueueEntryState) (item : Item) : ASDUQueueEntry :=
  ⟨item.2, item.1, state⟩

/-- The entries of a queue from the oldest to the latest: those sent, then those that
wait. -/
def entries (sent waiting : List Item) : List ASDUQueueEntry :=
  sent.map (entry .SENT_BUT_NOT_CONFIRMED) ++ waiting.map (entry .WAITING_FOR_TRANSMISSION)

theorem length_entries (sent waiting : List Item) :
    (entries sent waiting).length = sent.length + waiting.length := by
  rw [entries, List.length_append, List.length_map, List.length_map]

theorem entries_nil_iff {sent waiting : List Item} :
    entries sent waiting = [] ↔ sent = [] ∧ waiting = [] := by
  simp [entries]

/-- The places from the oldest to the latest entry hold these, in order. -/
structure Window (q : ASDUQueue) (l : List ASDUQueueEntry) : Prop where
  ring : Ring.Holds q.enqueuedASDUs q.oldestQueueEntry l
  latest : q.latestQueueEntry = Ring.place q.maxQueueSize q.oldestQueueEntry (l.length - 1)

namespace Window

variable {q : ASDUQueue} {l : List ASDUQueueEntry}

/-- The place after the latest entry. -/
theorem next (h : Window q l) (hne : l ≠ []) :
    (q.latestQueueEntry + 1) % q.maxQueueSize =
      Ring.place q.maxQueueSize q.oldestQueueEntry l.length := by
  rw [h.latest, Ring.place_succ, Nat.sub_add_cancel (List.length_pos_of_ne_nil hne)]

/-- As long as a place is free the entry joins the others. -/
theorem put (h : Window q l) (hne : l ≠ []) (hfree : l.length < q.maxQueueSize)
    (e : ASDUQueueEntry) :
    q.put e = { q with
        latestQueueEntry := Ring.place q.maxQueueSize q.oldestQueueEntry l.length
        numberOfAsduInQueue := q.numberOfAsduInQueue + 1
        enqueuedASDUs := q.enqueuedASDUs.set
          (Ring.place q.maxQueueSize q.oldestQueueEntry l.length) e } ∧
      Window (q.put e) (l ++ [e]) := by
  have hother : Ring.place q.maxQueueSize q.oldestQueueEntry l.length ≠ q.oldestQueueEntry := by
    rw [Ne, Ring.place_eq_first h.ring.first_lt (List.length_pos_of_ne_nil hne) hfree.le]
    exact hfree.ne
  have hput : q.put e = { q with
      latestQueueEntry := Ring.place q.maxQueueSize q.oldestQueueEntry l.length
      numberOfAsduInQueue := q.numberOfAsduInQueue + 1
      enqueuedASDUs := q.enqueuedASDUs.set
        (Ring.place q.maxQueueSize q.oldestQueueEntry l.length) e } := by
    unfold ASDUQueue.put
    rw [h.next hne, if_neg hother]
  refine ⟨hput, ?_⟩
  rw [hput]
  refine ⟨h.ring.push hfree e, ?_⟩
  simp only [maxQueueSize, List.length_set, List.length_append, List.length_singleton,
    Nat.add_sub_cancel]

/-- Where no place is free it takes the place of the oldest one. -/
theorem put_full (h : Window q l) (hfull : l.length = q.maxQueueSize) (e : ASDUQueueEntry) :
    q.put e = { q with
        latestQueueEntry := q.oldestQueueEntry
        oldestQueueEntry := Ring.place q.maxQueueSize q.oldestQueueEntry 1
        enqueuedASDUs := q.enqueuedASDUs.set q.oldestQueueEntry e } ∧
      Window (q.put e) (l.drop 1 ++ [e]) := by
  have hsize : 0 < q.maxQueueSize := Nat.zero_lt_of_lt h.ring.first_lt
  have hround : q.maxQueueSize - 1 + 1 = q.maxQueueSize := by omega
  have hne : l ≠ [] := List.ne_nil_of_length_pos (by omega)
  have hback : Ring.place q.maxQueueSize q.oldestQueueEntry q.maxQueueSize =
      q.oldestQueueEntry :=
    (Ring.place_eq_first h.ring.first_lt hsize le_rfl).mpr rfl
  have hput : q.put e = { q with
      latestQueueEntry := q.oldestQueueEntry
      oldestQueueEntry := Ring.place q.maxQueueSize q.oldestQueueEntry 1
      enqueuedASDUs := q.enqueuedASDUs.set q.oldestQueueEntry e } := by
    unfold ASDUQueue.put
    rw [h.next hne, hfull, hback, if_pos rfl]
    rfl
  have hlen : (l.drop 1).length = q.maxQueueSize - 1 := by rw [List.length_drop, hfull]
  have hfree : (l.drop 1).length < q.enqueuedASDUs.length := by
    rw [hlen]
    exact Nat.sub_lt hsize Nat.one_pos
  have hpush := (h.ring.drop (j := 1) (by omega)).push hfree e
  have hplace : Ring.place q.maxQueueSize (Ring.place q.maxQueueSize q.oldestQueueEntry 1)
      (l.drop 1).length = q.oldestQueueEntry := by
    rw [hlen, Ring.place_next, hround, hback]
  rw [hplace] at hpush
  refine ⟨hput, ?_⟩
  rw [hput]
  refine ⟨hpush, ?_⟩
  simp only [maxQueueSize, List.length_set, List.length_append, List.length_singleton,
    Nat.add_sub_cancel]
  exact hplace.symm

end Window

/-- The queue of one ASDU. -/
theorem Window.single {q : ASDUQueue} (hsize : 0 < q.maxQueueSize) (e : ASDUQueueEntry) :
    Window { q with
      oldestQueueEntry := 0
      latestQueueEntry := 0
      numberOfAsduInQueue := 1
      enqueuedASDUs := q.enqueuedASDUs.set 0 e } [e] := by
  have hzero : Ring.place q.maxQueueSize 0 0 = 0 := Ring.place_zero hsize
  have hnone : Ring.Holds q.enqueuedASDUs 0 [] := Ring.Holds.nil hsize
  have hpush := hnone.push hsize e
  rw [List.length_nil, hzero] at hpush
  refine ⟨hpush, ?_⟩
  simp only [maxQueueSize, List.length_set, List.length_singleton, Nat.sub_self]
  exact hzero.symm

/-- The ring holds the entries, and every other place is not used. -/
structure Represents (q : ASDUQueue) (sent waiting : List Item) : Prop where
  size : 0 < q.maxQueueSize
  count : q.numberOfAsduInQueue = sent.length + waiting.length
  placed : entries sent waiting ≠ [] → Window q (entries sent waiting)
  unused : ∀ p, (∀ i, i < sent.length + waiting.length →
    p ≠ Ring.place q.maxQueueSize q.oldestQueueEntry i) → q.stateAt p = .NOT_USED

theorem Represents.new {n : ℕ} (hn : 0 < n) (mode : EnqueueMode) :
    Represents (ASDUQueue.new n mode) [] [] := by
  refine ⟨?_, rfl, fun h => absurd rfl h, ?_⟩
  · rw [maxQueueSize, ASDUQueue.new, List.length_replicate]
    exact hn
  · intro p _
    unfold stateAt ASDUQueue.new
    rw [List.getElem?_replicate]
    split <;> rfl

theorem stateAt_set {q q' : ASDUQueue} {index : ℕ} {e : ASDUQueueEntry}
    (hq : q'.enqueuedASDUs = q.enqueuedASDUs.set index e) {p : ℕ} (hp : index ≠ p) :
    q'.stateAt p = q.stateAt p := by
  unfold stateAt
  rw [hq, List.getElem?_set_ne hp]

namespace Represents

variable {q : ASDUQueue} {sent waiting : List Item}

theorem count_le (h : Represents q sent waiting) :
    sent.length + waiting.length ≤ q.maxQueueSize := by
  by_cases hnil : entries sent waiting = []
  · obtain ⟨rfl, rfl⟩ := entries_nil_iff.mp hnil
    exact Nat.zero_le _
  · have hle := (h.placed hnil).1.length_le
    rw [length_entries] at hle
    exact hle

/-- The entries by their number, while there are any. -/
theorem getElem?_place (h : Represents q sent waiting) {i : ℕ}
    (hi : i < sent.length + waiting.length) :
    q.enqueuedASDUs[Ring.place q.maxQueueSize q.oldestQueueEntry i]? =
      (entries sent waiting)[i]? := by
  have hlen : i < (entries sent waiting).length := by
    rw [length_entries]
    exact hi
  have hne : entries sent waiting ≠ [] := List.ne_nil_of_length_pos (Nat.zero_lt_of_lt hlen)
  exact (h.placed hne).1.get i hlen

theorem stateAt_sent (h : Represents q sent waiting) {i : ℕ} (hi : i < sent.length) :
    q.stateAt (Ring.place q.maxQueueSize q.oldestQueueEntry i) = .SENT_BUT_NOT_CONFIRMED := by
  unfold stateAt
  rw [h.getElem?_place (by omega), entries, List.getElem?_append_left (by simpa using hi)]
  simp [List.getElem?_map, List.getElem?_eq_getElem hi, entry]

/-- The first item that waits follows the items sent. -/
theorem getElem?_first_waiting {item : Item} {rest : List Item}
    (h : Represents q sent (item :: rest)) :
    q.enqueuedASDUs[Ring.place q.maxQueueSize q.oldestQueueEntry sent.length]? =
      some (entry .WAITING_FOR_TRANSMISSION item) := by
  rw [h.getElem?_place (by simp), entries, List.getElem?_append_right (by simp)]
  simp

/-- A new ASDU waits behind the others, as long as the queue is not full. -/
theorem enqueue (h : Represents q sent waiting)
    (hfree : q.numberOfAsduInQueue < q.maxQueueSize) (asdu : List ℕ) (now : ℤ) :
    ∃ q', q.EnqueueAsdu asdu now = some q' ∧ q'.maxQueueSize = q.maxQueueSize ∧
      q'.enqueueMode = q.enqueueMode ∧ Represents q' sent (waiting ++ [(asdu, now)]) ∧
      (q.numberOfAsduInQueue ≠ 0 → q'.oldestQueueEntry = q.oldestQueueEntry) := by
  have hentries : entries sent (waiting ++ [(asdu, now)]) =
      entries sent waiting ++ [entry .WAITING_FOR_TRANSMISSION (asdu, now)] := by
    simp [entries]
  by_cases hzero : q.numberOfAsduInQueue = 0
  · have hcount := h.count
    rw [hzero] at hcount
    obtain rfl : sent = [] := List.length_eq_zero_iff.mp (by omega)
    obtain rfl : waiting = [] := List.length_eq_zero_iff.mp (by omega)
    refine ⟨_, if_pos hzero, ?_, rfl, ⟨?_, rfl, fun _ => Window.single h.size _, ?_⟩,
      fun hcounted => absurd hzero hcounted⟩
    · rw [maxQueueSize, List.length_set]
    · rw [maxQueueSize, List.length_set]
      exact h.size
    · intro p hp
      have hne : 0 ≠ p := by
        intro heq
        refine hp 0 (by simp) ?_
        rw [maxQueueSize, List.length_set, ← heq]
        exact (Ring.place_zero h.size).symm
      rw [stateAt_set rfl hne]
      exact h.unused p fun i hi => absurd hi (Nat.not_lt_zero i)
  · have hne : entries sent waiting ≠ [] := by
      intro hnil
      obtain ⟨rfl, rfl⟩ := entries_nil_iff.mp hnil
      exact hzero h.count
    have hcount := h.count
    have hlen := length_entries sent waiting
    obtain ⟨hput, hwindow⟩ := (h.placed hne).put hne (by rw [hlen, ← hcount]; exact hfree)
      (entry .WAITING_FOR_TRANSMISSION (asdu, now))
    have hcall : q.EnqueueAsdu asdu now =
        some (q.put (entry .WAITING_FOR_TRANSMISSION (asdu, now))) := by
      unfold EnqueueAsdu
      rw [if_neg hzero, if_neg hfree.ne]
      rfl
    rw [hput] at hcall hwindow
    refine ⟨_, hcall, ?_, rfl, ⟨?_, ?_, fun _ => ?_, ?_⟩, fun _ => rfl⟩
    · simp only [maxQueueSize, List.length_set]
    · simp only [maxQueueSize, List.length_set]
      exact h.size
    · simp only [List.length_append, List.length_singleton, hcount]
      omega
    · rw [hentries]
      exact hwindow
    · intro p hp
      simp only [maxQueueSize, List.length_set, List.length_append,
        List.length_singleton] at hp
      have hnew : Ring.place q.maxQueueSize q.oldestQueueEntry
          (entries sent waiting).length ≠ p := by
        intro heq
        rw [hlen] at heq
        exact hp (sent.length + waiting.length) (by omega) heq.symm
      rw [stateAt_set rfl hnew]
      exact h.unused p fun i hi => hp i (by omega)

/-- A new ASDU pushes out the oldest one of a full queue. -/
theorem enqueue_full (h : Represents q sent waiting)
    (hfull : q.numberOfAsduInQueue = q.maxQueueSize) (hmode : q.enqueueMode = .REMOVE_OLDEST)
    (asdu : List ℕ) (now : ℤ) :
    ∃ q', q.EnqueueAsdu asdu now = some q' ∧ q'.maxQueueSize = q.maxQueueSize ∧
      q'.enqueueMode = q.enqueueMode ∧ Represents q' (sent.drop 1)
        (waiting.drop (1 - sent.length) ++ [(asdu, now)]) ∧
      q'.oldestQueueEntry = Ring.place q.maxQueueSize q.oldestQueueEntry 1 := by
  have hcount := h.count
  have hsize := h.size
  have hzero : ¬q.numberOfAsduInQueue = 0 := by omega
  have hne : entries sent waiting ≠ [] := by
    intro hnil
    obtain ⟨rfl, rfl⟩ := entries_nil_iff.mp hnil
    exact hzero h.count
  have hlen : (entries sent waiting).length = q.maxQueueSize := by
    rw [length_entries, ← hcount]
    exact hfull
  obtain ⟨hput, hwindow⟩ := (h.placed hne).put_full hlen
    (entry .WAITING_FOR_TRANSMISSION (asdu, now))
  have hcall : q.EnqueueAsdu asdu now =
      some (q.put (entry .WAITING_FOR_TRANSMISSION (asdu, now))) := by
    unfold EnqueueAsdu
    rw [if_neg hzero, if_pos hfull, hmode]
    rfl
  rw [hput] at hcall hwindow
  have hentries : entries (sent.drop 1) (waiting.drop (1 - sent.length) ++ [(asdu, now)]) =
      (entries sent waiting).drop 1 ++ [entry .WAITING_FOR_TRANSMISSION (asdu, now)] := by
    cases sent with
    | nil => simp [entries]
    | cons x sent => simp [entries]
  have hlen' : (sent.drop 1).length + (waiting.drop (1 - sent.length) ++
      [(asdu, now)]).length = q.maxQueueSize := by
    rw [← length_entries, hentries, List.length_append, List.length_drop,
      List.length_singleton, hlen]
    omega
  have hfirst := (h.placed hne).ring.first_lt
  refine ⟨_, hcall, ?_, rfl, ⟨?_, ?_, fun _ => ?_, ?_⟩, rfl⟩
  · simp only [maxQueueSize, List.length_set]
  · simp only [maxQueueSize, List.length_set]
    exact hsize
  · rw [hlen']
    exact hfull
  · rw [hentries]
    exact hwindow
  · intro p hp
    rw [hlen'] at hp
    simp only [maxQueueSize, List.length_set] at hp
    by_cases hlt : p < q.enqueuedASDUs.length
    · obtain ⟨i, hi, heq⟩ := Ring.exists_place (Ring.place_lt hsize q.oldestQueueEntry 1) hlt
      exact absurd heq.symm (hp i hi)
    · unfold stateAt
      rw [List.getElem?_eq_none (by rw [List.length_set]; omega)]
      rfl

/-- The places of two entries differ. -/
theorem place_ne (h : Represents q sent waiting) {i j : ℕ} (hi : i < sent.length + waiting.length)
    (hj : j < sent.length + waiting.length) (hij : i ≠ j) :
    Ring.place q.maxQueueSize q.oldestQueueEntry i ≠
      Ring.place q.maxQueueSize q.oldestQueueEntry j := by
  intro heq
  have hne : entries sent waiting ≠ [] := by
    refine List.ne_nil_of_length_pos ?_
    rw [length_entries]
    omega
  have hle := h.count_le
  exact hij (Ring.place_inj (h.placed hne).1.first_lt (by rw [maxQueueSize] at hle; omega)
    (by rw [maxQueueSize] at hle; omega) heq)

/-- The latest entry is the last one. -/
theorem latest (h : Represents q sent waiting) (hpos : 0 < sent.length + waiting.length) :
    q.latestQueueEntry =
      Ring.place q.maxQueueSize q.oldestQueueEntry (sent.length + waiting.length - 1) := by
  have hlatest := (h.placed (List.ne_nil_of_length_pos (by rw [length_entries]; exact hpos))).latest
  rw [length_entries] at hlatest
  exact hlatest

/-- The search passes the items that were sent and stops at the first one that waits. -/
theorem findWaiting_eq {item : Item} {rest : List Item}
    (h : Represents q sent (item :: rest)) (rounds i : ℕ) (hi : i ≤ sent.length)
    (hrounds : sent.length < i + rounds) :
    q.findWaiting rounds (Ring.place q.maxQueueSize q.oldestQueueEntry i) =
      Ring.place q.maxQueueSize q.oldestQueueEntry sent.length := by
  induction rounds generalizing i with
  | zero => omega
  | succ rounds ih =>
    unfold findWaiting
    by_cases hlast : i = sent.length
    · have hwait : q.stateAt (Ring.place q.maxQueueSize q.oldestQueueEntry i) =
          .WAITING_FOR_TRANSMISSION := by
        unfold stateAt
        rw [hlast, h.getElem?_first_waiting]
        rfl
      rw [if_pos hwait, hlast]
    · have hlt : i < sent.length := by omega
      have hlatest : Ring.place q.maxQueueSize q.oldestQueueEntry i ≠ q.latestQueueEntry := by
        rw [h.latest (by rw [List.length_cons]; omega)]
        exact h.place_ne (by omega) (by simp) (by rw [List.length_cons]; omega)
      rw [h.stateAt_sent hlt, if_neg (by decide), if_neg hlatest, if_neg (by decide),
        Ring.place_succ]
      exact ih (i + 1) (by omega) (by omega)

/-- Without an item that waits the search ends at one that was sent. -/
theorem findWaiting_sent (h : Represents q sent []) (rounds i : ℕ) (hi : i < sent.length) :
    q.stateAt (q.findWaiting rounds (Ring.place q.maxQueueSize q.oldestQueueEntry i)) =
      .SENT_BUT_NOT_CONFIRMED := by
  induction rounds generalizing i with
  | zero => exact h.stateAt_sent hi
  | succ rounds ih =>
    unfold findWaiting
    have hstate := h.stateAt_sent hi
    rw [hstate, if_neg (by decide)]
    split
    next => exact hstate
    next hlatest =>
      rw [if_neg (by decide), Ring.place_succ]
      refine ih (i + 1) ?_
      by_contra hge
      obtain rfl : i = sent.length - 1 := by omega
      exact hlatest (h.latest (by rw [List.length_nil]; omega)).symm

/-- Nothing is taken where nothing waits. -/
theorem getNext_nil (h : Represents q sent []) : q.GetNextWaitingASDU = (none, q) := by
  have hcount := h.count
  unfold GetNextWaitingASDU
  by_cases hzero : q.numberOfAsduInQueue = 0
  · rw [if_pos hzero]
  · rw [if_neg hzero]
    have hpos : 0 < sent.length := by
      rw [List.length_nil, Nat.add_zero] at hcount
      omega
    have hstate := h.findWaiting_sent q.maxQueueSize 0 hpos
    have hring := (h.placed (List.ne_nil_of_length_pos
      (by rw [length_entries]; exact Nat.lt_add_right _ hpos))).1
    have hfirst : Ring.place q.maxQueueSize q.oldestQueueEntry 0 = q.oldestQueueEntry :=
      Ring.place_zero hring.first_lt
    rw [hfirst] at hstate
    unfold stateAt at hstate
    dsimp only
    cases he : q.enqueuedASDUs[q.findWaiting q.maxQueueSize q.oldestQueueEntry]? with
    | none => rfl
    | some e =>
      rw [he] at hstate
      have hsent : e.state = .SENT_BUT_NOT_CONFIRMED := hstate
      simp only [hsent, reduceCtorEq, if_false]

/-- The first ASDU that waits is taken, and counts as sent. -/
theorem getNext_cons {item : Item} {rest : List Item} (h : Represents q sent (item :: rest)) :
    ∃ q', q.GetNextWaitingASDU = (some (item.1, item.2,
        Ring.place q.maxQueueSize q.oldestQueueEntry sent.length), q') ∧
      q'.maxQueueSize = q.maxQueueSize ∧ q'.enqueueMode = q.enqueueMode ∧
      q'.oldestQueueEntry = q.oldestQueueEntry ∧ Represents q' (sent ++ [item]) rest := by
  have hcount := h.count
  have hle := h.count_le
  rw [List.length_cons] at hcount hle
  have hzero : ¬q.numberOfAsduInQueue = 0 := by omega
  have hring := (h.placed (by simp [entries])).ring
  have hlatest := h.latest (by rw [List.length_cons]; omega)
  have hfirst : Ring.place q.maxQueueSize q.oldestQueueEntry 0 = q.oldestQueueEntry :=
    Ring.place_zero hring.first_lt
  have hindex := h.findWaiting_eq q.maxQueueSize 0 (Nat.zero_le _) (by omega)
  rw [hfirst] at hindex
  have hget := h.getElem?_first_waiting
  have hentries : entries (sent ++ [item]) rest =
      (entries sent (item :: rest)).set sent.length (entry .SENT_BUT_NOT_CONFIRMED item) := by
    simp only [entries, List.map_append, List.map_cons, List.map_nil, List.append_assoc]
    rw [List.set_append_right _ _ (by simp)]
    simp
  have hset := hring.set (j := sent.length) (by rw [length_entries]; simp)
    (entry .SENT_BUT_NOT_CONFIRMED item)
  have hlen : (sent ++ [item]).length + rest.length =
      sent.length + (item :: rest).length := by
    simp only [List.length_append, List.length_cons, List.length_nil]
    omega
  have htaken : q.GetNextWaitingASDU = (some (item.1, item.2,
      Ring.place q.maxQueueSize q.oldestQueueEntry sent.length),
      { q with
        enqueuedASDUs := q.enqueuedASDUs.set
          (Ring.place q.maxQueueSize q.oldestQueueEntry sent.length)
          (entry .SENT_BUT_NOT_CONFIRMED item) }) := by
    unfold GetNextWaitingASDU
    rw [if_neg hzero, hindex]
    simp only [hget, entry, if_true]
  refine ⟨_, htaken, ?_, rfl, rfl, ?_, ?_, fun _ => ⟨?_, ?_⟩, ?_⟩
  · simp only [maxQueueSize, List.length_set]
  · simp only [maxQueueSize, List.length_set]
    exact h.size
  · rw [hlen]
    exact h.count
  · rw [hentries]
    exact hset
  · rw [length_entries, hlen]
    simp only [maxQueueSize, List.length_set]
    exact hlatest
  · intro p hp
    rw [hlen] at hp
    simp only [maxQueueSize, List.length_set] at hp
    have hother : Ring.place q.maxQueueSize q.oldestQueueEntry sent.length ≠ p := by
      intro heq
      exact hp sent.length (by simp) heq.symm
    rw [stateAt_set rfl hother]
    exact h.unused p hp

/-- All items wait again, in their order. -/
theorem unmarkAll (h : Represents q sent waiting) :
    Represents q.UnmarkAllASDUs [] (sent ++ waiting) := by
  have hlen : ([] : List Item).length + (sent ++ waiting).length =
      sent.length + waiting.length := by
    rw [List.length_nil, Nat.zero_add, List.length_append]
  have hentries : entries [] (sent ++ waiting) = (entries sent waiting).map unmark := by
    simp only [entries, List.map_nil, List.nil_append, List.map_append, List.map_map]
    congr 1
  have hcount := h.count
  unfold UnmarkAllASDUs
  by_cases hpos : 0 < q.numberOfAsduInQueue
  · rw [if_pos hpos]
    refine ⟨?_, ?_, fun hne => ⟨?_, ?_⟩, ?_⟩
    · simp only [maxQueueSize, List.length_map]
      exact h.size
    · rw [hlen]
      exact hcount
    · rw [hentries] at hne ⊢
      exact (h.placed fun hnil => hne (by rw [hnil]; rfl)).1.map unmark
    · rw [length_entries, hlen]
      simp only [maxQueueSize, List.length_map]
      exact h.latest (by omega)
    · intro p hp
      rw [hlen] at hp
      simp only [maxQueueSize, List.length_map] at hp
      have hold := h.unused p hp
      unfold stateAt at hold ⊢
      rw [List.getElem?_map]
      cases he : q.enqueuedASDUs[p]? with
      | none => rfl
      | some e =>
        rw [he] at hold
        have hunused : e.state = .NOT_USED := hold
        simp [unmark, hunused]
  · rw [if_neg hpos]
    obtain rfl : sent = [] := List.length_eq_zero_iff.mp (by omega)
    obtain rfl : waiting = [] := List.length_eq_zero_iff.mp (by omega)
    exact h

end Represents

/-- The entries at these places are cleared, and the others kept. -/
def ClearedFrom (l l' : List ASDUQueueEntry) (first i : ℕ) : Prop :=
  l'.length = l.length ∧
    (∀ k ≤ i, l'[Ring.place l.length first k]? = (l[Ring.place l.length first k]?).map clear) ∧
    ∀ p, (∀ k ≤ i, p ≠ Ring.place l.length first k) → l'[p]? = l[p]?

theorem ClearedFrom.modify {l l' : List ASDUQueueEntry} {first i : ℕ} (hf : first < l.length)
    (hi : i + 1 < l.length)
    (h : ClearedFrom (l.modify (Ring.place l.length first (i + 1)) clear) l' first i) :
    ClearedFrom l l' first (i + 1) := by
  obtain ⟨hlen, hclear, hkeep⟩ := h
  rw [List.length_modify] at hlen hclear hkeep
  have hne : ∀ k ≤ i, Ring.place l.length first (i + 1) ≠ Ring.place l.length first k := by
    intro k hk heq
    have := Ring.place_inj hf hi (by omega) heq
    omega
  refine ⟨hlen, ?_, ?_⟩
  · intro k hk
    by_cases hlast : k = i + 1
    · subst hlast
      rw [hkeep _ fun k hk => hne k hk, List.getElem?_modify_eq]
      rfl
    · have hk' : k ≤ i := by omega
      rw [hclear k hk', List.getElem?_modify_ne _ _ (hne k hk')]
  · intro p hp
    rw [hkeep p fun k hk => hp k (by omega),
      List.getElem?_modify_ne _ _ (hp (i + 1) le_rfl).symm]

/-- The loop clears the entries from the oldest to the one at the index, where all these
were sent, and leaves `r` entries. -/
theorem removeSent_eq {i₀ r : ℕ} :
    ∀ (i rounds : ℕ) (q : ASDUQueue), q.oldestQueueEntry < q.maxQueueSize →
      i₀ < q.maxQueueSize → i ≤ i₀ → i < rounds → q.numberOfAsduInQueue = i + 1 + r →
      (∀ k ≤ i, q.stateAt (Ring.place q.maxQueueSize q.oldestQueueEntry k) =
        .SENT_BUT_NOT_CONFIRMED) →
      ∃ l, ClearedFrom q.enqueuedASDUs l q.oldestQueueEntry i ∧
        removeSent (Ring.place q.maxQueueSize q.oldestQueueEntry i₀) rounds
            (Ring.place q.maxQueueSize q.oldestQueueEntry i) q =
          { q with
            enqueuedASDUs := l
            numberOfAsduInQueue := r
            oldestQueueEntry := if r = 0 then q.oldestQueueEntry
              else Ring.place q.maxQueueSize q.oldestQueueEntry (i₀ + 1)
            latestQueueEntry := if r = 1 then
                Ring.place q.maxQueueSize q.oldestQueueEntry (i₀ + 1)
              else q.latestQueueEntry } := by
  intro i
  induction i with
  | zero =>
    intro rounds q hf hi₀ _ hrounds hcount hsent
    obtain ⟨rounds, rfl⟩ : ∃ n, rounds = n + 1 := ⟨rounds - 1, by omega⟩
    have hzero : Ring.place q.maxQueueSize q.oldestQueueEntry 0 = q.oldestQueueEntry :=
      Ring.place_zero hf
    have hstate := hsent 0 le_rfl
    have hplace : ∀ k ≤ 0, Ring.place q.enqueuedASDUs.length q.oldestQueueEntry k =
        q.oldestQueueEntry := by
      intro k hk
      obtain rfl : k = 0 := by omega
      exact hzero
    refine ⟨q.enqueuedASDUs.modify q.oldestQueueEntry clear, ⟨List.length_modify _ _ _, ?_, ?_⟩, ?_⟩
    · intro k hk
      rw [hplace k hk, List.getElem?_modify_eq]
      rfl
    · intro p hp
      have hne := hp 0 le_rfl
      rw [hplace 0 le_rfl] at hne
      exact List.getElem?_modify_ne _ _ hne.symm
    · rw [hzero] at hstate ⊢
      unfold removeSent
      rw [if_pos hstate]
      have hnext : q.numberOfAsduInQueue - 1 = r := by omega
      simp only [hnext, if_true, Ring.place_succ]
      by_cases hr : r = 0
      · subst hr
        simp
      · simp only [hr, if_false]
  | succ i ih =>
    intro rounds q hf hi₀ hi hrounds hcount hsent
    obtain ⟨rounds, rfl⟩ : ∃ n, rounds = n + 1 := ⟨rounds - 1, by omega⟩
    have hstate := hsent (i + 1) le_rfl
    have hzero : Ring.place q.maxQueueSize q.oldestQueueEntry 0 = q.oldestQueueEntry :=
      Ring.place_zero hf
    have hdiffer : ∀ k ≤ i, Ring.place q.maxQueueSize q.oldestQueueEntry (i + 1) ≠
        Ring.place q.maxQueueSize q.oldestQueueEntry k := by
      intro k hk heq
      have := Ring.place_inj hf (by omega) (by omega) heq
      omega
    have hother := hdiffer 0 (Nat.zero_le i)
    rw [hzero] at hother
    have hback : Ring.place q.maxQueueSize q.oldestQueueEntry i ≠
        Ring.place q.maxQueueSize q.oldestQueueEntry i₀ := by
      intro heq
      have := Ring.place_inj hf (by omega) hi₀ heq
      omega
    have hprev : (if Ring.place q.maxQueueSize q.oldestQueueEntry (i + 1) = 0 then
        q.maxQueueSize - 1 else Ring.place q.maxQueueSize q.oldestQueueEntry (i + 1) - 1) =
        Ring.place q.maxQueueSize q.oldestQueueEntry i :=
      Ring.place_pred hf (Nat.succ_pos i) (by omega)
    -- the entries before this one are still marked as sent
    obtain ⟨l, hl, hrest⟩ := ih rounds { q with
        numberOfAsduInQueue := q.numberOfAsduInQueue - 1
        enqueuedASDUs := q.enqueuedASDUs.modify
          (Ring.place q.maxQueueSize q.oldestQueueEntry (i + 1)) clear }
      (by simpa [maxQueueSize] using hf) (by simpa [maxQueueSize] using hi₀) (by omega)
      (by omega) (by simp only; omega)
      (by
        intro k hk
        have hkept := hsent k (by omega)
        unfold stateAt at hkept ⊢
        simp only [maxQueueSize, List.length_modify] at hkept ⊢
        rw [List.getElem?_modify_ne _ _ (hdiffer k hk)]
        exact hkept)
    simp only [maxQueueSize, List.length_modify] at hl hrest
    refine ⟨l, hl.modify hf (by rw [maxQueueSize] at hi₀; omega), ?_⟩
    unfold removeSent
    rw [if_pos hstate]
    have hcount' : ¬q.numberOfAsduInQueue - 1 = 0 := by omega
    simp only [hcount', if_false, hother, hprev, hback]
    exact hrest

namespace Represents

variable {q : ASDUQueue} {sent waiting : List Item}

/-- A confirmation that names the place and the time of an item that was sent removes it
with all the items before it, and leaves the others where they are. -/
theorem confirm (h : Represents q sent waiting) {j : ℕ} (hj : j < sent.length) :
    ∃ q', q.MarkASDUAsConfirmed (Ring.place q.maxQueueSize q.oldestQueueEntry j)
        (sent.get ⟨j, hj⟩).2 = q' ∧ q'.maxQueueSize = q.maxQueueSize ∧
      q'.enqueueMode = q.enqueueMode ∧ Represents q' (sent.drop (j + 1)) waiting ∧
      ∀ i, j + 1 + i < sent.length + waiting.length →
        Ring.place q'.maxQueueSize q'.oldestQueueEntry i =
          Ring.place q.maxQueueSize q.oldestQueueEntry (j + 1 + i) := by
  have hcount := h.count
  have hle := h.count_le
  have hne : entries sent waiting ≠ [] := by
    refine List.ne_nil_of_length_pos ?_
    rw [length_entries]
    omega
  have hring := (h.placed hne).ring
  have hlatest := h.latest (by omega)
  have hget : q.enqueuedASDUs[Ring.place q.maxQueueSize q.oldestQueueEntry j]? =
      some (entry .SENT_BUT_NOT_CONFIRMED (sent.get ⟨j, hj⟩)) := by
    rw [h.getElem?_place (by omega), entries, List.getElem?_append_left (by simpa using hj)]
    simp [List.getElem?_map, List.getElem?_eq_getElem hj]
  obtain ⟨r, hr⟩ : ∃ r, sent.length + waiting.length = j + 1 + r :=
    ⟨sent.length + waiting.length - (j + 1), by omega⟩
  obtain ⟨l, ⟨hlen, hclear, hkeep⟩, hremoved⟩ := @removeSent_eq j r j q.maxQueueSize
    q hring.first_lt (by omega) le_rfl (by omega) (hcount.trans hr)
    (fun k hk => h.stateAt_sent (by omega))
  refine ⟨_, rfl, ?_⟩
  have hmark : q.MarkASDUAsConfirmed (Ring.place q.maxQueueSize q.oldestQueueEntry j)
      (sent.get ⟨j, hj⟩).2 = removeSent (Ring.place q.maxQueueSize q.oldestQueueEntry j)
        q.maxQueueSize (Ring.place q.maxQueueSize q.oldestQueueEntry j) q := by
    unfold MarkASDUAsConfirmed
    rw [if_pos (by omega), hget]
    simp only [entry, true_and, if_true]
  rw [hmark, hremoved]
  have hdrop : entries (sent.drop (j + 1)) waiting = (entries sent waiting).drop (j + 1) := by
    simp only [entries, List.map_drop]
    rw [List.drop_append_of_le_length (by rw [List.length_map]; omega)]
  have hrest : (sent.drop (j + 1)).length + waiting.length = r := by
    rw [List.length_drop]
    omega
  have hbetween : ∀ i, Ring.place q.maxQueueSize
      (Ring.place q.maxQueueSize q.oldestQueueEntry (j + 1)) i =
      Ring.place q.maxQueueSize q.oldestQueueEntry (j + 1 + i) := by
    intro i
    rw [Ring.place, Ring.place, Nat.mod_add_mod, Ring.place, Nat.add_assoc]
  refine ⟨hlen, rfl, ⟨?_, hrest.symm, fun hleft => ⟨?_, ?_⟩, ?_⟩, ?_⟩
  · simp only [maxQueueSize, hlen]
    exact h.size
  · have hr0 : r ≠ 0 := by
      intro hzero
      rw [hzero] at hrest
      refine hleft (List.eq_nil_of_length_eq_zero ?_)
      rw [length_entries, hrest]
    rw [hdrop]
    simp only [hr0, if_false]
    refine (hring.drop (by rw [length_entries]; omega)).congr hlen ?_
    intro i hi
    rw [List.length_drop, length_entries] at hi
    refine hkeep _ fun k hk => ?_
    rw [hbetween i]
    exact h.place_ne (by omega) (by omega) (by omega)
  · have hr0 : r ≠ 0 := by
      intro hzero
      rw [hzero] at hrest
      refine hleft (List.eq_nil_of_length_eq_zero ?_)
      rw [length_entries, hrest]
    rw [length_entries, hrest]
    simp only [hr0, if_false, maxQueueSize, hlen]
    by_cases hone : r = 1
    · subst hone
      simp only [if_true, Nat.sub_self]
      exact (Ring.place_zero (Ring.place_lt h.size _ _)).symm
    · rw [if_neg hone, hbetween, hlatest]
      congr 1
      omega
  · intro p hp
    rw [hrest] at hp
    simp only [maxQueueSize, hlen] at hp
    unfold stateAt
    dsimp only
    by_cases hfirst : ∃ k ≤ j, p = Ring.place q.maxQueueSize q.oldestQueueEntry k
    · obtain ⟨k, hk, rfl⟩ := hfirst
      rw [hclear k hk]
      cases q.enqueuedASDUs[Ring.place q.enqueuedASDUs.length q.oldestQueueEntry k]? with
      | none => rfl
      | some e => rfl
    · have hfirst' : ∀ k ≤ j, p ≠ Ring.place q.maxQueueSize q.oldestQueueEntry k := by
        intro k hk heq
        exact hfirst ⟨k, hk, heq⟩
      rw [hkeep p hfirst']
      refine h.unused p fun i hi => ?_
      by_cases hij : i ≤ j
      · exact hfirst' i hij
      · have hi' := hp (i - (j + 1)) (by omega)
        have hr0 : r ≠ 0 := by omega
        rw [if_neg hr0, hbetween] at hi'
        rwa [show j + 1 + (i - (j + 1)) = i by omega] at hi'
  · intro i hi
    have hr0 : r ≠ 0 := by omega
    simp only [maxQueueSize, hlen, hr0, if_false]
    exact hbetween i

/-- A confirmation with another time, or of a place whose entry was not sent, changes
nothing. -/
theorem confirm_other (h : Represents q sent waiting) {index : ℕ} {timestamp : ℤ}
    (hother : ∀ j (hj : j < sent.length),
      ¬(index = Ring.place q.maxQueueSize q.oldestQueueEntry j ∧
        timestamp = (sent.get ⟨j, hj⟩).2)) :
    q.MarkASDUAsConfirmed index timestamp = q := by
  unfold MarkASDUAsConfirmed
  by_cases hpos : 0 < q.numberOfAsduInQueue
  · rw [if_pos hpos]
    cases he : q.enqueuedASDUs[index]? with
    | none => rfl
    | some e =>
      refine if_neg ?_
      rintro ⟨hstate, htime⟩
      have hat : q.stateAt index = .SENT_BUT_NOT_CONFIRMED := by
        unfold stateAt
        rw [he]
        exact hstate
      have hmem : ∃ i < sent.length + waiting.length,
          index = Ring.place q.maxQueueSize q.oldestQueueEntry i := by
        by_contra hnone
        push Not at hnone
        rw [h.unused index hnone] at hat
        cases hat
      obtain ⟨i, hi, rfl⟩ := hmem
      rw [h.getElem?_place hi, entries] at he
      by_cases hsent : i < sent.length
      · rw [List.getElem?_append_left (by simpa using hsent), List.getElem?_map,
          List.getElem?_eq_getElem hsent] at he
        cases he
        exact hother i hsent ⟨rfl, htime.symm⟩
      · rw [List.getElem?_append_right (by simpa using hsent), List.getElem?_map] at he
        obtain ⟨item, -, rfl⟩ := Option.map_eq_some_iff.mp he
        cases hstate
  · rw [if_neg hpos]

end Represents

/-- The ASDUs of the queue and the times they were put there satisfy `P`, those of the slots
between the oldest and the latest index included that were taken before their time. -/
def Stocked (P : List ℕ → ℤ → Prop) (q : ASDUQueue) : Prop :=
  0 < q.maxQueueSize ∧ (q.numberOfAsduInQueue ≠ 0 →
    ∃ l, l ≠ [] ∧ Window q l ∧ ∀ e ∈ l, P e.asdu e.entryTimestamp)

theorem Stocked.new {P : List ℕ → ℤ → Prop} {n : ℕ} (hn : 0 < n) (mode : EnqueueMode) :
    Stocked P (ASDUQueue.new n mode) := by
  refine ⟨?_, fun h => absurd rfl h⟩
  rw [maxQueueSize, ASDUQueue.new, List.length_replicate]
  exact hn

namespace Stocked

variable {P : List ℕ → ℤ → Prop} {q : ASDUQueue}

theorem imp {P' : List ℕ → ℤ → Prop} (h : Stocked P q) (hp : ∀ asdu t, P asdu t → P' asdu t) :
    Stocked P' q := by
  refine ⟨h.1, fun hcount => ?_⟩
  obtain ⟨l, hne, hwindow, hall⟩ := h.2 hcount
  exact ⟨l, hne, hwindow, fun e he => hp _ _ (hall e he)⟩

theorem put (h : Stocked P q) (hcount : q.numberOfAsduInQueue ≠ 0) {e : ASDUQueueEntry}
    (he : P e.asdu e.entryTimestamp) : Stocked P (q.put e) := by
  obtain ⟨l, hne, hwindow, hall⟩ := h.2 hcount
  have hsize : (q.put e).maxQueueSize = q.maxQueueSize := by
    unfold ASDUQueue.put
    dsimp only
    split <;> exact List.length_set
  refine ⟨hsize ▸ h.1, fun _ => ?_⟩
  by_cases hfree : l.length < q.maxQueueSize
  · refine ⟨l ++ [e], by simp, (hwindow.put hne hfree e).2, ?_⟩
    intro x hx
    rcases List.mem_append.mp hx with hx | hx
    · exact hall x hx
    · exact List.mem_singleton.mp hx ▸ he
  · have hfull : l.length = q.maxQueueSize :=
      le_antisymm hwindow.ring.length_le (Nat.le_of_not_lt hfree)
    refine ⟨l.drop 1 ++ [e], by simp, (hwindow.put_full hfull e).2, ?_⟩
    intro x hx
    rcases List.mem_append.mp hx with hx | hx
    · exact hall x (List.mem_of_mem_drop hx)
    · exact List.mem_singleton.mp hx ▸ he

theorem enqueue (h : Stocked P q) {asdu : List ℕ} {now : ℤ} (hp : P asdu now) {q' : ASDUQueue}
    (hq : q.EnqueueAsdu asdu now = some q') : Stocked P q' := by
  unfold EnqueueAsdu at hq
  dsimp only at hq
  split at hq
  next hzero =>
    cases hq
    refine ⟨by simpa [maxQueueSize] using h.1, fun _ => ⟨_, by simp, Window.single h.1 _, ?_⟩⟩
    intro x hx
    exact List.mem_singleton.mp hx ▸ hp
  next hzero =>
    split at hq
    next =>
      cases hmode : q.enqueueMode with
      | REMOVE_OLDEST =>
        rw [hmode] at hq
        cases hq
        exact h.put hzero hp
      | IGNORE =>
        rw [hmode] at hq
        cases hq
        exact h
      | THROW_EXCEPTION =>
        rw [hmode] at hq
        cases hq
    next =>
      cases hq
      exact h.put hzero hp

theorem getNext (h : Stocked P q) :
    Stocked P q.GetNextHighPriorityWaitingASDU.2 ∧
      ∀ taken, q.GetNextHighPriorityWaitingASDU.1 = some taken → P taken.1 taken.2.1 := by
  unfold GetNextHighPriorityWaitingASDU
  split
  next => exact ⟨h, fun _ htaken => by cases htaken⟩
  next hcount =>
    obtain ⟨l, hne, hwindow, hall⟩ := h.2 hcount
    have hstocked : Stocked P { q with numberOfAsduInQueue := q.numberOfAsduInQueue - 1 } :=
      ⟨h.1, fun _ => ⟨l, hne, ⟨hwindow.ring, hwindow.latest⟩, hall⟩⟩
    cases l with
    | nil => exact absurd rfl hne
    | cons e rest =>
      have hget := hwindow.ring.head
      simp only [hget]
      refine ⟨hstocked, fun taken htaken => ?_⟩
      cases htaken
      exact hall e List.mem_cons_self

/-- There is an entry to take while the queue counts one. -/
theorem getNext_some (h : Stocked P q) (hcount : 0 < q.numberOfAsduInQueue) :
    ∃ taken, q.GetNextHighPriorityWaitingASDU.1 = some taken := by
  obtain ⟨l, hne, hwindow, -⟩ := h.2 hcount.ne'
  unfold GetNextHighPriorityWaitingASDU
  rw [if_neg hcount.ne']
  cases l with
  | nil => exact absurd rfl hne
  | cons e rest =>
    have hget := hwindow.ring.head
    simp only [hget]
    exact ⟨_, rfl⟩

end Stocked

/-- The ASDUs of a represented queue satisfy `P`. -/
def Filled (P : List ℕ → Prop) (q : ASDUQueue) : Prop :=
  ∃ sent waiting, Represents q sent waiting ∧ ∀ item ∈ sent ++ waiting, P item.1

namespace Filled

variable {P : List ℕ → Prop} {q : ASDUQueue}

theorem new {n : ℕ} (hn : 0 < n) (mode : EnqueueMode) : Filled P (ASDUQueue.new n mode) :=
  ⟨[], [], Represents.new hn mode, fun _ h => absurd h List.not_mem_nil⟩

theorem enqueue (h : Filled P q) {asdu : List ℕ} (hp : P asdu) {now : ℤ} {q' : ASDUQueue}
    (hq : q.EnqueueAsdu asdu now = some q') : Filled P q' := by
  obtain ⟨sent, waiting, hrep, hall⟩ := h
  have hnew : ∀ item ∈ [(asdu, now)], P (Prod.fst item) := by
    intro item hitem
    exact List.mem_singleton.mp hitem ▸ hp
  rcases lt_or_ge q.numberOfAsduInQueue q.maxQueueSize with hfree | hge
  · obtain ⟨q₁, hq₁, -, -, hrep₁, -⟩ := hrep.enqueue hfree asdu now
    rw [hq] at hq₁
    cases hq₁
    refine ⟨_, _, hrep₁, ?_⟩
    intro item hitem
    rw [← List.append_assoc] at hitem
    rcases List.mem_append.mp hitem with hitem | hitem
    · exact hall item hitem
    · exact hnew item hitem
  · have hfull : q.numberOfAsduInQueue = q.maxQueueSize := by
      have hle := hrep.count_le
      have hcount := hrep.count
      omega
    have hzero : ¬q.numberOfAsduInQueue = 0 := by
      have hsize := hrep.size
      omega
    cases hmode : q.enqueueMode with
    | REMOVE_OLDEST =>
      obtain ⟨q₁, hq₁, -, -, hrep₁, -⟩ := hrep.enqueue_full hfull hmode asdu now
      rw [hq] at hq₁
      cases hq₁
      refine ⟨_, _, hrep₁, ?_⟩
      intro item hitem
      rcases List.mem_append.mp hitem with hitem | hitem
      · exact hall item (List.mem_append_left _ (List.mem_of_mem_drop hitem))
      · rcases List.mem_append.mp hitem with hitem | hitem
        · exact hall item (List.mem_append_right _ (List.mem_of_mem_drop hitem))
        · exact hnew item hitem
    | IGNORE =>
      unfold EnqueueAsdu at hq
      rw [if_neg hzero, if_pos hfull, hmode] at hq
      cases hq
      exact ⟨sent, waiting, hrep, hall⟩
    | THROW_EXCEPTION =>
      unfold EnqueueAsdu at hq
      rw [if_neg hzero, if_pos hfull, hmode] at hq
      cases hq

theorem getNext (h : Filled P q) {taken : List ℕ × ℤ × ℕ}
    (htaken : q.GetNextWaitingASDU.1 = some taken) :
    Filled P q.GetNextWaitingASDU.2 ∧ P taken.1 := by
  obtain ⟨sent, waiting, hrep, hall⟩ := h
  cases waiting with
  | nil =>
    rw [hrep.getNext_nil] at htaken
    cases htaken
  | cons item rest =>
    obtain ⟨q', hq', -, -, -, hrep'⟩ := hrep.getNext_cons
    rw [hq'] at htaken ⊢
    cases htaken
    refine ⟨⟨_, _, hrep', ?_⟩, hall item (by simp)⟩
    intro x hx
    rw [List.append_assoc] at hx
    exact hall x hx

/-- Whatever a confirmation names, the queue stays in order. -/
theorem unmarkAll (h : Filled P q) : Filled P q.UnmarkAllASDUs := by
  obtain ⟨sent, waiting, hrep, hall⟩ := h
  exact ⟨[], sent ++ waiting, hrep.unmarkAll, hall⟩

theorem confirm (h : Filled P q) (index : ℕ) (timestamp : ℤ) :
    Filled P (q.MarkASDUAsConfirmed index timestamp) := by
  obtain ⟨sent, waiting, hrep, hall⟩ := h
  by_cases hnamed : ∃ j, ∃ hj : j < sent.length,
      index = Ring.place q.maxQueueSize q.oldestQueueEntry j ∧
        timestamp = (sent.get ⟨j, hj⟩).2
  · obtain ⟨j, hj, rfl, rfl⟩ := hnamed
    obtain ⟨q', hq', -, -, hrep', -⟩ := hrep.confirm hj
    rw [hq']
    refine ⟨_, _, hrep', ?_⟩
    intro item hitem
    rcases List.mem_append.mp hitem with hitem | hitem
    · exact hall item (List.mem_append_left _ (List.mem_of_mem_drop hitem))
    · exact hall item (List.mem_append_right _ hitem)
  · rw [hrep.confirm_other fun j hj heq => hnamed ⟨j, hj, heq⟩]
    exact ⟨sent, waiting, hrep, hall⟩

end Filled

end ASDUQueue

end JsonScada.Cs104
