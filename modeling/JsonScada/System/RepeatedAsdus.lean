/- path: JsonScada/System/RepeatedAsdus
   source: lib60870.netcore/lib60870/ASDUQueue.cs, CS104/ClientConnection.cs
   digest: Of the ASDUs that wait in the high-priority queue the first one is sent in the place
   of every one. -/

import JsonScada.System.LinkSafety

set_option autoImplicit false
set_option relaxedAutoImplicit false

namespace JsonScada.System.RepeatedAsdus

open JsonScada.Lib JsonScada.Cs104 JsonScada.System.LinkInvariant
open JsonScada.System.LinkSafety (smallLink smallLink_valid)

/-- The queue counts `n` ASDUs, and this is the one at its oldest index. -/
structure Queued (q : ASDUQueue) (n : ℕ) (asdu : List ℕ) : Prop where
  count : q.numberOfAsduInQueue = n
  window : ∃ l e, q.Window (e :: l) ∧ (e :: l).length = n ∧ e.asdu = asdu

/-- The first ASDU in an empty queue. -/
theorem queued_first {q : ASDUQueue} (hsize : 0 < q.maxQueueSize)
    (hempty : q.numberOfAsduInQueue = 0) (asdu : List ℕ) (now : ℤ) :
    ∃ q', q.EnqueueAsdu asdu now = some q' ∧ q'.maxQueueSize = q.maxQueueSize ∧
      Queued q' 1 asdu := by
  refine ⟨_, if_pos hempty, List.length_set .., rfl, [], _, ASDUQueue.Window.single hsize _, rfl,
    rfl⟩

/-- The ASDUs after it leave it where it is. -/
theorem queued_next {q : ASDUQueue} {n : ℕ} {first : List ℕ} (h : Queued q n first)
    (hfree : n < q.maxQueueSize) (asdu : List ℕ) (now : ℤ) :
    ∃ q', q.EnqueueAsdu asdu now = some q' ∧ q'.maxQueueSize = q.maxQueueSize ∧
      Queued q' (n + 1) first := by
  obtain ⟨hcount, l, e, hwindow, hlen, hfirst⟩ := h
  have hpos : n ≠ 0 := by
    rw [← hlen, List.length_cons]
    exact Nat.succ_ne_zero _
  obtain ⟨hput, hwindow'⟩ := hwindow.put (List.cons_ne_nil e l) (by omega)
    ⟨now, asdu, .WAITING_FOR_TRANSMISSION⟩
  have hcall : q.EnqueueAsdu asdu now = some (q.put ⟨now, asdu, .WAITING_FOR_TRANSMISSION⟩) := by
    unfold ASDUQueue.EnqueueAsdu
    rw [if_neg (by omega), if_neg (by omega)]
  rw [List.cons_append] at hwindow'
  refine ⟨_, hcall, ?_, ?_, _, e, hwindow', ?_, hfirst⟩
  · rw [hput]
    exact List.length_set ..
  · rw [hput]
    exact congrArg (· + 1) hcount
  · rw [← hlen]
    simp

variable {cfg : LinkConfig} {l l' : Link} {f g : Flow (List ℕ)}

/-- While the k-buffer is full nothing is sent. -/
theorem sendWaiting_full {c : ClientConnection} (hfull : c.kBuffer.isSentBufferFull = true)
    (hcount : 0 < c.highPrioQueue.numberOfAsduInQueue) (now : ℕ) : c.SendWaitingASDUs now = c := by
  obtain ⟨n, hn⟩ := Nat.exists_eq_succ_of_ne_zero hcount.ne'
  have havailable : c.highPrioQueue.IsHighPriorityAsduAvailable = true := decide_eq_true hcount
  have hsent : ClientConnection.sendHighPriority now (n + 1) c = (false, c) := by
    rw [ClientConnection.sendHighPriority, if_pos havailable]
    simp only [ClientConnection.sendNextHighPriorityASDU, hfull, if_true, Bool.false_eq_true,
      if_false]
  rw [ClientConnection.SendWaitingASDUs, hn, hsent]
  rfl

/-- The link with another high-priority queue. -/
def withQueue (l : Link) (q : ASDUQueue) : Link :=
  { l with server := { l.server with highPrioQueue := q } }

/-- An ASDU a driver sends while the k-buffer is full is queued. -/
theorem send_full (hactive : l.server.isActive = true)
    (hfull : l.server.kBuffer.isSentBufferFull = true) {asdu : List ℕ} {now : ℕ} {q : ASDUQueue}
    (hq : l.server.highPrioQueue.EnqueueAsdu asdu now = some q)
    (hcount : 0 < q.numberOfAsduInQueue) :
    l.step cfg (.serverSend asdu now) = some (withQueue l q) := by
  have hwait : ({ l.server with highPrioQueue := q } : ClientConnection).SendWaitingASDUs now =
      { l.server with highPrioQueue := q } :=
    @sendWaiting_full { l.server with highPrioQueue := q } hfull hcount now
  have hsend : l.server.SendASDUInternal asdu now = some { l.server with highPrioQueue := q } := by
    rw [ClientConnection.SendASDUInternal, if_pos hactive, hq, Option.map_some, hwait]
  simp only [Link.step, hsend, withQueue]

theorem burst_queued {first : List ℕ} (burst : List (List ℕ × ℕ)) : ∀ {q : ASDUQueue} {n : ℕ},
    l.server.isActive = true → l.server.kBuffer.isSentBufferFull = true →
    Queued q n first → n + burst.length ≤ q.maxQueueSize →
    ∃ q', Machine.run (Link.step cfg) (withQueue l q) (burst.map fun x => .serverSend x.1 x.2) =
      some (withQueue l q') ∧ Queued q' (n + burst.length) first := by
  induction burst with
  | nil => exact fun _ _ hq _ => ⟨_, rfl, hq⟩
  | cons x burst ih =>
    intro q n hactive hfull hq hsize
    rw [List.length_cons] at hsize ⊢
    obtain ⟨q', hcall, hkept, hq'⟩ := queued_next hq (by omega) x.1 (x.2 : ℤ)
    have hstep : (withQueue l q).step cfg (.serverSend x.1 x.2) = some (withQueue l q') :=
      @send_full cfg (withQueue l q) hactive hfull x.1 x.2 q' hcall
        (by rw [hq'.count]; exact Nat.succ_pos n)
    obtain ⟨q'', hrun, hdone⟩ := ih hactive hfull hq' (by rw [hkept]; omega)
    refine ⟨q'', ?_, by rwa [Nat.add_right_comm] at hdone⟩
    exact Machine.run_cons_eq_some.mpr ⟨_, hstep, hrun⟩

/-- The ASDUs that a driver sends to an empty queue while the k-buffer is full. -/
theorem burst_of_empty (hactive : l.server.isActive = true)
    (hfull : l.server.kBuffer.isSentBufferFull = true)
    (hempty : l.server.highPrioQueue.numberOfAsduInQueue = 0) {first : List ℕ × ℕ}
    {burst : List (List ℕ × ℕ)}
    (hsize : burst.length + 1 ≤ l.server.highPrioQueue.maxQueueSize)
    (hr : Machine.run (Link.step cfg) l
      ((first :: burst).map fun x => .serverSend x.1 x.2) = some l') :
    ∃ q, l' = withQueue l q ∧ Queued q (burst.length + 1) first.1 := by
  obtain ⟨q, hcall, hkept, hq⟩ := queued_first (by omega) hempty first.1 (first.2 : ℤ)
  have hstep : l.step cfg (.serverSend first.1 first.2) = some (withQueue l q) :=
    send_full hactive hfull hcall (by rw [hq.count]; exact Nat.one_pos)
  obtain ⟨q', hrun, hdone⟩ := @burst_queued cfg l first.1 burst q 1 hactive hfull hq
    (by rw [hkept]; omega)
  have hall : Machine.run (Link.step cfg) l
      ((first :: burst).map fun x => .serverSend x.1 x.2) = some (withQueue l q') :=
    Machine.run_cons_eq_some.mpr ⟨_, hstep, hrun⟩
  rw [hall] at hr
  refine ⟨q', (Option.some.inj hr).symm, ?_⟩
  rwa [Nat.add_comm] at hdone

/-- The actions that leave the high-priority queue alone. -/
def leavesQueue : LinkAction → Bool
  | .serverSend _ _ | .serverSendWaiting _ => false
  | _ => true

theorem step_high (h : Safe cfg l f g) {a : LinkAction} (ha : leavesQueue a = true)
    (hs : l.step cfg a = some l') : l'.server.highPrioQueue = l.server.highPrioQueue := by
  cases a with
  | serverSend asdu now => cases ha
  | serverSendWaiting now => cases ha
  | clientSend asdu now =>
    obtain ⟨c, -, rfl⟩ := Option.map_eq_some_iff.mp hs
    rfl
  | clientSendNext now =>
    obtain ⟨c, -, rfl⟩ := Option.map_eq_some_iff.mp hs
    rfl
  | clientReceive now =>
    simp only [Link.step] at hs
    split at hs <;> cases hs
    rfl
  | clientTimeouts now =>
    simp only [Link.step] at hs
    split at hs <;> cases hs
    rfl
  | clientClose now =>
    simp only [Link.step] at hs
    split at hs <;> cases hs
    rfl
  | serverEnqueue asdu now =>
    simp only [Link.step, Option.some.injEq] at hs
    subst hs
    split <;> rfl
  | serverReceive now =>
    simp only [Link.step] at hs
    split at hs
    next msg rest _ hstream =>
      cases hs
      obtain ⟨c, _, _, removed, hc, hkept, -⟩ := server_HandleMessage h hstream now
      unfold ClientConnection.receive
      rw [hc]
      dsimp only
      split <;> exact hkept.high
    next => cases hs
  | serverTimeouts now =>
    simp only [Link.step] at hs
    split at hs <;> cases hs
    exact (handleTimeouts_same ..).high

/-- What is sent of a queue that counts `n` ASDUs, as far as the k-buffer has room. -/
theorem sendHighPriority_repeats (now : ℕ) : ∀ (n : ℕ) (c : ClientConnection) {acked : ℕ}
    {k : List (SentASDU QueuePlace)} {e : ASDUQueueEntry},
    c.highPrioQueue.numberOfAsduInQueue = n →
    c.highPrioQueue.enqueuedASDUs[c.highPrioQueue.oldestQueueEntry]? = some e →
    Outstanding c.kBuffer acked k → c.sendCount = (acked + k.length) % sequenceNumbers →
    (ClientConnection.sendHighPriority now n c).2.transmitted = c.transmitted ++
        List.replicate (min n (c.kBuffer.maxSentASDUs - k.length)) e.asdu ∧
      (ClientConnection.sendHighPriority now n c).1 =
        decide (n ≤ c.kBuffer.maxSentASDUs - k.length) := by
  intro n
  induction n with
  | zero =>
    intro c acked k e _ _ _ _
    simp [ClientConnection.sendHighPriority]
  | succ n ih =>
    intro c acked k e hcount hget hk hsend
    have havailable : c.highPrioQueue.IsHighPriorityAsduAvailable = true :=
      decide_eq_true (by omega)
    rw [ClientConnection.sendHighPriority, if_pos havailable]
    unfold ClientConnection.sendNextHighPriorityASDU
    by_cases hfull : c.kBuffer.isSentBufferFull = true
    · have hlen := hk.isSentBufferFull_iff.mp hfull
      have hroom : c.kBuffer.maxSentASDUs - k.length = 0 := by omega
      simp [hfull, hroom]
    · have hlt : k.length < c.kBuffer.maxSentASDUs :=
        lt_of_le_of_ne hk.length_le fun hlen => hfull (hk.isSentBufferFull_iff.mpr hlen)
      have hnext : c.highPrioQueue.GetNextHighPriorityWaitingASDU =
          (some (e.asdu, e.entryTimestamp, c.highPrioQueue.oldestQueueEntry),
            { c.highPrioQueue with numberOfAsduInQueue := n }) := by
        unfold ASDUQueue.GetNextHighPriorityWaitingASDU
        rw [if_neg (by omega), hget, hcount]
        rfl
      rw [if_neg hfull, hnext]
      simp only [if_true]
      obtain ⟨hall, hdone⟩ := @ih
        (({ c with highPrioQueue := { c.highPrioQueue with numberOfAsduInQueue := n } } :
          ClientConnection).sendTaken
            (e.asdu, e.entryTimestamp, c.highPrioQueue.oldestQueueEntry) now)
        acked _ e rfl hget
        (outstanding_sendTaken hk (Bool.eq_false_iff.mpr hfull) hsend _ now)
        (by
          rw [List.length_append, List.length_singleton, ← Nat.add_assoc, ← Nat.mod_add_mod,
            ← hsend]
          rfl)
      have hsize : ∀ taken : List ℕ × ℤ × ℕ, (({ c with highPrioQueue :=
          { c.highPrioQueue with numberOfAsduInQueue := n } } :
          ClientConnection).sendTaken taken now).kBuffer.maxSentASDUs = c.kBuffer.maxSentASDUs :=
        fun _ => maxSentASDUs_update ..
      rw [hsize, List.length_append, List.length_singleton] at hall hdone
      refine ⟨hall.trans ?_, hdone.trans ?_⟩
      · have hmin : min (n + 1) (c.kBuffer.maxSentASDUs - k.length) =
            min n (c.kBuffer.maxSentASDUs - (k.length + 1)) + 1 := by omega
        rw [hmin, List.replicate_succ]
        exact List.append_assoc c.transmitted [e.asdu] _
      · rw [decide_eq_decide]
        omega

/-- The low-priority queue adds one ASDU at most. -/
theorem sendNextAvailable_adds (c : ClientConnection) (now : ℕ) :
    ∃ more, (c.sendNextAvailableASDU now).transmitted = c.transmitted ++ more ∧
      more.length ≤ 1 := by
  unfold ClientConnection.sendNextAvailableASDU
  split
  next => exact ⟨[], (List.append_nil _).symm, Nat.zero_le 1⟩
  next =>
    dsimp only
    split
    next => exact ⟨[], (List.append_nil _).symm, Nat.zero_le 1⟩
    next taken _ => exact ⟨[taken.1], rfl, le_rfl⟩

theorem sendWaiting_repeats {c : ClientConnection} {acked n : ℕ} {k : List (SentASDU QueuePlace)}
    {first : List ℕ} (hq : Queued c.highPrioQueue n first) (hk : Outstanding c.kBuffer acked k)
    (hsend : c.sendCount = (acked + k.length) % sequenceNumbers) (now : ℕ) :
    ∃ more, (c.SendWaitingASDUs now).transmitted = c.transmitted ++
        List.replicate (min n (c.kBuffer.maxSentASDUs - k.length)) first ++ more ∧
      more.length ≤ 1 ∧ (c.kBuffer.maxSentASDUs - k.length < n → more = []) := by
  obtain ⟨hcount, l, e, hwindow, -, rfl⟩ := hq
  obtain ⟨hall, hdone⟩ := sendHighPriority_repeats now n c hcount hwindow.ring.head hk hsend
  unfold ClientConnection.SendWaitingASDUs
  rw [hcount]
  dsimp only
  split
  next htrue =>
    obtain ⟨more, hmore, hlen⟩ := sendNextAvailable_adds
      (ClientConnection.sendHighPriority now n c).2 now
    rw [hall] at hmore
    refine ⟨more, hmore, hlen, fun hlt => ?_⟩
    rw [hdone] at htrue
    have hle := of_decide_eq_true htrue
    omega
  next => exact ⟨[], by rw [hall, List.append_nil], Nat.zero_le 1, fun _ => rfl⟩

/-- What a run of actions that leave the queue alone keeps. -/
theorem run_high (hv : cfg.Valid) {as bs : List LinkAction} {now : ℕ}
    (has : ∀ a ∈ as ++ bs, a.Encoded cfg)
    (hl : Machine.run (Link.step cfg) (Link.start cfg now) as = some l)
    (hbs : ∀ b ∈ bs, leavesQueue b = true) (hr : Machine.run (Link.step cfg) l bs = some l') :
    l'.server.highPrioQueue = l.server.highPrioQueue := by
  obtain ⟨⟨f, g, hsafe⟩, -⟩ := run_safe hv (fun a ha => has a (List.mem_append_left bs ha)) hl
  have hinv := Machine.run_invariant
    (P := fun _ b => b.Encoded cfg ∧ leavesQueue b = true)
    (I := fun m => (∃ f g, Safe cfg m f g) ∧ m.server.highPrioQueue = l.server.highPrioQueue)
    (fun m b m' hb hi hs => by
      obtain ⟨⟨f, g, hm⟩, hsame⟩ := hi
      obtain ⟨⟨f', g', hm', -⟩, -⟩ := step_safe hv hm hb.1 hs
      exact ⟨⟨f', g', hm'⟩, (step_high hm hb.2 hs).trans hsame⟩)
    (Machine.every_of_forall_mem fun b hb => ⟨has b (List.mem_append_right as hb), hbs b hb⟩)
    ⟨⟨f, g, hsafe⟩, rfl⟩ hr
  exact hinv.2

/-- The answers that fill the window of the small link. -/
def fillingRun : List LinkAction :=
  [.serverReceive 1, .serverSend [100, 1, 7, 0, 1, 0, 0, 0, 0, 20] 2,
    .serverSend [1, 1, 20, 0, 1, 0, 9, 0, 0, 1] 2]

/-- The client confirms them. -/
def openingRun : List LinkAction :=
  [.clientReceive 3, .clientReceive 3, .clientReceive 3, .serverReceive 4, .serverReceive 4]

end JsonScada.System.RepeatedAsdus
