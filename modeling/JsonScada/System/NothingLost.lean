/- path: JsonScada/System/NothingLost
   source: lib60870.netcore/lib60870/ASDUQueue.cs, CS104/ClientConnection.cs
   digest: No ASDU of the low-priority queue is lost when a connection ends: what was not
   confirmed is sent again. -/

import JsonScada.Cs104.Session
import JsonScada.System.LinkSafety

set_option autoImplicit false
set_option relaxedAutoImplicit false

namespace JsonScada.System.NothingLost

open JsonScada.Lib JsonScada.Cs104 JsonScada.System.LinkInvariant
open JsonScada.System.LinkSafety (smallLink smallLink_valid)

/-- The account of the server's ASDUs when its client confirmed the first `acked`: `p` are
the ASDUs in the k-buffer with the names they have in the queues, `sent` and `waiting` the
entries of the low-priority queue, and `confirmed` the ASDUs that left it so. -/
structure Kept (c : ClientConnection) (s : Session) (acked : ℕ)
    (k : List (SentASDU QueuePlace)) (p sent waiting : List Named)
    (confirmed : List (List ℕ)) : Prop where
  outstanding : Outstanding c.kBuffer acked k
  length : acked + k.length = c.transmitted.length
  names : p.map Prod.snd = k.map (·.entry)
  payloads : p.map Prod.fst = c.transmitted.drop acked
  keeps : Keeps c.lowPrioQueue sent waiting
  among : sent.Sublist p
  once : ∀ x ∈ sent, (p.map Prod.snd).count x.2 ≤ 1
  fresh : ∀ x ∈ waiting, x.2 ∉ p.map Prod.snd
  times : ∀ x ∈ p, x.2.entryTime ≤ s.highClock ∨ x.2.entryTime < s.lowClock ∨
    x.2 ∈ sent.map Prod.snd
  low : ∀ x ∈ sent ++ waiting, x.2.entryTime ≤ s.lowClock
  high : c.highPrioQueue.Stocked fun _ t =>
    t ≤ s.highClock ∧ ∀ x ∈ sent ++ waiting, x.2.entryTime ≠ t
  account : s.accepted.Perm (confirmed ++ s.pushedOut ++ (sent ++ waiting).map Prod.fst)
  arrived : confirmed.Sublist (s.delivered ++ c.transmitted.take acked)

variable {c c' : ClientConnection} {s : Session} {acked : ℕ} {k : List (SentASDU QueuePlace)}
  {p sent waiting : List Named} {confirmed : List (List ℕ)}

namespace Kept

theorem acked_le (h : Kept c s acked k p sent waiting confirmed) :
    acked ≤ c.transmitted.length := by
  have hlen := h.length
  omega

/-- The ASDUs are as they were. -/
theorem same (h : Kept c s acked k p sent waiting confirmed) (hsame : SameAsdus c c') :
    Kept c' s acked k p sent waiting confirmed := by
  obtain ⟨hbuffer, htransmitted, hlow, hhigh⟩ := hsame
  refine ⟨hbuffer ▸ h.outstanding, htransmitted ▸ h.length, h.names, htransmitted ▸ h.payloads,
    hlow ▸ h.keeps, h.among, h.once, h.fresh, h.times, h.low, hhigh ▸ h.high, h.account,
    htransmitted ▸ h.arrived⟩

/-- An ASDU of the low-priority queue is sent. -/
theorem sendLow {x : Named} {rest : List Named}
    (h : Kept c s acked k p sent (x :: rest) confirmed)
    (hfree : c.kBuffer.isSentBufferFull = false)
    (hcount : c.sendCount = c.transmitted.length % sequenceNumbers) {q : ASDUQueue}
    (hq : Keeps q (sent ++ [x]) rest) (now : ℕ) :
    Kept ({ c with lowPrioQueue := q }.sendTaken (x.1, x.2.entryTime, x.2.queueIndex) now)
      s acked (k ++ [slot c (x.1, x.2.entryTime, x.2.queueIndex) now]) (p ++ [x]) (sent ++ [x]) rest confirmed := by
  have hle := h.acked_le
  have hall : sent ++ [x] ++ rest = sent ++ x :: rest := by simp
  have hnodup := h.keeps.names_nodup
  rw [List.map_append, List.map_cons, List.nodup_append] at hnodup
  obtain ⟨-, hrest, hdisjoint⟩ := hnodup
  have hsent : ∀ y ∈ sent, y.2 ≠ x.2 := fun y hy =>
    hdisjoint y.2 (List.mem_map_of_mem hy) x.2 List.mem_cons_self
  refine ⟨outstanding_sendTaken h.outstanding hfree (by rw [hcount, h.length]) _ now, ?_, ?_, ?_, hq,
    h.among.append (List.Sublist.refl [x]), ?_, ?_, ?_, ?_, ?_, ?_, ?_⟩
  · have hlen := h.length
    simp only [ClientConnection.sendTaken, ClientConnection.SendIMessage,
      ClientConnection.write, List.length_append, List.length_singleton]
    omega
  · rw [List.map_append, List.map_append, h.names]
    rfl
  · simp only [ClientConnection.sendTaken, ClientConnection.SendIMessage, ClientConnection.write]
    rw [List.map_append, h.payloads, List.drop_append_of_le_length hle, List.map_singleton]
  · intro y hy
    rw [List.map_append, List.count_append, List.map_singleton]
    rcases List.mem_append.mp hy with hy | hy
    · have hne : [x.2].count y.2 = 0 := by
        rw [List.count_eq_zero, List.mem_singleton]
        exact hsent y hy
      rw [hne]
      exact h.once y hy
    · rw [List.mem_singleton.mp hy, List.count_eq_zero.mpr (h.fresh x List.mem_cons_self),
        List.count_singleton_self]
  · intro y hy hmem
    rw [List.map_append, List.mem_append, List.map_singleton, List.mem_singleton] at hmem
    rcases hmem with hmem | heq
    · exact h.fresh y (List.mem_cons_of_mem x hy) hmem
    · refine (List.nodup_cons.mp hrest).1 ?_
      rw [← heq]
      exact List.mem_map_of_mem hy
  · intro y hy
    rw [List.map_append, List.mem_append]
    rcases List.mem_append.mp hy with hy | hy
    · rcases h.times y hy with hhigh | hlow | hmem
      · exact Or.inl hhigh
      · exact Or.inr (Or.inl hlow)
      · exact Or.inr (Or.inr (Or.inl hmem))
    · rw [List.mem_singleton.mp hy]
      exact Or.inr (Or.inr (Or.inr (List.mem_singleton_self x.2)))
  · rw [hall]
    exact h.low
  · rw [hall]
    exact h.high
  · rw [hall]
    exact h.account
  · simp only [ClientConnection.sendTaken, ClientConnection.SendIMessage, ClientConnection.write]
    rw [List.take_append_of_le_length hle]
    exact h.arrived

/-- An ASDU of the high-priority queue is sent. -/
theorem sendHigh (h : Kept c s acked k p sent waiting confirmed)
    (hfree : c.kBuffer.isSentBufferFull = false)
    (hcount : c.sendCount = c.transmitted.length % sequenceNumbers) {taken : List ℕ × ℤ × ℕ}
    (htaken : c.highPrioQueue.GetNextHighPriorityWaitingASDU.1 = some taken) (now : ℕ) :
    Kept ({ c with highPrioQueue :=
        c.highPrioQueue.GetNextHighPriorityWaitingASDU.2 }.sendTaken taken now)
      s acked (k ++ [slot c taken now])
      (p ++ [(taken.1, ⟨taken.2.1, taken.2.2⟩)]) sent waiting confirmed := by
  have hle := h.acked_le
  obtain ⟨hhigh, hall⟩ := h.high.getNext
  obtain ⟨hclock, hother⟩ := hall taken htaken
  refine ⟨outstanding_sendTaken h.outstanding hfree (by rw [hcount, h.length]) taken now, ?_, ?_, ?_, h.keeps,
    h.among.trans (List.sublist_append_left _ _), ?_, ?_, ?_, h.low, hhigh, h.account, ?_⟩
  · have hlen := h.length
    simp only [ClientConnection.sendTaken, ClientConnection.SendIMessage,
      ClientConnection.write, List.length_append, List.length_singleton]
    omega
  · rw [List.map_append, List.map_append, h.names]
    rfl
  · simp only [ClientConnection.sendTaken, ClientConnection.SendIMessage, ClientConnection.write]
    rw [List.map_append, h.payloads, List.drop_append_of_le_length hle, List.map_singleton]
  · intro y hy
    have hne : [(⟨taken.2.1, taken.2.2⟩ : QueuePlace)].count y.2 = 0 := by
      rw [List.count_eq_zero, List.mem_singleton]
      intro heq
      exact hother y (List.mem_append_left _ hy) (congrArg QueuePlace.entryTime heq)
    rw [List.map_append, List.count_append, List.map_singleton, hne]
    exact h.once y hy
  · intro y hy hmem
    rw [List.map_append, List.mem_append, List.map_singleton, List.mem_singleton] at hmem
    rcases hmem with hmem | heq
    · exact h.fresh y hy hmem
    · exact hother y (List.mem_append_right _ hy) (congrArg QueuePlace.entryTime heq)
  · intro y hy
    rcases List.mem_append.mp hy with hy | hy
    · exact h.times y hy
    · rw [List.mem_singleton.mp hy]
      exact Or.inl hclock
  · simp only [ClientConnection.sendTaken, ClientConnection.SendIMessage, ClientConnection.write]
    rw [List.take_append_of_le_length hle]
    exact h.arrived

/-- A name occurs once, so an entry among the later ones does not bear the first name. -/
theorem name_ne {x y : Named} {p : List Named} (hy : y ∈ p)
    (honce : ((x :: p).map Prod.snd).count y.2 ≤ 1) : y.2 ≠ x.2 := by
  intro heq
  rw [List.map_cons, heq, List.count_cons_self, ← heq] at honce
  have hpos : 0 < (p.map Prod.snd).count y.2 :=
    List.count_pos_iff.mpr (List.mem_map_of_mem hy)
  omega

/-- The confirmed ASDUs leave the queue in their order, and no others. -/
theorem markAll_keeps : ∀ (removed : List (SentASDU QueuePlace)) (p p' sent : List Named)
    (q : ASDUQueue), Keeps q sent waiting → sent.Sublist (p ++ p') →
      p.map Prod.snd = removed.map (·.entry) →
      (∀ x ∈ sent, ((p ++ p').map Prod.snd).count x.2 ≤ 1) →
      ∃ gone sent', sent = gone ++ sent' ∧ Keeps (markAll removed q) sent' waiting ∧
        gone.Sublist p ∧ sent'.Sublist p' := by
  intro removed
  induction removed with
  | nil =>
    intro p p' sent q hq hsub hnames _
    rw [List.map_nil, List.map_eq_nil_iff] at hnames
    rw [hnames] at hsub ⊢
    exact ⟨[], sent, rfl, hq, List.Sublist.refl [], hsub⟩
  | cons slot removed ih =>
    intro p p' sent q hq hsub hnames honce
    cases p with
    | nil => cases hnames
    | cons x p =>
      rw [List.map_cons, List.map_cons, List.cons_eq_cons] at hnames
      obtain ⟨hname, hnames⟩ := hnames
      have hrest : ∀ y ∈ sent, ((p ++ p').map Prod.snd).count y.2 ≤ 1 := fun y hy =>
        (List.count_le_count_cons ..).trans (honce y hy)
      rcases List.sublist_cons_iff.mp hsub with hsub' | ⟨rest, rfl, hsub'⟩
      · -- the first name is not of the queue
        have hother : x.2 ∉ sent.map Prod.snd := by
          intro hmem
          obtain ⟨y, hy, heq⟩ := List.mem_map.mp hmem
          exact name_ne (hsub'.subset hy) (honce y hy) heq
        have hmark := hq.confirm_other hother
        rw [hname] at hmark
        obtain ⟨gone, sent', hsplit, hkeeps, hgone, hsent⟩ := ih p p' sent q hq hsub' hnames hrest
        refine ⟨gone, sent', hsplit, ?_, hgone.cons x, hsent⟩
        rw [markAll, List.foldl_cons, hmark]
        exact hkeeps
      · -- it is the oldest entry's
        have hmark := hq.confirm
        rw [hname] at hmark
        obtain ⟨gone, sent', hsplit, hkeeps, hgone, hsent⟩ := ih p p' rest _ hmark hsub' hnames
          fun y hy => hrest y (List.mem_cons_of_mem x hy)
        refine ⟨x :: gone, sent', by rw [hsplit, List.cons_append], ?_, hgone.cons_cons x, hsent⟩
        rw [markAll, List.foldl_cons]
        exact hkeeps

/-- The client confirms the ASDUs up to the `m`th. -/
theorem hears {m : ℕ} (h : Kept c s acked k p sent waiting confirmed)
    (hm : acked ≤ m ∧ m ≤ acked + k.length)
    (hk : Outstanding c'.kBuffer m (k.drop (m - acked)))
    (htransmitted : c'.transmitted = c.transmitted)
    (hlow : c'.lowPrioQueue = markAll (k.take (m - acked)) c.lowPrioQueue)
    (hhigh : c'.highPrioQueue = c.highPrioQueue) :
    ∃ sent' confirmed', Kept c' s m (k.drop (m - acked)) (p.drop (m - acked)) sent' waiting
      confirmed' := by
  have hsplit := List.take_append_drop (m - acked) p
  obtain ⟨gone, sent', rfl, hkeeps, hgone, hsent⟩ := markAll_keeps (k.take (m - acked))
    (p.take (m - acked)) (p.drop (m - acked)) sent c.lowPrioQueue h.keeps
    (by rw [hsplit]; exact h.among) (by rw [List.map_take, h.names, ← List.map_take])
    (by rw [hsplit]; exact h.once)
  have hone : ∀ x ∈ gone ++ sent', ((p.drop (m - acked)).map Prod.snd).count x.2 ≤ 1 :=
    fun x hx => (((List.drop_sublist _ p).map Prod.snd).count_le x.2).trans (h.once x hx)
  have htaken : c.transmitted.take m =
      c.transmitted.take acked ++ (p.take (m - acked)).map Prod.fst := by
    rw [List.map_take, h.payloads, ← List.take_add]
    congr 1
    omega
  refine ⟨sent', confirmed ++ gone.map Prod.fst, hk, ?_, ?_, ?_, hlow ▸ hkeeps, hsent,
    fun x hx => hone x (List.mem_append_right _ hx), ?_, ?_, ?_, ?_, ?_, ?_⟩
  · have hlen := h.length
    rw [htransmitted, List.length_drop]
    omega
  · rw [List.map_drop, List.map_drop, h.names]
  · rw [List.map_drop, h.payloads, htransmitted, List.drop_drop]
    congr 1
    omega
  · intro x hx hmem
    exact h.fresh x hx (((List.drop_sublist _ p).map Prod.snd).subset hmem)
  · intro x hx
    rcases h.times x (List.mem_of_mem_drop hx) with hclock | hclock | hmem
    · exact Or.inl hclock
    · exact Or.inr (Or.inl hclock)
    · rw [List.map_append, List.mem_append] at hmem
      rcases hmem with hmem | hmem
      · -- a name of what is gone stands before the others
        obtain ⟨y, hy, heq⟩ := List.mem_map.mp hmem
        have hcount := h.once y (List.mem_append_left _ hy)
        rw [← hsplit, List.map_append, List.count_append] at hcount
        have hbefore : 0 < ((p.take (m - acked)).map Prod.snd).count y.2 :=
          List.count_pos_iff.mpr (List.mem_map_of_mem (hgone.subset hy))
        have hafter : 0 < ((p.drop (m - acked)).map Prod.snd).count y.2 := by
          rw [heq]
          exact List.count_pos_iff.mpr (List.mem_map_of_mem hx)
        omega
      · exact Or.inr (Or.inr hmem)
  · intro x hx
    rcases List.mem_append.mp hx with hx | hx
    · exact h.low x (List.mem_append_left _ (List.mem_append_right _ hx))
    · exact h.low x (List.mem_append_right _ hx)
  · rw [hhigh]
    refine h.high.imp fun _ t ht => ⟨ht.1, fun x hx => ?_⟩
    rcases List.mem_append.mp hx with hx | hx
    · exact ht.2 x (List.mem_append_left _ (List.mem_append_right _ hx))
    · exact ht.2 x (List.mem_append_right _ hx)
  · refine h.account.trans ?_
    simp only [List.map_append, List.append_assoc]
    refine List.Perm.append_left confirmed ?_
    exact List.perm_append_comm_assoc ..
  · rw [htransmitted, htaken, ← List.append_assoc]
    exact h.arrived.append (hgone.map Prod.fst)

/-- What the server does with its ASDUs keeps the account. -/
theorem served {n n' : ℕ} (hs : Served c n c' n') :
    ∀ {k : List (SentASDU QueuePlace)} {p sent waiting : List Named}
      {confirmed : List (List ℕ)}, Kept c s n k p sent waiting confirmed →
      ∃ k' p' sent' waiting' confirmed', Kept c' s n' k' p' sent' waiting' confirmed' := by
  induction hs with
  | same hsame =>
    intro k p sent waiting confirmed h
    exact ⟨_, _, _, _, _, h.same hsame⟩
  | low hfree hcount htaken now =>
    intro k p sent waiting confirmed h
    have hnext := h.keeps.getNext
    cases waiting with
    | nil =>
      rw [hnext] at htaken
      cases htaken
    | cons x rest =>
      obtain ⟨q, hq, hkeeps⟩ := hnext
      rw [hq] at htaken ⊢
      cases htaken
      exact ⟨_, _, _, _, _, h.sendLow hfree hcount hkeeps now⟩
  | high hfree hcount htaken now =>
    intro k p sent waiting confirmed h
    exact ⟨_, _, _, _, _, h.sendHigh hfree hcount htaken now⟩
  | hears hk hlen hm hk' htransmitted hlow hhigh =>
    intro k p sent waiting confirmed h
    have heq := hk.unique h.outstanding (by have := h.length; omega)
    subst heq
    obtain ⟨sent', confirmed', hkept⟩ := h.hears hm hk' htransmitted hlow hhigh
    exact ⟨_, _, sent', _, confirmed', hkept⟩
  | trans _ _ ih ih' =>
    intro k p sent waiting confirmed h
    obtain ⟨k', p', sent', waiting', confirmed', h'⟩ := ih h
    exact ih' h'

/-- The clocks only rise. -/
theorem times_of_le (h : Kept c s acked k p sent waiting confirmed) {s' : Session}
    (hlow : s.lowClock ≤ s'.lowClock) (hhigh : s.highClock ≤ s'.highClock) :
    ∀ x ∈ p, x.2.entryTime ≤ s'.highClock ∨ x.2.entryTime < s'.lowClock ∨
      x.2 ∈ sent.map Prod.snd := by
  intro x hx
  rcases h.times x hx with hclock | hclock | hmem
  · exact Or.inl (by omega)
  · exact Or.inr (Or.inl (by omega))
  · exact Or.inr (Or.inr hmem)

/-- A name with the time of a new ASDU is of the entry there is. -/
theorem mem_of_time (h : Kept c s acked k p sent waiting confirmed) {now : ℕ}
    (hlow : s.lowClock ≤ now) (hhigh : s.highClock < now) {name : QueuePlace}
    (hname : name.entryTime = now) (hmem : name ∈ p.map Prod.snd) :
    name ∈ sent.map Prod.snd := by
  obtain ⟨x, hx, rfl⟩ := List.mem_map.mp hmem
  rcases h.times x hx with hclock | hclock | hsent
  · omega
  · omega
  · exact hsent

/-- A new ASDU waits behind the others. -/
theorem enqueueFree (h : Kept s.link.server s acked k p sent waiting confirmed) {now : ℕ}
    (hlow : s.lowClock ≤ now) (hhigh : s.highClock < now) {q : ASDUQueue} {place : ℕ}
    {asdu : List ℕ} (hq : Keeps q sent (waiting ++ [(asdu, ⟨now, place⟩)])) :
    Kept { s.link.server with lowPrioQueue := q }
      { s with accepted := s.accepted ++ [asdu], lowClock := now } acked k p sent
      (waiting ++ [(asdu, ⟨now, place⟩)]) confirmed := by
  have hall : ∀ x ∈ sent ++ (waiting ++ [(asdu, (⟨now, place⟩ : QueuePlace))]),
      x ∈ sent ++ waiting ∨ x = (asdu, ⟨now, place⟩) := by
    intro x hx
    rw [← List.append_assoc] at hx
    exact (List.mem_append.mp hx).imp_right List.mem_singleton.mp
  have hnodup := hq.names_nodup
  rw [List.map_append, List.nodup_append] at hnodup
  refine ⟨h.outstanding, h.length, h.names, h.payloads, hq, h.among, h.once, ?_,
    h.times_of_le hlow le_rfl, ?_, ?_, ?_, h.arrived⟩
  · intro x hx hmem
    rcases List.mem_append.mp hx with hx | hx
    · exact h.fresh x hx hmem
    · rw [List.mem_singleton.mp hx] at hmem
      refine hnodup.2.2 _ (h.mem_of_time hlow hhigh rfl hmem) _ ?_ rfl
      rw [List.map_append]
      exact List.mem_append_right _ (List.mem_singleton_self _)
  · intro x hx
    rcases hall x hx with hx | rfl
    · exact (h.low x hx).trans (by exact_mod_cast hlow)
    · exact le_rfl
  · refine h.high.imp fun _ t ht => ⟨ht.1, fun x hx => ?_⟩
    rcases hall x hx with hx | rfl
    · exact ht.2 x hx
    · have hbelow := ht.1
      simp only [ne_eq]
      omega
  · have hperm := h.account.append_right [asdu]
    simp only [List.map_append, List.map_singleton, List.append_assoc] at hperm ⊢
    exact hperm

/-- A new ASDU pushes out the oldest one, which is of an earlier time. -/
theorem enqueueFull {x : Named} {rest : List Named}
    (h : Kept s.link.server s acked k p sent waiting confirmed) (hall : sent ++ waiting = x :: rest)
    {now : ℕ} (hlow : s.lowClock ≤ now) (hhigh : s.highClock < now)
    (htime : x.2.entryTime < now) {q : ASDUQueue} {asdu : List ℕ}
    (hq : Keeps q (sent.drop 1)
      (waiting.drop (1 - sent.length) ++ [(asdu, ⟨now, x.2.queueIndex⟩)])) :
    Kept { s.link.server with lowPrioQueue := q }
      { s with
        accepted := s.accepted ++ [asdu]
        pushedOut := s.pushedOut ++ [x.1]
        lowClock := now } acked k p (sent.drop 1)
      (waiting.drop (1 - sent.length) ++ [(asdu, ⟨now, x.2.queueIndex⟩)]) confirmed := by
  have hrest : sent.drop 1 ++ (waiting.drop (1 - sent.length) ++
      [(asdu, (⟨now, x.2.queueIndex⟩ : QueuePlace))]) =
      rest ++ [(asdu, ⟨now, x.2.queueIndex⟩)] := by
    rw [← List.append_assoc, ← List.drop_append, hall, List.drop_one, List.tail_cons]
  have hmem : ∀ y ∈ rest ++ [(asdu, (⟨now, x.2.queueIndex⟩ : QueuePlace))],
      y ∈ sent ++ waiting ∨ y = (asdu, ⟨now, x.2.queueIndex⟩) := by
    intro y hy
    rw [hall]
    exact (List.mem_append.mp hy).imp (List.mem_cons_of_mem x) List.mem_singleton.mp
  -- an entry sent stays, or is the one pushed out
  have hsent : ∀ name ∈ sent.map Prod.snd, name ∈ (sent.drop 1).map Prod.snd ∨ name = x.2 := by
    intro name hname
    cases sent with
    | nil => exact absurd hname List.not_mem_nil
    | cons y sent =>
      obtain ⟨rfl, -⟩ := List.cons_eq_cons.mp hall
      rcases List.mem_cons.mp hname with heq | hname
      · exact Or.inr heq
      · exact Or.inl hname
  have hnodup := hq.names_nodup
  rw [List.map_append, List.nodup_append] at hnodup
  refine ⟨h.outstanding, h.length, h.names, h.payloads, hq, (List.drop_sublist 1 sent).trans h.among,
    fun y hy => h.once y (List.mem_of_mem_drop hy), ?_, ?_, ?_, ?_, ?_, h.arrived⟩
  · intro y hy hname
    rcases List.mem_append.mp hy with hy | hy
    · exact h.fresh y (List.mem_of_mem_drop hy) hname
    · rw [List.mem_singleton.mp hy] at hname
      rcases hsent _ (h.mem_of_time hlow hhigh rfl hname) with hold | heq
      · refine hnodup.2.2 _ hold _ ?_ rfl
        rw [List.map_append]
        exact List.mem_append_right _ (List.mem_singleton_self _)
      · rw [← heq] at htime
        exact lt_irrefl _ htime
  · intro y hy
    rcases h.times y hy with hclock | hclock | hname
    · exact Or.inl hclock
    · exact Or.inr (Or.inl (lt_of_lt_of_le hclock (by exact_mod_cast hlow)))
    · rcases hsent _ hname with hold | heq
      · exact Or.inr (Or.inr hold)
      · rw [heq]
        exact Or.inr (Or.inl htime)
  · rw [hrest]
    intro y hy
    rcases hmem y hy with hy | rfl
    · exact (h.low y hy).trans (by exact_mod_cast hlow)
    · exact le_rfl
  · rw [hrest]
    refine h.high.imp fun _ t ht => ⟨ht.1, fun y hy => ?_⟩
    rcases hmem y hy with hy | rfl
    · exact ht.2 y hy
    · have hbelow := ht.1
      simp only [ne_eq]
      omega
  · have hperm := h.account.append_right [asdu]
    rw [hall, List.map_cons] at hperm
    rw [hrest, List.map_append, List.map_singleton]
    simp only [List.append_assoc] at hperm ⊢
    exact hperm

/-- The low-priority queue gets a new ASDU. -/
theorem enqueueLow (h : Kept s.link.server s acked k p sent waiting confirmed) {asdu : List ℕ}
    {now : ℕ} (htimely : s.Timely (.link (.serverEnqueue asdu now))) :
    ∃ sent' waiting', Kept (enqueued s.link.server (.serverEnqueue asdu now))
      (s.record (.serverEnqueue asdu now)) acked k p sent' waiting' confirmed := by
  obtain ⟨hlow, hhigh, hpushed⟩ := htimely
  by_cases hfull : s.link.server.lowPrioQueue.numberOfAsduInQueue =
      s.link.server.lowPrioQueue.maxQueueSize
  · by_cases hmode : s.link.server.lowPrioQueue.enqueueMode = .REMOVE_OLDEST
    · have hpos : 0 < (sent ++ waiting).length := by
        rw [List.length_append, ← h.keeps.count, hfull]
        exact h.keeps.represents.size
      obtain ⟨x, rest, hall⟩ := List.exists_cons_of_length_pos hpos
      obtain ⟨state, hget⟩ := h.keeps.oldest_entry hall
      obtain ⟨q, hq, hkeeps⟩ := h.keeps.enqueue_full hfull hmode asdu now hall
      have hout : s.link.server.lowPrioQueue.pushedOut =
          some (ASDUQueue.entry state x.item) := by
        rw [ASDUQueue.pushedOut, if_pos ⟨hfull, hmode⟩, hget]
      have hrecord : s.record (.serverEnqueue asdu now) = { s with
          accepted := s.accepted ++ [asdu]
          pushedOut := s.pushedOut ++ [x.1]
          lowClock := now } := by
        have haccepts : s.link.server.lowPrioQueue.accepts = true := by
          simp [ASDUQueue.accepts, hmode]
        simp only [Session.record, haccepts, hout, if_true]
        rfl
      rw [hrecord, enqueued, hq, Option.getD_some]
      have htime : x.2.entryTime < now := hpushed (ASDUQueue.entry state x.item) hout
      exact ⟨_, _, h.enqueueFull hall hlow hhigh htime hkeeps⟩
    · -- the queue ignores or refuses it
      have hkept : (s.link.server.lowPrioQueue.EnqueueAsdu asdu now).getD
          s.link.server.lowPrioQueue = s.link.server.lowPrioQueue := by
        have hzero : ¬s.link.server.lowPrioQueue.numberOfAsduInQueue = 0 := by
          have hsize := h.keeps.represents.size
          omega
        unfold ASDUQueue.EnqueueAsdu
        rw [if_neg hzero, if_pos hfull]
        cases hcase : s.link.server.lowPrioQueue.enqueueMode with
        | REMOVE_OLDEST => exact absurd hcase hmode
        | IGNORE => rfl
        | THROW_EXCEPTION => rfl
      have hrecord : s.record (.serverEnqueue asdu now) = { s with lowClock := now } := by
        simp [Session.record, ASDUQueue.accepts, ASDUQueue.pushedOut, hfull, hmode]
      rw [hrecord, enqueued, hkept]
      exact ⟨sent, waiting, h.outstanding, h.length, h.names, h.payloads, h.keeps, h.among,
        h.once, h.fresh, h.times_of_le hlow le_rfl,
        fun x hx => (h.low x hx).trans (by exact_mod_cast hlow), h.high, h.account, h.arrived⟩
  · have hfree : s.link.server.lowPrioQueue.numberOfAsduInQueue <
        s.link.server.lowPrioQueue.maxQueueSize := by
      have hle := h.keeps.represents.count_le
      have hcount := h.keeps.represents.count
      omega
    obtain ⟨q, place, hq, hkeeps⟩ := h.keeps.enqueue hfree asdu now
    have hrecord : s.record (.serverEnqueue asdu now) = { s with
        accepted := s.accepted ++ [asdu]
        lowClock := now } := by
      simp [Session.record, ASDUQueue.accepts, ASDUQueue.pushedOut, hfull]
    rw [hrecord, enqueued, hq, Option.getD_some]
    exact ⟨_, _, h.enqueueFree hlow hhigh hkeeps⟩

/-- The high-priority queue gets a new ASDU, at a time of its own. -/
theorem enqueueHigh (h : Kept s.link.server s acked k p sent waiting confirmed) {asdu : List ℕ}
    {now : ℕ} (htimely : s.Timely (.link (.serverSend asdu now))) :
    Kept (enqueued s.link.server (.serverSend asdu now)) (s.record (.serverSend asdu now)) acked k
      p sent waiting confirmed := by
  obtain ⟨hhigh, hlow⟩ := htimely
  have hold : s.link.server.highPrioQueue.Stocked fun _ t =>
      t ≤ now ∧ ∀ x ∈ sent ++ waiting, x.2.entryTime ≠ t :=
    h.high.imp fun _ t ht => ⟨ht.1.trans (by exact_mod_cast hhigh), ht.2⟩
  have hkept : ∀ {q : ASDUQueue},
      (q.Stocked fun _ t => t ≤ now ∧ ∀ x ∈ sent ++ waiting, x.2.entryTime ≠ t) →
      Kept { s.link.server with highPrioQueue := q } { s with highClock := now } acked k p sent
        waiting confirmed := by
    intro q hq
    exact ⟨h.outstanding, h.length, h.names, h.payloads, h.keeps, h.among, h.once, h.fresh,
      h.times_of_le le_rfl hhigh, h.low, hq, h.account, h.arrived⟩
  simp only [enqueued, Session.record]
  split
  next =>
    refine hkept ?_
    cases hq : s.link.server.highPrioQueue.EnqueueAsdu asdu now with
    | none => exact hold
    | some q =>
      refine hold.enqueue ⟨le_rfl, fun x hx heq => ?_⟩ hq
      have hbelow := h.low x hx
      omega
  next => exact hkept hold

end Kept

/-- What holds in every session: the ends are safe, and the account is kept. -/
def Accounted (cfg : LinkConfig) (s : Session) : Prop :=
  ∃ f g k p sent waiting confirmed, Safe cfg s.link f g ∧
    Kept s.link.server s g.acked k p sent waiting confirmed

variable {cfg : LinkConfig}

theorem Accounted.start (hv : cfg.Valid) (now : ℕ) : Accounted cfg (Session.start cfg now) := by
  refine ⟨_, _, [], [], [], [], [],
    Safe.start hv (ASDUQueue.Filled.new hv.low cfg.enqueueMode) now, ?_⟩
  exact ⟨Outstanding.start hv.serverK, rfl, rfl, rfl, Keeps.new hv.low _, List.Sublist.refl [],
    nofun, nofun, nofun, nofun, ASDUQueue.Stocked.new hv.high _, List.Perm.refl [],
    List.Sublist.refl []⟩

/-- The threads act. -/
theorem Accounted.link (hv : cfg.Valid) (h : Accounted cfg s) {a : LinkAction}
    (ha : a.Encoded cfg) (htimely : s.Timely (.link a)) {l : Link}
    (hl : s.link.step cfg a = some l) : Accounted cfg { s.record a with link := l } := by
  obtain ⟨f, g, k, p, sent, waiting, confirmed, hsafe, hkept⟩ := h
  obtain ⟨⟨f', g', hsafe', hserved⟩, -⟩ := step_safe hv hsafe ha hl
  -- the queue of a driver gets its ASDU, and then the server acts
  have hqueued : ∃ sent' waiting', Kept (enqueued s.link.server a) (s.record a) g.acked k p sent'
      waiting' confirmed := by
    cases a with
    | serverEnqueue asdu now => exact hkept.enqueueLow htimely
    | serverSend asdu now => exact ⟨_, _, hkept.enqueueHigh htimely⟩
    | _ => exact ⟨_, _, hkept⟩
  obtain ⟨sent', waiting', hqueued⟩ := hqueued
  obtain ⟨k', p', sent'', waiting'', confirmed', hkept'⟩ := Kept.served hserved hqueued
  exact ⟨f', g', k', p', sent'', waiting'', confirmed', hsafe', ⟨hkept'.outstanding,
    hkept'.length, hkept'.names, hkept'.payloads, hkept'.keeps, hkept'.among, hkept'.once,
    hkept'.fresh, hkept'.times, hkept'.low, hkept'.high, hkept'.account, hkept'.arrived⟩⟩

/-- What the client confirmed it received. -/
theorem Kept.received {f g : Flow (List ℕ)} (hsafe : Safe cfg s.link f g)
    (h : Kept s.link.server s g.acked k p sent waiting confirmed) :
    confirmed.Sublist (s.delivered ++ s.link.client.received) := by
  have hreceived : s.link.client.received = g.received := hsafe.joined.first.received
  have hsent : s.link.server.transmitted = g.sent := hsafe.joined.second.transmitted
  have hle : g.acked ≤ g.received.length :=
    hsafe.joined.soundBack.acked_le_told.trans hsafe.joined.soundBack.told_le
  refine h.arrived.trans (List.Sublist.append_left ?_ s.delivered)
  rw [hreceived, hsent, ← hsafe.joined.soundBack.data, List.take_append_of_le_length hle]
  exact List.take_sublist _ _

/-- The connection ends, and what was not confirmed waits in the next one. -/
theorem Accounted.reconnect (hv : cfg.Valid) (h : Accounted cfg s) (now : ℕ) :
    Accounted cfg { s with
      link := Link.connect cfg s.link.server.finish.lowPrioQueue now
      delivered := s.delivered ++ s.link.client.received } := by
  obtain ⟨f, g, k, p, sent, waiting, confirmed, hsafe, hkept⟩ := h
  have hreceived := hkept.received hsafe
  have hkeeps : Keeps s.link.server.finish.lowPrioQueue [] (sent ++ waiting) := by
    unfold ClientConnection.finish
    dsimp only
    split
    next => exact hkept.keeps.unmarkAll
    next hnone =>
      -- nothing is outstanding, so nothing was sent
      have hk : k = [] := hkept.outstanding.oldest_none_iff.mp (by simpa using hnone)
      have hp : p = [] := by
        have hnames := hkept.names
        rw [hk, List.map_nil, List.map_eq_nil_iff] at hnames
        exact hnames
      have hsent : sent = [] := by
        have hamong := hkept.among
        rw [hp] at hamong
        exact List.sublist_nil.mp hamong
      have hold := hkept.keeps
      rw [hsent] at hold ⊢
      exact hold
  have hfilled : s.link.server.finish.lowPrioQueue.Filled cfg.Encoded := by
    unfold ClientConnection.finish
    dsimp only
    split
    next => exact hsafe.low.unmarkAll
    next => exact hsafe.low
  refine ⟨{}, {}, [], [], [], sent ++ waiting, confirmed, Safe.start hv hfilled now, ?_⟩
  · refine ⟨Outstanding.start hv.serverK, rfl, rfl, rfl, hkeeps, List.Sublist.refl [], nofun,
      fun _ _ => List.not_mem_nil, nofun, hkept.low, ?_, hkept.account, ?_⟩
    · exact ASDUQueue.Stocked.new hv.high cfg.enqueueMode
    · rw [List.take_zero, List.append_nil]
      exact hreceived

theorem step_accounted (hv : cfg.Valid) {a : SessionAction} {s' : Session}
    (ha : a.Encoded cfg ∧ s.Timely a) (h : Accounted cfg s) (hs : s.step cfg a = some s') :
    Accounted cfg s' := by
  cases a with
  | link a =>
    obtain ⟨l, hl, rfl⟩ := Option.map_eq_some_iff.mp hs
    exact h.link hv ha.1 ha.2 hl
  | reconnect now =>
    cases hs
    exact h.reconnect hv now

/-- Whatever the order of the threads, and whenever the connection ends and the client
connects anew: every ASDU that the low-priority queue accepted was received by the client
over one of the connections, or pushed out by a later one when the queue was full, or the
queue stores it still. -/
theorem accepted_not_lost (hv : cfg.Valid) {now : ℕ} {as : List SessionAction}
    (has : Machine.Every (Session.step cfg) (fun s a => a.Encoded cfg ∧ s.Timely a)
      (Session.start cfg now) as)
    (hr : Machine.run (Session.step cfg) (Session.start cfg now) as = some s) (asdu : List ℕ) :
    s.accepted.count asdu ≤ (s.delivered ++ s.link.client.received).count asdu +
      s.pushedOut.count asdu + s.link.server.lowPrioQueue.stored.count asdu := by
  obtain ⟨f, g, k, p, sent, waiting, confirmed, hsafe, hkept⟩ :=
    Machine.run_invariant (fun s a s' ha hi hs => step_accounted hv ha hi hs) has
      (Accounted.start hv now) hr
  have hconfirmed := (hkept.received hsafe).count_le asdu
  have hstored := hkept.keeps.stored.count_eq asdu
  have haccount := hkept.account.count_eq asdu
  rw [List.count_append, List.count_append] at haccount
  omega

/-- A session in which a connection ends with an ASDU not confirmed, the next one sends it
again, and a full queue gives up its oldest. -/
def smallSession : List SessionAction :=
  [.link (.serverReceive 1), .link (.serverEnqueue [1, 1, 3, 0, 1, 0, 9, 0, 0, 1] 2),
    .link (.serverSendWaiting 2), .reconnect 3, .link (.serverReceive 4),
    .link (.serverSendWaiting 5), .link (.clientReceive 6), .link (.clientReceive 6),
    .link (.serverEnqueue [1, 1, 3, 0, 1, 0, 9, 0, 0, 0] 7),
    .link (.serverEnqueue [1, 1, 3, 0, 1, 0, 8, 0, 0, 0] 8),
    .link (.serverEnqueue [1, 1, 3, 0, 1, 0, 7, 0, 0, 0] 9)]

theorem smallSession_not_lost : ∃ s, Machine.run (Session.step smallLink)
    (Session.start smallLink 0) smallSession = some s ∧
      s.accepted.count [1, 1, 3, 0, 1, 0, 9, 0, 0, 1] ≤
        (s.delivered ++ s.link.client.received).count [1, 1, 3, 0, 1, 0, 9, 0, 0, 1] +
          s.pushedOut.count [1, 1, 3, 0, 1, 0, 9, 0, 0, 1] +
          s.link.server.lowPrioQueue.stored.count [1, 1, 3, 0, 1, 0, 9, 0, 0, 1] := by
  have hrun : (Machine.run (Session.step smallLink) (Session.start smallLink 0)
      smallSession).isSome = true := by decide +kernel
  obtain ⟨s, hs⟩ := Option.isSome_iff_exists.mp hrun
  have hevery : Machine.Every (Session.step smallLink)
      (fun s a => a.Encoded smallLink ∧ s.Timely a) (Session.start smallLink 0) smallSession := by
    decide +kernel
  exact ⟨s, hs, accepted_not_lost smallLink_valid hevery hs _⟩


end JsonScada.System.NothingLost
