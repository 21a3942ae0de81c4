/- path: JsonScada/Cs104/KBuffer
   source: lib60870.netcore/lib60870/CS104/Connection.cs, ClientConnection.cs
   digest: The k-buffer of the sent and unconfirmed messages, and the check of a received
   sequence number against it. -/

import JsonScada.Lib.Machine
import JsonScada.Lib.Ring

set_option autoImplicit false
set_option relaxedAutoImplicit false

namespace JsonScada.Cs104

open JsonScada.Lib

/-- The sequence numbers of the I frames are below this. -/
def sequenceNumbers : ℕ := 32768

/-- A slot of the k-buffer. `entry` is what the slot keeps of the ASDU itself: nothing in
`Connection`, the place in the queue in `ClientConnection`. -/
structure SentASDU (ε : Type) where
  entry : ε
  sentTime : ℤ
  seqNo : ℕ
  deriving DecidableEq, Repr

/-- `sentASDUs` with `oldestSentASDU` (none for -1) and `newestSentASDU`, which the code
reads only while there is an oldest one. -/
structure KBuffer (ε : Type) where
  sentASDUs : List (SentASDU ε)
  oldestSentASDU : Option ℕ
  newestSentASDU : ℕ
  deriving DecidableEq, Repr

variable {ε : Type}

/-- `maxSentASDUs`, the length the array was made with. -/
abbrev KBuffer.maxSentASDUs (b : KBuffer ε) : ℕ := b.sentASDUs.length

/-- The buffer of a new connection, whose slots are all zeros. -/
def KBuffer.empty (blank : ε) (k : ℕ) : KBuffer ε :=
  ⟨List.replicate k ⟨blank, 0, 0⟩, none, 0⟩

/-- `IsSentBufferFull` -/
def KBuffer.isSentBufferFull (b : KBuffer ε) : Bool :=
  match b.oldestSentASDU with
  | none => false
  | some oldest => (b.newestSentASDU + 1) % b.maxSentASDUs == oldest

/-- The number of messages in the buffer. -/
def KBuffer.count (b : KBuffer ε) : ℕ :=
  match b.oldestSentASDU with
  | none => 0
  | some oldest => (b.newestSentASDU + b.maxSentASDUs - oldest) % b.maxSentASDUs + 1

/-- The slot the next message goes to. -/
def KBuffer.currentIndex (b : KBuffer ε) : ℕ :=
  match b.oldestSentASDU with
  | none => 0
  | some _ => (b.newestSentASDU + 1) % b.maxSentASDUs

/-- The part of `SendIMessageAndUpdateSentASDUs` that fills the slot. -/
def KBuffer.update (b : KBuffer ε) (sent : SentASDU ε) : KBuffer ε :=
  { sentASDUs := b.sentASDUs.set b.currentIndex sent
    oldestSentASDU := some (b.oldestSentASDU.getD 0)
    newestSentASDU := b.currentIndex }

/-- The loop that removes the confirmed messages from slot `oldest` on: the slots it
passed, and `oldestSentASDU` after it. Each round goes to the next slot of the ring and
the slot after the newest ends it, so a round for every slot is enough. -/
def removeConfirmed (b : KBuffer ε) (seqNo oldestValidSeqNo : ℕ)
    (counterOverflowDetected : Bool) : ℕ → ℕ → List (SentASDU ε) × Option ℕ
  | 0, oldest => ([], some oldest)
  | rounds + 1, oldest =>
    match b.sentASDUs[oldest]? with
    | none => ([], some oldest)
    | some slot =>
      -- nothing is removed for a number that was confirmed before
      if counterOverflowDetected = false ∧ seqNo < slot.seqNo then ([], some oldest)
      else if seqNo = oldestValidSeqNo then ([], some oldest)
      else if slot.seqNo = seqNo then
        ([slot], if oldest = b.newestSentASDU then none
          else some ((oldest + 1) % b.maxSentASDUs))
      else if (oldest + 1) % b.maxSentASDUs = (b.newestSentASDU + 1) % b.maxSentASDUs then
        ([slot], none)
      else
        let rest := removeConfirmed b seqNo oldestValidSeqNo counterOverflowDetected rounds
          ((oldest + 1) % b.maxSentASDUs)
        (slot :: rest.1, rest.2)

/-- The number before the oldest one, which a repeated confirmation carries. -/
def oldestValid (seqNo : ℕ) : ℕ := if seqNo = 0 then 32767 else seqNo - 1

/-- `CheckSequenceNumber`: none where the number is out of range, else the buffer after
it and the messages it confirms. -/
def checkSequenceNumber (b : KBuffer ε) (sendCount seqNo : ℕ) :
    Option (KBuffer ε × List (SentASDU ε)) :=
  match b.oldestSentASDU with
  | none => if seqNo = sendCount then some (b, []) else none
  | some oldest =>
    match b.sentASDUs[oldest]?, b.sentASDUs[b.newestSentASDU]? with
    | some first, some last =>
      if Ring.between first.seqNo last.seqNo seqNo || oldestValid first.seqNo == seqNo then
        let removed := removeConfirmed b seqNo (oldestValid first.seqNo)
          (decide (last.seqNo < first.seqNo)) b.maxSentASDUs oldest
        some ({ b with oldestSentASDU := removed.2 }, removed.1)
      else none
    | _, _ => none

/-- The buffer holds these messages, the ones sent after the first `acked`: each slot
keeps the count of the messages sent up to its own. -/
structure Outstanding (b : KBuffer ε) (acked : ℕ) (l : List (SentASDU ε)) : Prop where
  size : 0 < b.maxSentASDUs ∧ b.maxSentASDUs < sequenceNumbers
  numbered : ∀ i (h : i < l.length), (l.get ⟨i, h⟩).seqNo = (acked + 1 + i) % sequenceNumbers
  placed : match b.oldestSentASDU with
    | none => l = []
    | some oldest => l ≠ [] ∧ Ring.Holds b.sentASDUs oldest l ∧
        b.newestSentASDU = Ring.place b.maxSentASDUs oldest (l.length - 1)

theorem Outstanding.start {blank : ε} {k : ℕ} (hk : 0 < k ∧ k < sequenceNumbers) :
    Outstanding (KBuffer.empty blank k) 0 [] := by
  refine ⟨?_, fun i h => absurd h (Nat.not_lt_zero i), rfl⟩
  rw [KBuffer.maxSentASDUs, KBuffer.empty, List.length_replicate]
  exact hk

namespace Outstanding

variable {b : KBuffer ε} {acked : ℕ} {l : List (SentASDU ε)}

/-- No more than `K` messages are outstanding. -/
theorem length_le (h : Outstanding b acked l) : l.length ≤ b.maxSentASDUs := by
  have hp := h.placed
  cases ho : b.oldestSentASDU with
  | none =>
    simp only [ho] at hp
    rw [hp]
    exact Nat.zero_le _
  | some oldest =>
    simp only [ho] at hp
    exact hp.2.1.length_le

theorem length_lt (h : Outstanding b acked l) : l.length < sequenceNumbers :=
  lt_of_le_of_lt h.length_le h.size.2

theorem oldest_none_iff (h : Outstanding b acked l) : b.oldestSentASDU = none ↔ l = [] := by
  have hp := h.placed
  cases ho : b.oldestSentASDU with
  | none =>
    simp only [ho] at hp
    simp [hp]
  | some oldest =>
    simp only [ho] at hp
    simp [hp.1]

/-- A buffer holds one list of messages of a length. -/
theorem unique (h : Outstanding b acked l) {l' : List (SentASDU ε)} (h' : Outstanding b acked l')
    (hlen : l.length = l'.length) : l = l' := by
  have hp := h.placed
  have hp' := h'.placed
  cases ho : b.oldestSentASDU with
  | none =>
    simp only [ho] at hp hp'
    rw [hp, hp']
  | some oldest =>
    simp only [ho] at hp hp'
    refine List.ext_getElem hlen fun i hi hi' => ?_
    have hget := hp.2.1.get i hi
    rw [hp'.2.1.get i hi', List.getElem?_eq_getElem hi, List.getElem?_eq_getElem hi'] at hget
    exact (Option.some.inj hget).symm

theorem count_eq (h : Outstanding b acked l) : b.count = l.length := by
  have hp := h.placed
  unfold KBuffer.count
  cases ho : b.oldestSentASDU with
  | none =>
    simp only [ho] at hp
    rw [hp]
    rfl
  | some oldest =>
    simp only [ho] at hp
    obtain ⟨hne, hring, hnew⟩ := hp
    have hpos : 0 < l.length := List.length_pos_of_ne_nil hne
    have hle := hring.length_le
    have hf := hring.first_lt
    have hsteps : (b.newestSentASDU + b.maxSentASDUs - oldest) % b.maxSentASDUs =
        l.length - 1 := by
      rw [hnew, KBuffer.maxSentASDUs, Ring.place_eq hf (by omega)]
      split
      next =>
        have hsum : oldest + (l.length - 1) + b.sentASDUs.length - oldest =
            l.length - 1 + b.sentASDUs.length := by omega
        rw [hsum, Nat.add_mod_right, Nat.mod_eq_of_lt (by omega)]
      next =>
        rw [Nat.mod_eq_of_lt (by omega)]
        omega
    simp only [hsteps]
    omega

/-- The buffer is full when `K` messages are outstanding, and only then. -/
theorem isSentBufferFull_iff (h : Outstanding b acked l) :
    b.isSentBufferFull = true ↔ l.length = b.maxSentASDUs := by
  have hp := h.placed
  unfold KBuffer.isSentBufferFull
  cases ho : b.oldestSentASDU with
  | none =>
    simp only [ho] at hp
    have hsize := h.size.1
    subst hp
    simp only [Bool.false_eq_true, List.length_nil, false_iff]
    omega
  | some oldest =>
    simp only [ho] at hp
    obtain ⟨hne, hring, hnew⟩ := hp
    have hpos : 0 < l.length := List.length_pos_of_ne_nil hne
    have hlen : l.length - 1 + 1 = l.length := by omega
    simp only [beq_iff_eq]
    rw [hnew, Ring.place_succ, hlen]
    exact Ring.place_eq_first hring.first_lt hpos hring.length_le

/-- A message sent while the buffer is not full is the last of the outstanding ones. -/
theorem update (h : Outstanding b acked l) (hfree : b.isSentBufferFull = false)
    {sent : SentASDU ε} (hsent : sent.seqNo = (acked + l.length + 1) % sequenceNumbers) :
    Outstanding (b.update sent) acked (l ++ [sent]) := by
  have hlt : l.length < b.maxSentASDUs := by
    refine lt_of_le_of_ne h.length_le fun heq => ?_
    rw [h.isSentBufferFull_iff.mpr heq] at hfree
    cases hfree
  refine ⟨?_, ?_, ?_⟩
  · rw [KBuffer.maxSentASDUs, KBuffer.update, List.length_set]
    exact h.size
  · intro i hi
    rw [List.length_append, List.length_singleton] at hi
    by_cases hlast : i = l.length
    · subst hlast
      simp only [List.get_eq_getElem, List.getElem_concat_length, hsent]
      congr 1
      omega
    · have hi' : i < l.length := by omega
      have hnum := h.numbered i hi'
      simp only [List.get_eq_getElem] at hnum ⊢
      rw [List.getElem_append_left hi', hnum]
  · have hp := h.placed
    cases ho : b.oldestSentASDU with
    | none =>
      simp only [ho] at hp
      subst hp
      have hempty : Ring.Holds b.sentASDUs 0 [] := Ring.Holds.nil h.size.1
      have hpush := hempty.push h.size.1 sent
      have hzero : Ring.place b.sentASDUs.length 0 0 = 0 := Ring.place_zero h.size.1
      rw [List.length_nil, hzero] at hpush
      simp only [KBuffer.update, KBuffer.currentIndex, ho, Option.getD_none]
      refine ⟨by simp, hpush, ?_⟩
      rw [KBuffer.maxSentASDUs, List.length_set]
      exact hzero.symm
    | some oldest =>
      simp only [ho] at hp
      obtain ⟨hne, hring, hnew⟩ := hp
      have hpos : 0 < l.length := List.length_pos_of_ne_nil hne
      have hlen : l.length - 1 + 1 = l.length := by omega
      have hindex : b.currentIndex = Ring.place b.sentASDUs.length oldest l.length := by
        simp only [KBuffer.currentIndex, ho]
        rw [hnew, Ring.place_succ, hlen]
      have hpush := hring.push hlt sent
      simp only [KBuffer.update, ho, Option.getD_some]
      refine ⟨by simp, ?_, ?_⟩
      · rw [hindex]
        exact hpush
      · rw [hindex, KBuffer.maxSentASDUs, List.length_set, List.length_append,
          List.length_singleton, Nat.add_sub_cancel]

/-- The oldest and the newest slot hold the ends of the outstanding messages. -/
theorem ends (h : Outstanding b acked l) {oldest : ℕ} (ho : b.oldestSentASDU = some oldest)
    (hpos : 0 < l.length) : b.sentASDUs[oldest]? = some (l.get ⟨0, hpos⟩) ∧
      b.sentASDUs[b.newestSentASDU]? = some (l.get ⟨l.length - 1, by omega⟩) := by
  have hp := h.placed
  simp only [ho] at hp
  obtain ⟨-, hring, hnew⟩ := hp
  constructor
  · have hget := hring.get 0 hpos
    rw [Ring.place_zero hring.first_lt] at hget
    rw [hget]
    simp
  · rw [hnew, KBuffer.maxSentASDUs, hring.get (l.length - 1) (by omega)]
    simp

theorem serial_inj (h : Outstanding b acked l) {i j : ℕ} (hi : i ≤ l.length)
    (hj : j ≤ l.length) (heq : (acked + i) % sequenceNumbers = (acked + j) % sequenceNumbers) :
    i = j :=
  Ring.serial_inj (lt_of_le_of_lt hi h.length_lt) (lt_of_le_of_lt hj h.length_lt) heq

end Outstanding

/-- The loop removes the messages up to the one the number confirms, and no others. -/
theorem removeConfirmed_eq {b : KBuffer ε} {seqNo valid : ℕ} {overflow : Bool}
    (hvalid : seqNo ≠ valid) :
    ∀ (l : List (SentASDU ε)) (oldest j rounds : ℕ), l ≠ [] →
      Ring.Holds b.sentASDUs oldest l →
      b.newestSentASDU = Ring.place b.maxSentASDUs oldest (l.length - 1) →
      (hj : j < l.length) → (l.get ⟨j, hj⟩).seqNo = seqNo →
      (∀ i (hi : i < j), (l.get ⟨i, hi.trans hj⟩).seqNo ≠ seqNo) →
      (∀ i (hi : i ≤ j), overflow = true ∨ (l.get ⟨i, lt_of_le_of_lt hi hj⟩).seqNo ≤ seqNo) →
      j < rounds →
      removeConfirmed b seqNo valid overflow rounds oldest =
        (l.take (j + 1), if j + 1 = l.length then none
          else some (Ring.place b.maxSentASDUs oldest (j + 1))) := by
  intro l
  induction l with
  | nil => exact fun _ _ _ h => absurd rfl h
  | cons slot rest ih =>
    intro oldest j rounds _ hring hnew hj hat hbefore horder hrounds
    obtain ⟨rounds, rfl⟩ : ∃ r, rounds = r + 1 := ⟨rounds - 1, by omega⟩
    have hslot := hring.head
    have hkeep : ¬(overflow = false ∧ seqNo < slot.seqNo) := by
      rintro ⟨hover, hlt⟩
      rcases horder 0 (Nat.zero_le j) with h | h
      · rw [hover] at h
        cases h
      · exact absurd hlt (Nat.not_lt.mpr h)
    have hlen : rest.length + 1 ≤ b.maxSentASDUs := hring.length_le
    have hlast : (slot :: rest).length - 1 = rest.length := rfl
    rw [hlast] at hnew
    simp only [removeConfirmed, hslot]
    rw [if_neg hkeep, if_neg hvalid]
    cases j with
    | zero =>
      -- the oldest message is the one confirmed
      have hfound : slot.seqNo = seqNo := hat
      rw [if_pos hfound]
      have hnewest : oldest = b.newestSentASDU ↔ rest.length = 0 := by
        rw [hnew]
        constructor
        · intro h
          by_contra hne
          have hround := (Ring.place_eq_first hring.first_lt (Nat.pos_of_ne_zero hne)
            (Nat.le_of_succ_le hlen)).mp h.symm
          rw [KBuffer.maxSentASDUs] at hlen
          omega
        · intro h
          rw [h]
          exact (Ring.place_zero hring.first_lt).symm
      simp only [hnewest, List.length_cons, List.take_succ_cons, List.take_zero, Nat.zero_add]
      by_cases hrest : rest.length = 0
      · rw [if_pos hrest, if_pos (by omega)]
      · rw [if_neg hrest, if_neg (by omega)]
        rfl
    | succ j =>
      have hne : slot.seqNo ≠ seqNo := hbefore 0 (Nat.succ_pos j)
      have hj' : j < rest.length := Nat.lt_of_succ_lt_succ hj
      -- there is a later message, so the next slot is not the one after the newest
      have hnext : ¬(oldest + 1) % b.maxSentASDUs =
          (b.newestSentASDU + 1) % b.maxSentASDUs := by
        rw [hnew, Ring.place_succ]
        intro heq
        have hfirst := hring.pop.first_lt
        have hplace := Ring.place_next b.maxSentASDUs oldest rest.length
        rw [← heq] at hplace
        have hpos : 0 < rest.length := Nat.zero_lt_of_lt hj'
        have hround := (Ring.place_eq_first hfirst hpos (Nat.le_of_succ_le hlen)).mp hplace
        rw [KBuffer.maxSentASDUs] at hlen
        omega
      rw [if_neg hne, if_neg hnext]
      have hnew' : b.newestSentASDU = Ring.place b.maxSentASDUs
          (Ring.place b.maxSentASDUs oldest 1) (rest.length - 1) := by
        rw [Ring.place_next, hnew]
        congr 1
        omega
      have hrec := ih (Ring.place b.maxSentASDUs oldest 1) j rounds
        (List.ne_nil_of_length_pos (Nat.zero_lt_of_lt hj')) hring.pop hnew' hj' hat
        (fun i hi => hbefore (i + 1) (Nat.succ_lt_succ hi))
        (fun i hi => horder (i + 1) (Nat.succ_le_succ hi)) (Nat.lt_of_succ_lt_succ hrounds)
      have hindex : (oldest + 1) % b.maxSentASDUs = Ring.place b.maxSentASDUs oldest 1 := rfl
      rw [hindex, hrec, Ring.place_next]
      simp only [List.take_succ_cons, List.length_cons, Nat.add_right_cancel_iff]

/-- The number before the oldest one removes nothing. -/
theorem removeConfirmed_repeated (b : KBuffer ε) (valid : ℕ) (overflow : Bool)
    (rounds oldest : ℕ) :
    removeConfirmed b valid valid overflow rounds oldest = ([], some oldest) := by
  cases rounds with
  | zero => rfl
  | succ rounds =>
    unfold removeConfirmed
    cases b.sentASDUs[oldest]? with
    | none => rfl
    | some slot =>
      simp only [if_true, ite_self]

namespace Outstanding

variable {b : KBuffer ε} {acked : ℕ} {l : List (SentASDU ε)}

theorem oldestValid_eq (acked : ℕ) :
    oldestValid ((acked + 1) % sequenceNumbers) = acked % sequenceNumbers := by
  unfold oldestValid sequenceNumbers
  split <;> omega

/-- The numbers in range are those that confirm a beginning of the outstanding messages,
and such a number removes exactly these. -/
theorem checkSequenceNumber_eq (h : Outstanding b acked l) {j : ℕ} (hj : j ≤ l.length) :
    ∃ b', checkSequenceNumber b ((acked + l.length) % sequenceNumbers)
        ((acked + j) % sequenceNumbers) = some (b', l.take j) ∧
      Outstanding b' (acked + j) (l.drop j) ∧ b'.maxSentASDUs = b.maxSentASDUs := by
  have hp := h.placed
  unfold checkSequenceNumber
  cases ho : b.oldestSentASDU with
  | none =>
    simp only [ho] at hp
    subst hp
    obtain rfl : j = 0 := by simpa using hj
    refine ⟨b, by simp, ?_, rfl⟩
    simpa using h
  | some oldest =>
    simp only [ho] at hp
    obtain ⟨hne, hring, hnew⟩ := hp
    have hpos : 0 < l.length := List.length_pos_of_ne_nil hne
    have hn := h.length_lt
    obtain ⟨hfirst, hlast⟩ := h.ends ho hpos
    simp only [hfirst, hlast]
    have hfirstNo := h.numbered 0 hpos
    have hlastNo := h.numbered (l.length - 1) (by omega)
    rw [Nat.add_zero] at hfirstNo
    rw [hfirstNo, hlastNo, oldestValid_eq]
    by_cases hzero : j = 0
    · -- the number was confirmed before
      subst hzero
      simp only [Nat.add_zero, beq_self_eq_true, Bool.or_true, if_true,
        removeConfirmed_repeated]
      refine ⟨b, ?_, by simpa using h, rfl⟩
      rw [← ho, List.take_zero]
    · have hat : acked + 1 + (j - 1) = acked + j := by omega
      have hwindow : Ring.between ((acked + 1) % sequenceNumbers)
          ((acked + 1 + (l.length - 1)) % sequenceNumbers)
          ((acked + j) % sequenceNumbers) = true := by
        refine (Ring.between_iff hpos hn.le (Nat.mod_lt _ (by decide))).mpr ⟨j - 1, by omega, ?_⟩
        rw [hat]
      have hvalid : (acked + j) % sequenceNumbers ≠ acked % sequenceNumbers := by
        intro heq
        exact hzero (h.serial_inj hj (Nat.zero_le _) heq)
      have hremoved := @removeConfirmed_eq _ b ((acked + j) % sequenceNumbers)
        (acked % sequenceNumbers)
        (decide ((acked + 1 + (l.length - 1)) % sequenceNumbers <
          (acked + 1) % sequenceNumbers)) hvalid l oldest (j - 1) b.maxSentASDUs hne hring hnew
        (by omega) (by rw [h.numbered, hat])
        (by
          intro i hi heq
          rw [h.numbered, show acked + 1 + i = acked + (i + 1) by omega] at heq
          have := h.serial_inj (by omega) hj heq
          omega)
        (by
          intro i hi
          by_cases hover : (acked + 1 + (l.length - 1)) % sequenceNumbers <
              (acked + 1) % sequenceNumbers
          · exact Or.inl (decide_eq_true hover)
          · right
            rw [h.numbered, ← hat]
            exact Ring.serial_mono (by omega) (Nat.not_lt.mp hover) hi (by omega))
        (by have := hring.length_le; rw [KBuffer.maxSentASDUs]; omega)
      have hsucc : j - 1 + 1 = j := by omega
      rw [hsucc] at hremoved
      rw [hwindow, Bool.true_or, if_pos rfl, hremoved]
      refine ⟨_, rfl, ⟨h.size, ?_, ?_⟩, rfl⟩
      · intro i hi
        rw [List.length_drop] at hi
        have hnum := h.numbered (j + i) (by omega)
        simp only [List.get_eq_getElem, List.getElem_drop] at hnum ⊢
        rw [hnum]
        congr 1
        omega
      · by_cases hall : j = l.length
        · simp only [if_pos hall]
          rw [hall, List.drop_length]
        · simp only [if_neg hall]
          refine ⟨?_, hring.drop hj, ?_⟩
          · refine List.ne_nil_of_length_pos ?_
            rw [List.length_drop]
            omega
          · rw [hnew, List.length_drop]
            simp only [KBuffer.maxSentASDUs, Ring.place, Nat.mod_add_mod]
            congr 1
            omega

/-- A number out of range is refused. -/
theorem checkSequenceNumber_eq_none (h : Outstanding b acked l) {seqNo : ℕ}
    (hseq : seqNo < sequenceNumbers)
    (hout : ∀ j ≤ l.length, seqNo ≠ (acked + j) % sequenceNumbers) :
    checkSequenceNumber b ((acked + l.length) % sequenceNumbers) seqNo = none := by
  have hp := h.placed
  unfold checkSequenceNumber
  cases ho : b.oldestSentASDU with
  | none =>
    exact if_neg (hout l.length le_rfl)
  | some oldest =>
    simp only [ho] at hp
    obtain ⟨hne, hring, hnew⟩ := hp
    have hpos : 0 < l.length := List.length_pos_of_ne_nil hne
    obtain ⟨hfirst, hlast⟩ := h.ends ho hpos
    simp only [hfirst, hlast]
    have hfirstNo := h.numbered 0 hpos
    have hlastNo := h.numbered (l.length - 1) (by omega)
    rw [Nat.add_zero] at hfirstNo
    rw [hfirstNo, hlastNo, oldestValid_eq]
    refine if_neg ?_
    rw [Bool.or_eq_true, beq_iff_eq, Ring.between_iff hpos h.length_lt.le hseq]
    rintro (⟨i, hi, heq⟩ | heq)
    · refine hout (i + 1) hi ?_
      rw [heq]
      congr 1
      omega
    · exact hout 0 (Nat.zero_le _) heq.symm

end Outstanding

namespace ConfirmationWindow

variable {ε : Type}

/-- The part of an end that keeps the sent messages, with all the entries it ever put in the
k-buffer and those it removed as confirmed. -/
structure Keeper (ε : Type) where
  kBuffer : KBuffer ε
  sendCount : ℕ := 0
  sent : List ε := []
  confirmed : List ε := []

/-- A message is sent, or a sequence number received in two octets. -/
inductive Event (ε : Type) where
  | send (entry : ε) (now : ℤ)
  | number (low high : Fin 256)
  deriving DecidableEq, Repr

def Keeper.new (blank : ε) (k : ℕ) : Keeper ε := { kBuffer := KBuffer.empty blank k }

/-- Nothing is sent while the buffer is full, and a number out of range ends the
connection. -/
def Keeper.step (s : Keeper ε) : Event ε → Option (Keeper ε)
  | .send entry now =>
    if s.kBuffer.isSentBufferFull then none
    else
      let sendCount := (s.sendCount + 1) % 32768
      some { s with
        kBuffer := s.kBuffer.update ⟨entry, now, sendCount⟩
        sendCount := sendCount
        sent := s.sent ++ [entry] }
  | .number low high =>
    (checkSequenceNumber s.kBuffer s.sendCount ((low + high * 0x100) / 2)).map fun r =>
      { s with kBuffer := r.1, confirmed := s.confirmed ++ r.2.map (·.entry) }

/-- How far a sequence number is behind the next one to be sent. -/
def behind (sendCount seqNo : ℕ) : ℕ := (sendCount + 32768 - seqNo) % 32768

/-- The buffer holds the entries that were sent and not confirmed. -/
structure Keeps (s : Keeper ε) (l : List (SentASDU ε)) : Prop where
  outstanding : Outstanding s.kBuffer s.confirmed.length l
  sendCount : s.sendCount = (s.confirmed.length + l.length) % sequenceNumbers
  entries : s.sent = s.confirmed ++ l.map (·.entry)

/-- A number that is taken confirms a beginning of the messages kept. -/
theorem Keeps.accepted {s : Keeper ε} {l : List (SentASDU ε)} (hl : Keeps s l) {seqNo : ℕ}
    (hseq : seqNo < sequenceNumbers) {r : KBuffer ε × List (SentASDU ε)}
    (hcheck : checkSequenceNumber s.kBuffer s.sendCount seqNo = some r) :
    ∃ j ≤ l.length, seqNo = (s.confirmed.length + j) % sequenceNumbers := by
  by_contra hout
  push Not at hout
  have hnone := hl.outstanding.checkSequenceNumber_eq_none hseq hout
  rw [← hl.sendCount, hcheck] at hnone
  cases hnone

theorem step_keeps {s s' : Keeper ε} {e : Event ε} (h : ∃ l, Keeps s l)
    (hs : s.step e = some s') : ∃ l, Keeps s' l := by
  obtain ⟨l, hl⟩ := h
  cases e with
  | send entry now =>
    simp only [Keeper.step] at hs
    split at hs
    next => cases hs
    next hfree =>
      cases hs
      have hcount : (s.sendCount + 1) % 32768 =
          (s.confirmed.length + l.length + 1) % sequenceNumbers := by
        rw [hl.sendCount]
        exact Nat.mod_add_mod _ _ _
      refine ⟨_, hl.outstanding.update (Bool.eq_false_iff.mpr hfree) hcount, ?_, ?_⟩
      · rw [List.length_append, List.length_singleton]
        exact hcount
      · rw [List.map_append, ← List.append_assoc, ← hl.entries]
        rfl
  | number low high =>
    simp only [Keeper.step] at hs
    obtain ⟨⟨b, removed⟩, hcheck, rfl⟩ := Option.map_eq_some_iff.mp hs
    have hseq : (low.val + high.val * 0x100) / 2 < sequenceNumbers := by
      have hlow := low.isLt
      have hhigh := high.isLt
      unfold sequenceNumbers
      omega
    obtain ⟨j, hj, hat⟩ := hl.accepted hseq hcheck
    rw [hat] at hcheck
    obtain ⟨b', hb', hout, -⟩ := hl.outstanding.checkSequenceNumber_eq hj
    rw [← hl.sendCount, hcheck] at hb'
    cases hb'
    have hlen : (s.confirmed ++ (l.take j).map (·.entry)).length = s.confirmed.length + j := by
      rw [List.length_append, List.length_map, List.length_take, min_eq_left hj]
    refine ⟨l.drop j, ?_, ?_, ?_⟩
    · simp only [hlen]
      exact hout
    · simp only [hlen, List.length_drop, hl.sendCount]
      congr 1
      omega
    · rw [hl.entries, List.append_assoc, ← List.map_append, List.take_append_drop]

theorem run_keeps {blank : ε} {k : ℕ} (hk : 0 < k ∧ k < 32768) {events : List (Event ε)}
    {s : Keeper ε} (hr : Machine.run Keeper.step (Keeper.new blank k) events = some s) :
    ∃ l, Keeps s l :=
  Machine.run_invariant (P := fun _ _ => True) (I := fun s => ∃ l, Keeps s l)
    (fun _ _ _ _ hi hs => step_keeps hi hs) (Machine.every_of_forall_mem fun _ _ => trivial)
    ⟨[], Outstanding.start hk, rfl, rfl⟩ hr

/-- A number is behind the next one by as many messages as it leaves unconfirmed. -/
theorem behind_eq {a n j : ℕ} (hj : j ≤ n) (hn : n < sequenceNumbers) :
    behind ((a + n) % sequenceNumbers) ((a + j) % sequenceNumbers) = n - j := by
  unfold behind
  unfold sequenceNumbers at hn ⊢
  omega

/-- A number behind the next one by no more than the messages kept is that of one of these,
or the one confirmed last. -/
theorem exists_of_behind_le {a n seqNo : ℕ} (hseq : seqNo < sequenceNumbers)
    (h : behind ((a + n) % sequenceNumbers) seqNo ≤ n) :
    ∃ j ≤ n, seqNo = (a + j) % sequenceNumbers := by
  refine ⟨n - behind ((a + n) % sequenceNumbers) seqNo, Nat.sub_le _ _, ?_⟩
  unfold behind at h ⊢
  unfold sequenceNumbers at hseq h ⊢
  omega

/-- After any run of messages sent and of numbers received, from whatever sender, an end
with a window of `k` takes exactly the numbers that are behind its next one by no more than
the messages it keeps; such a number leaves that many of them kept, removes the oldest ones,
and what was removed is always the beginning of what was sent, in order. The counter may
have started over any number of times. -/
theorem window_of_sequence_numbers {blank : ε} {k : ℕ} (hk : 0 < k ∧ k < 32768)
    {events : List (Event ε)} {s : Keeper ε}
    (hr : Machine.run Keeper.step (Keeper.new blank k) events = some s)
    {seqNo : ℕ} (hseq : seqNo < 32768) :
    s.confirmed.length + s.kBuffer.count = s.sent.length ∧ s.confirmed <+: s.sent ∧
      (behind s.sendCount seqNo ≤ s.kBuffer.count ↔
        ∃ b removed, checkSequenceNumber s.kBuffer s.sendCount seqNo = some (b, removed)) ∧
      ∀ b removed, checkSequenceNumber s.kBuffer s.sendCount seqNo = some (b, removed) →
        b.count = behind s.sendCount seqNo ∧
          s.confirmed ++ removed.map (·.entry) <+: s.sent := by
  obtain ⟨l, hl⟩ := run_keeps hk hr
  have hcount := hl.outstanding.count_eq
  have hn := hl.outstanding.length_lt
  have hlen := congrArg List.length hl.entries
  rw [List.length_append, List.length_map] at hlen
  refine ⟨by omega, ⟨_, hl.entries.symm⟩, ⟨fun hle => ?_, ?_⟩, ?_⟩
  · rw [hl.sendCount, hcount] at hle
    obtain ⟨j, hj, rfl⟩ := exists_of_behind_le hseq hle
    obtain ⟨b, hb, -⟩ := hl.outstanding.checkSequenceNumber_eq hj
    rw [← hl.sendCount] at hb
    exact ⟨b, _, hb⟩
  · rintro ⟨b, removed, hcheck⟩
    obtain ⟨j, hj, rfl⟩ := hl.accepted hseq hcheck
    rw [hl.sendCount, behind_eq hj hn, hcount]
    exact Nat.sub_le _ _
  · intro b removed hcheck
    obtain ⟨j, hj, rfl⟩ := hl.accepted hseq hcheck
    obtain ⟨b', hb', hout, -⟩ := hl.outstanding.checkSequenceNumber_eq hj
    rw [← hl.sendCount, hcheck] at hb'
    cases hb'
    refine ⟨?_, (l.drop j).map (·.entry), ?_⟩
    · rw [hout.count_eq, List.length_drop, hl.sendCount, behind_eq hj hn]
    · rw [hl.entries, List.append_assoc, ← List.map_append, List.take_append_drop]

/-- Three messages through a window of two, and the number that confirms the first. -/
def threeSent : List (Event ℕ) :=
  [.send 10 0, .send 11 0, .number 2 0, .send 12 1]

theorem window_of_three_sent : ∃ s,
    Machine.run Keeper.step (Keeper.new 0 2) threeSent = some s ∧
      s.confirmed.length + s.kBuffer.count = s.sent.length ∧ s.confirmed <+: s.sent ∧
      (behind s.sendCount 3 ≤ s.kBuffer.count ↔
        ∃ b removed, checkSequenceNumber s.kBuffer s.sendCount 3 = some (b, removed)) ∧
      ∀ b removed, checkSequenceNumber s.kBuffer s.sendCount 3 = some (b, removed) →
        b.count = behind s.sendCount 3 ∧ s.confirmed ++ removed.map (·.entry) <+: s.sent := by
  have hend : (Machine.run Keeper.step (Keeper.new 0 2) threeSent).isSome = true := by
    decide +kernel
  obtain ⟨s, hs⟩ := Option.isSome_iff_exists.mp hend
  exact ⟨s, hs, window_of_sequence_numbers (by decide) hs (by decide)⟩

end ConfirmationWindow

end JsonScada.Cs104
