/- path: JsonScada/System/LossCount
   source: src/mongofw/customized_module.js, src/mongowr/customized_module.js
   digest: The numbers of the changes sent, and what the receiver counts as lost. -/

import JsonScada.Lib.Gaps
import JsonScada.Replication.Packets
import JsonScada.System.BackfillReplay

set_option autoImplicit false
set_option relaxedAutoImplicit false

namespace JsonScada.System.LossCount

open JsonScada.Lib.Gaps JsonScada.Lib.JsObject JsonScada.Lib.Machine
open JsonScada.Replication.Forward JsonScada.Replication.Packets JsonScada.Replication.Write
open JsonScada.System.BackfillReplay

def numberOf : Value → Option ℕ
  | .obj dataObj => cntOf dataObj
  | _ => none

def numbers (objs : List Value) : List ℕ := objs.filterMap numberOf

theorem numbers_append (objs objs' : List Value) :
    numbers (objs ++ objs') = numbers objs ++ numbers objs' := List.filterMap_append

/-- The members that the receiver asks for beside the number. -/
def Complete (v : Value) : Prop :=
  ∃ fs, v = .obj fs ∧ hasMembers fs ["operationType", "updateDescription"] = true

section Objects

theorem cntOf_cons (n : ℕ) (fs : Fields) : cntOf (("cnt", .num (.fin n)) :: fs) = some n := by
  rw [cntOf, Members.get_cons, if_pos rfl]
  simp

theorem numberOf_wireObject (n : ℕ) (change : Value) : numberOf (wireObject n change) = some n := by
  rw [wireObject, numberOf, cntOf_cons]

theorem numberOf_reread (v : Value) (n : ℕ) (h : numberOf v = some n) :
    numberOf v.reread = some n := by
  cases v with
  | obj fs =>
    rw [numberOf, cntOf] at h
    rw [Value.reread_obj, numberOf, cntOf, Value.get_rereadFields]
    cases hcnt : Members.get fs "cnt" with
    | none =>
      rw [hcnt] at h
      cases h
    | some w =>
      rw [hcnt] at h
      cases w with
      | num x =>
        cases x with
        | fin q => simpa [Value.reread] using h
        | _ => cases h
      | _ => cases h
  | _ => cases h

theorem hasMembers_iff (fs : Fields) : hasMembers fs ["operationType", "updateDescription"] = true ↔
    (fs.get "operationType").isSome = true ∧ (fs.get "updateDescription").isSome = true := by
  simp [hasMembers]

/-- A deletion below a member leaves the members. -/
theorem get_modify_isSome (j k : String) (f : Value → Value) (fs : Fields) :
    (Members.get ((Members.get fs k).elim fs fun v => Members.set fs k (f v)) j).isSome =
      (fs.get j).isSome := by
  cases hk : Members.get fs k with
  | none => rfl
  | some v =>
    by_cases hj : j = k
    · subst hj
      rw [Option.elim_some, Members.get_set_self, hk]
      rfl
    · rw [Option.elim_some, Members.get_set_of_ne hj]

theorem complete_modify {v : Value} (k : String) (f : Value → Value) (h : Complete v) :
    Complete (v.modify k f) := by
  obtain ⟨fs, rfl, hfs⟩ := h
  refine ⟨_, rfl, ?_⟩
  rw [hasMembers_iff] at hfs ⊢
  rwa [get_modify_isSome, get_modify_isSome]

theorem member_wireObject (n : ℕ) (change : Value) {k : String}
    (hk : k = "operationType" ∨ k = "updateDescription") :
    Value.member (some (wireObject n change)) k = Value.member (some (trimmed change)) k := by
  rw [wireObject, Value.member_obj, List.append_assoc, List.append_assoc]
  rcases hk with rfl | rfl
  · rw [Members.get_cons, if_neg (by decide), get_optionalMember_append (by decide)]
    cases Value.member (some (trimmed change)) "operationType" with
    | none =>
      change Members.get (optionalMember "documentKey" _ ++ optionalMember "updateDescription" _) _ = _
      rw [get_optionalMember_append (by decide)]
      cases Value.member (some (trimmed change)) "updateDescription" <;> rfl
    | some v => rfl
  · rw [Members.get_cons, if_neg (by decide), get_optionalMember_append (by decide),
      get_optionalMember_append (by decide), get_optionalMember_append (by decide),
      get_optionalMember_self]

theorem complete_wireObject {change : Value} (n : ℕ) (h : Complete change) :
    Complete (wireObject n change) := by
  obtain ⟨fs, htrim, hfs⟩ := complete_modify "updateDescription" _ h
  have hmember : ∀ k, k = "operationType" ∨ k = "updateDescription" →
      Value.member (some (wireObject n change)) k = Members.get fs k := by
    intro k hk
    rw [member_wireObject n change hk, trimmed, htrim, Value.member_obj]
  refine ⟨_, rfl, ?_⟩
  rw [hasMembers_iff] at hfs ⊢
  exact ⟨(congrArg _ (hmember _ (Or.inl rfl))).trans hfs.1,
    (congrArg _ (hmember _ (Or.inr rfl))).trans hfs.2⟩

theorem complete_event (e : ChangeEvent) : Complete e.toValue := ⟨_, rfl, rfl⟩

theorem complete_syncChange {doc : Fields} {change : Value} (h : syncChange doc = some change) :
    Complete change := by
  rw [syncChange] at h
  split at h
  · cases h
  · cases h
    exact ⟨_, rfl, rfl⟩

theorem complete_replayed {data change : Value} (h : Complete data)
    (hreplayed : replayed data = some change) : Complete change := by
  rw [replayed] at hreplayed
  split at hreplayed
  · cases hreplayed
    exact complete_modify _ _ h
  · cases hreplayed

/-- What the receiver counts of a complete object with a number. -/
theorem countMessage_cons {v : Value} {n : ℕ} (hv : Complete v) (hn : numberOf v = some n)
    (c : Counters) (rest : List Value) :
    countMessage c (v.reread :: rest) = countMessage (c.count n) rest := by
  obtain ⟨fs, rfl, hfs⟩ := hv
  have hcnt := numberOf_reread _ n hn
  rw [Value.reread_obj] at hcnt ⊢
  have hsome : (Members.get (Value.rereadFields fs) "cnt").isSome = true := by
    rw [numberOf, cntOf] at hcnt
    cases hget : Members.get (Value.rereadFields fs) "cnt" with
    | none =>
      rw [hget] at hcnt
      cases hcnt
    | some w => rfl
  rw [Value.get_rereadFields, Option.isSome_map] at hsome
  have hmembers : hasMembers (Value.rereadFields fs)
      ["cnt", "operationType", "updateDescription"] = true := by
    rw [hasMembers_iff] at hfs
    simp only [hasMembers, List.all_cons, List.all_nil, Bool.and_true, hsome,
      Value.get_rereadFields, Option.isSome_map, hfs.1, hfs.2]
  rw [countMessage, if_pos hmembers]
  rw [numberOf] at hcnt
  rw [hcnt, Option.bind_some]

end Objects

section Packets

theorem mem_accepted {n : ℕ} {changes : List Value} {obj : Value} (h : obj ∈ accepted n changes) :
    ∃ m, ∃ change ∈ changes, obj = wireObject m change := by
  induction changes generalizing n with
  | nil => cases h
  | cons change rest ih =>
    by_cases hlarge : jsonLength (wireObject (n + 1) change) > maxLengthJson
    · rw [accepted_large hlarge] at h
      obtain ⟨m, change', hmem, rfl⟩ := ih h
      exact ⟨m, change', List.mem_cons_of_mem _ hmem, rfl⟩
    · rw [accepted_small hlarge] at h
      rcases List.mem_cons.mp h with rfl | h
      · exact ⟨n + 1, change, List.mem_cons_self, rfl⟩
      · obtain ⟨m, change', hmem, rfl⟩ := ih h
        exact ⟨m, change', List.mem_cons_of_mem _ hmem, rfl⟩

/-- A change that is discarded leaves no gap in the numbers. -/
theorem numbers_accepted (n : ℕ) (changes : List Value) :
    numbers (accepted n changes) = List.range' (n + 1) (accepted n changes).length := by
  induction changes generalizing n with
  | nil => rfl
  | cons change rest ih =>
    by_cases hlarge : jsonLength (wireObject (n + 1) change) > maxLengthJson
    · rw [accepted_large hlarge, ih]
    · rw [accepted_small hlarge, numbers, List.filterMap_cons_some (numberOf_wireObject _ _),
        ← numbers, ih, List.length_cons, List.range'_succ]

end Packets

section Sender

/-- Whatever is queued, stored or sent is complete. -/
structure AllComplete (s : Forwarder) : Prop where
  queued : ∀ change ∈ s.chgQueue, Complete change
  backfill : ∀ bf ∈ s.backfillQueue, ∀ obj ∈ bf, Complete obj
  stored : ∀ d ∈ s.backfillData, Complete d.data
  sent : ∀ obj ∈ s.sent, Complete obj ∧ (numberOf obj).isSome = true

variable {s t : Forwarder} {ev : Event} {events : List Event}

theorem complete_fwArr {queue : List Value} (hqueue : ∀ change ∈ queue, Complete change) (n : ℕ) :
    ∀ obj ∈ (fillPacket queue n 0).fwArr, Complete obj ∧ (numberOf obj).isSome = true := by
  obtain ⟨batch, hfills⟩ := fillPacket_fills queue n 0 (Nat.zero_le _)
  intro obj hobj
  rw [hfills.fwArr] at hobj
  obtain ⟨m, change, hmem, rfl⟩ := mem_accepted hobj
  refine ⟨complete_wireObject m (hqueue change (hfills.isBatch.head.subset hmem)), ?_⟩
  rw [numberOf_wireObject, Option.isSome_some]

theorem allComplete_step (hi : AllComplete s) (h : step s ev = some t) : AllComplete t := by
  cases ev with
  | change e =>
    cases h
    refine ⟨fun change hmem => ?_, hi.backfill, hi.stored, hi.sent⟩
    rcases List.mem_append.mp hmem with hmem | hmem
    · exact hi.queued change hmem
    · obtain rfl := List.mem_singleton.mp hmem
      exact complete_event e
  | sync doc =>
    cases h
    refine ⟨fun change hmem => ?_, hi.backfill, hi.stored, hi.sent⟩
    rcases List.mem_append.mp hmem with hmem | hmem
    · exact hi.queued change hmem
    · exact complete_syncChange (Option.mem_toList.mp hmem)
  | send =>
    by_cases hempty : s.chgQueue = []
    · rw [step, if_pos hempty] at h
      cases h
    · rw [step, if_neg hempty] at h
      cases h
      obtain ⟨batch, hfills⟩ := fillPacket_fills s.chgQueue s.cntChg 0 (Nat.zero_le _)
      have hfw := complete_fwArr hi.queued s.cntChg
      refine ⟨fun change hmem => hi.queued change ?_, fun bf hmem => ?_, hi.stored,
        fun obj hmem => ?_⟩
      · rw [hfills.rest]
        exact List.mem_append_right _ hmem
      · dsimp only at hmem
        split at hmem
        · exact hi.backfill bf hmem
        · rcases List.mem_append.mp hmem with hmem | hmem
          · exact hi.backfill bf hmem
          · obtain rfl := List.mem_singleton.mp hmem
            intro obj hobj
            obtain ⟨m, change, hchange, -, rfl⟩ := mem_bfArr hobj
            exact complete_wireObject m (hi.queued change hchange)
      · rcases List.mem_append.mp hmem with hmem | hmem
        · exact hi.sent obj hmem
        · exact hfw obj hmem
  | backfill now =>
    cases h
    refine ⟨hi.queued, fun bf hmem => absurd hmem List.not_mem_nil, fun d hmem => ?_, hi.sent⟩
    rcases List.mem_append.mp hmem with hmem | hmem
    · exact hi.stored d hmem
    · obtain ⟨obj, hobj, hd⟩ := List.mem_filterMap.mp hmem
      obtain ⟨bf, hbf, hobj⟩ := List.mem_flatten.mp hobj
      rw [data_backfillDoc hd]
      exact hi.backfill bf hbf obj hobj
  | replay replayBegin replayEnd skip =>
    cases h
    refine ⟨fun change hmem => ?_, hi.backfill, hi.stored, hi.sent⟩
    rcases List.mem_append.mp hmem with hmem | hmem
    · exact hi.queued change hmem
    · obtain ⟨d, hd, hchange⟩ := List.mem_filterMap.mp hmem
      have hpage := List.mem_of_mem_drop (List.mem_of_mem_take hd)
      have hdoc := (List.mem_filter.mp (Lib.Collection.mem_sortBy.mp hpage)).1
      exact complete_replayed (hi.stored d hdoc) hchange
  | restart =>
    cases h
    exact ⟨fun _ hmem => absurd hmem List.not_mem_nil, fun _ hmem => absurd hmem List.not_mem_nil,
      hi.stored, hi.sent⟩

/-- A sender that starts on the stored documents of earlier runs. -/
theorem allComplete_start {docs : List BackfillDoc} (h : ∀ d ∈ docs, Complete d.data) :
    AllComplete { backfillData := docs } :=
  ⟨fun _ hmem => absurd hmem List.not_mem_nil, fun _ hmem => absurd hmem List.not_mem_nil, h,
    fun _ hmem => absurd hmem List.not_mem_nil⟩

theorem allComplete_run (hi : AllComplete s) (hrun : run step s events = some t) :
    AllComplete t := by
  have hevery : Every step (fun _ _ => True) s events := every_of_forall_mem fun _ _ => trivial
  exact run_invariant (fun _ _ _ _ hi h => allComplete_step hi h) hevery hi hrun

/-- The changes sent so far are numbered from one on. -/
def Numbered (s : Forwarder) : Prop := numbers s.sent = List.range' 1 s.cntChg

theorem numbered_step (hev : ev ≠ .restart) (hi : Numbered s) (h : step s ev = some t) :
    Numbered t := by
  cases ev with
  | send =>
    by_cases hempty : s.chgQueue = []
    · rw [step, if_pos hempty] at h
      cases h
    · rw [step, if_neg hempty] at h
      cases h
      obtain ⟨batch, hfills⟩ := fillPacket_fills s.chgQueue s.cntChg 0 (Nat.zero_le _)
      have hfw := numbers_accepted s.cntChg batch
      rw [← hfills.fwArr] at hfw
      rw [Numbered] at hi ⊢
      dsimp only
      rw [numbers_append, hi, hfw, hfills.cntChg, Nat.add_comm s.cntChg 1, List.range'_append_1]
  | restart => exact absurd rfl hev
  | _ =>
    cases h
    exact hi

theorem numbered_run (hevents : ∀ ev ∈ events, ev ≠ .restart) (hi : Numbered s)
    (hrun : run step s events = some t) : Numbered t := by
  have hevery : Every step (fun _ ev => ev ≠ .restart) s events := every_of_forall_mem hevents
  exact run_invariant (fun _ _ _ hev hi h => numbered_step hev hi h) hevery hi hrun

end Sender

section Receiver

/-- The numbers of a message are counted one after the other. -/
theorem countMessage_eq {objs : List Value}
    (h : ∀ obj ∈ objs, Complete obj ∧ (numberOf obj).isSome = true) (c : Counters) :
    countMessage c (objs.map Value.reread) = some ((numbers objs).foldl Counters.count c) := by
  induction objs generalizing c with
  | nil => rfl
  | cons obj objs ih =>
    obtain ⟨hcomplete, hsome⟩ := h obj List.mem_cons_self
    obtain ⟨n, hn⟩ := Option.isSome_iff_exists.mp hsome
    rw [List.map_cons, countMessage_cons hcomplete hn, numbers, List.filterMap_cons_some hn,
      List.foldl_cons, ← numbers]
    exact ih (fun v hv => h v (List.mem_cons_of_mem obj hv)) _

theorem countQueue_eq {msgs : List (List Value)}
    (h : ∀ obj ∈ msgs.flatten, Complete obj ∧ (numberOf obj).isSome = true) (c : Counters) :
    countQueue c (msgs.map (List.map Value.reread)) =
      some ((numbers msgs.flatten).foldl Counters.count c) := by
  induction msgs generalizing c with
  | nil => rfl
  | cons msg msgs ih =>
    rw [List.flatten_cons] at h
    have hmsg := countMessage_eq (fun obj hobj => h obj (List.mem_append_left _ hobj)) c
    have hrest := ih (fun obj hobj => h obj (List.mem_append_right _ hobj))
      ((numbers msg).foldl Counters.count c)
    rw [countQueue] at hrest ⊢
    rw [List.map_cons, List.foldlM_cons, hmsg, List.flatten_cons, numbers_append, List.foldl_append]
    exact hrest

theorem count_first (n : ℕ) : ({} : Counters).count n = { cntChg := n } := by
  rw [Counters.count, if_neg]
  rintro ⟨-, hne⟩
  exact hne rfl

/-- Where changes are missing, one more is counted than there are. -/
theorem foldl_count {a : ℕ} {ns : List ℕ} (h : (a :: ns).Pairwise (· < ·)) (lost : ℤ) :
    ns.foldl Counters.count { cntChg := a, cntLost := lost } =
      { cntChg := ((a :: ns).getLast (List.cons_ne_nil a ns) : ℕ)
        cntLost := lost + between a ns + gaps a ns } := by
  induction ns generalizing a lost with
  | nil =>
    rw [between, gaps, List.foldl_nil, List.getLast_singleton]
    congr 1
    omega
  | cons b ns ih =>
    obtain ⟨hfirst, hrest⟩ := List.pairwise_cons.mp h
    have hab := hfirst b List.mem_cons_self
    have hcount : ({ cntChg := a, cntLost := lost } : Counters).count b =
        { cntChg := b, cntLost := lost + (b - a - 1 : ℕ) + (if 1 < b - a then 1 else 0 : ℕ) } := by
      rw [Counters.count]
      by_cases hgap : 1 < b - a
      · rw [if_pos (by dsimp only; omega), if_pos hgap]
        congr 1
        dsimp only
        omega
      · rw [if_neg (by dsimp only; omega), if_neg hgap]
        congr 1
        dsimp only
        omega
    rw [List.foldl_cons, hcount, ih hrest, List.getLast_cons (List.cons_ne_nil b ns), between, gaps]
    congr 1
    push_cast
    ring

end Receiver

/-- The counters are those of the sent changes that are missing between the delivered ones. -/
structure Counted (sent delivered : List Value) (c : Counters) : Prop where
  cntChg : ∀ n, (numbers delivered).getLast? = some n → c.cntChg = n
  cntLost : c.cntLost = missing (numbers sent) (numbers delivered)

/-- The losses of a run of the sender are counted right exactly when there are none between the
delivered changes. -/
theorem counted_iff {history events : List Event} {s₀ s : Forwarder}
    (hhistory : run step {} history = some s₀) (hevents : ∀ ev ∈ events, ev ≠ .restart)
    (hrun : run step { backfillData := s₀.backfillData } events = some s)
    {delivered : List (List Value)} (hdelivered : delivered.flatten.Sublist s.sent) :
    ∃ c, countQueue {} (delivered.map (List.map Value.reread)) = some c ∧
      (Counted s.sent delivered.flatten c ↔
        missing (numbers s.sent) (numbers delivered.flatten) = 0) := by
  have hstored : AllComplete s₀ :=
    allComplete_run (allComplete_start fun _ hmem => absurd hmem List.not_mem_nil) hhistory
  have hcomplete : AllComplete s := allComplete_run (allComplete_start hstored.stored) hrun
  have hstart : Numbered { backfillData := s₀.backfillData } := rfl
  have hnumbered : Numbered s := numbered_run hevents hstart hrun
  have hsub : (numbers delivered.flatten).Sublist (List.range' 1 s.cntChg) := by
    rw [← hnumbered]
    exact hdelivered.filterMap numberOf
  refine ⟨_, countQueue_eq (fun obj hobj => hcomplete.sent obj (hdelivered.subset hobj)) {}, ?_⟩
  rw [hnumbered]
  cases hns : numbers delivered.flatten with
  | nil =>
    have hnone : missing (List.range' 1 s.cntChg) [] = 0 := by
      rw [missing, List.countP_eq_zero]
      rintro k - hk
      rw [decide_eq_true_eq] at hk
      obtain ⟨-, ⟨m, hm, -⟩, -⟩ := hk
      cases hm
    refine iff_of_true ⟨fun n hn => ?_, ?_⟩ hnone
    · rw [hns] at hn
      cases hn
    · rw [hnumbered, hns, hnone]
      rfl
  | cons a ns =>
    rw [hns] at hsub
    have hsorted := List.Pairwise.sublist hsub List.pairwise_lt_range'
    rw [List.foldl_cons, count_first, foldl_count hsorted, missing_eq_between hsub]
    constructor
    · rintro ⟨-, hlost⟩
      rw [hnumbered, hns, missing_eq_between hsub] at hlost
      rw [← gaps_eq_zero_iff]
      dsimp only at hlost
      omega
    · intro hnone
      refine ⟨fun n hn => ?_, ?_⟩
      · rw [hns, List.getLast?_eq_some_getLast (List.cons_ne_nil a ns)] at hn
        rw [Option.some.inj hn]
      · rw [hnumbered, hns, missing_eq_between hsub, gaps_eq_zero_iff.mpr hnone, hnone]
        rfl

section Example

/-- The object of the `n`th change of the voltage. -/
def voltageObject (n : ℕ) : Value := wireObject n voltageChange.toValue

/-- A sender that has sent `n` changes in messages of their own. -/
def voltageSent (n : ℕ) (sent bfs : List Value) : Forwarder :=
  { backfillQueue := bfs.map fun obj => [obj], cntChg := n, sent := sent }

theorem voltage_send {n : ℕ} (hsize : jsonLength (voltageObject (n + 1)) ≤ maxLengthJson)
    (sent bfs : List Value) (events : List Event) :
    run step (voltageSent n sent bfs) (.change voltageChange :: .send :: events) =
      run step (voltageSent (n + 1) (sent ++ [voltageObject (n + 1)])
        (bfs ++ [voltageObject (n + 1)])) events := by
  have hstored : toBackfill (trimmed voltageChange.toValue) = true := rfl
  have hpacket := fillPacket_singleton hsize
  rw [if_pos hstored] at hpacket
  have hsend : step { voltageSent n sent bfs with chgQueue := [voltageChange.toValue] } .send =
      some (voltageSent (n + 1) (sent ++ [voltageObject (n + 1)])
        (bfs ++ [voltageObject (n + 1)])) := by
    simp only [step, voltageSent, hpacket, voltageObject, List.map_append, List.map_singleton]
    rfl
  have hchange : step (voltageSent n sent bfs) (.change voltageChange) =
      some { voltageSent n sent bfs with chgQueue := [voltageChange.toValue] } := rfl
  rw [run, hchange, Option.bind_some, run, hsend, Option.bind_some]

def voltageRun : List Event := [.change voltageChange, .send, .change voltageChange, .send,
  .change voltageChange, .send]

theorem voltageRun_no_restart : ∀ ev ∈ voltageRun, ev ≠ .restart := by
  rintro ev hev rfl
  simp [voltageRun] at hev

def voltages : List Value := [voltageObject 1, voltageObject 2, voltageObject 3]

theorem voltages_run : run step {} voltageRun = some (voltageSent 3 voltages voltages) := by
  have hsize : ∀ n ∈ [1, 2, 3], jsonLength (voltageObject n) ≤ maxLengthJson := by
    intro n hn
    rw [jsonLength_eq]
    revert n
    decide +kernel
  have hstart : ({} : Forwarder) = voltageSent 0 [] [] := rfl
  rw [hstart, voltageRun, voltage_send (hsize 1 (by decide)), voltage_send (hsize 2 (by decide)),
    voltage_send (hsize 3 (by decide))]
  rfl

theorem numbers_voltageObject (ns : List ℕ) : numbers (ns.map voltageObject) = ns := by
  induction ns with
  | nil => rfl
  | cons n ns ih =>
    have hn : numberOf (voltageObject n) = some n := numberOf_wireObject n _
    rw [List.map_cons, numbers, List.filterMap_cons_some hn, ← numbers, ih]

theorem voltages_counted : ∃ c,
    countQueue {} ([[voltageObject 2], [voltageObject 3]].map (List.map Value.reread)) = some c ∧
      (Counted voltages [voltageObject 2, voltageObject 3] c ↔
        missing (numbers voltages) (numbers [voltageObject 2, voltageObject 3]) = 0) :=
  @counted_iff [] voltageRun {} _ rfl voltageRun_no_restart voltages_run
    [[voltageObject 2], [voltageObject 3]] (List.sublist_cons_self _ _)

/-- One of three changes is missing, and two are counted as lost. -/
theorem one_missing_two_lost :
    countQueue {} ([[voltageObject 1], [voltageObject 3]].map (List.map Value.reread)) =
        some { cntChg := 3, cntLost := 2 } ∧
      missing (numbers voltages) (numbers [voltageObject 1, voltageObject 3]) = 1 ∧
      ¬ ∀ (events : List Event) (s : Forwarder) (delivered : List (List Value)) (c : Counters),
        (∀ ev ∈ events, ev ≠ .restart) → run step {} events = some s →
          delivered.flatten.Sublist s.sent →
            countQueue {} (delivered.map (List.map Value.reread)) = some c →
              Counted s.sent delivered.flatten c := by
  have hsent : numbers voltages = [1, 2, 3] := numbers_voltageObject [1, 2, 3]
  have hgot : numbers [voltageObject 1, voltageObject 3] = [1, 3] := numbers_voltageObject [1, 3]
  have hcount : countQueue {} ([[voltageObject 1], [voltageObject 3]].map
      (List.map Value.reread)) = some { cntChg := 3, cntLost := 2 } := by
    rw [countQueue_eq]
    · exact congrArg (fun ns : List ℕ => some (ns.foldl Counters.count {})) hgot
    · intro obj hobj
      have hvoltage : ∃ n, obj = voltageObject n := by
        rcases List.mem_cons.mp hobj with rfl | hobj
        · exact ⟨1, rfl⟩
        · exact ⟨3, List.mem_singleton.mp hobj⟩
      obtain ⟨n, rfl⟩ := hvoltage
      refine ⟨complete_wireObject n (complete_event _), ?_⟩
      rw [voltageObject, numberOf_wireObject, Option.isSome_some]
  have hmissing : missing (numbers voltages) (numbers [voltageObject 1, voltageObject 3]) = 1 := by
    rw [hsent, hgot]
    decide
  refine ⟨hcount, hmissing, fun hall => ?_⟩
  have hlost := (hall voltageRun _ [[voltageObject 1], [voltageObject 3]] _ voltageRun_no_restart
    voltages_run ((List.sublist_cons_self _ _).cons_cons _) hcount).cntLost
  have hone : (missing (numbers voltages) (numbers [voltageObject 1, voltageObject 3]) : ℤ) = 1 := by
    rw [hmissing]
    rfl
  exact absurd (hlost.trans hone) (by decide)

end Example

end JsonScada.System.LossCount
