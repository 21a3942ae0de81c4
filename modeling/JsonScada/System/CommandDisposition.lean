/- path: JsonScada/System/CommandDisposition
   source: src/lib60870.netcore/iec104client/MongoCommands.cs, ProcessMongoCmd
   digest: Every command is sent once and marked delivered, or not sent and cancelled. -/

import JsonScada.Lib.Collection
import JsonScada.Lib.Machine
import JsonScada.Iec104Client.Encoding

set_option autoImplicit false
set_option relaxedAutoImplicit false

namespace JsonScada.System.CommandDisposition

open JsonScada.Lib.Binary64 JsonScada.Lib.DotNet JsonScada.Lib.Collection JsonScada.Lib.Machine
open JsonScada.Iec104.Types JsonScada.Iec104.Objects
open JsonScada.Iec104Client.Commands JsonScada.Iec104Client.Encoding

section Definitions

/-- A call of `SendControlCommand`: the document it is made for, the message, and the time. -/
structure Sent where
  command : ℕ
  asdu : Asdu
  now : ℤ
  deriving DecidableEq

/-- The collection of commands, whether the change stream is open, the inserts it has not
delivered yet, and the messages sent. -/
structure State where
  commandsQueue : List RtCommand := []
  watching : Bool := true
  changes : List RtCommand := []
  sent : List Sent := []

/-- A document as the other processes insert it, with a double for its value. -/
structure Inserted where
  command : RtCommand
  value : IsDouble command.value

def Inserted.doc (c : Inserted) : RtCommand :=
  { c.command with delivered := false, cancelReason := none }

/-- A command is inserted; the next one seen is processed by the active node, where
`SendControlCommand` throws unless `sends`; or the change stream is opened again. -/
inductive Label where
  | insert (c : Inserted)
  | take (call : Call) (sends : Bool)
  | watch

variable (srv : Connection)

/-- An exception ends the change stream, with what it has not delivered. -/
def stop (s : State) : State := { s with watching := false, changes := [] }

def update (c : RtCommand) (f : RtCommand → RtCommand) (s : State) : State :=
  { s with commandsQueue := updateOne (·._id = c._id) f s.commandsQueue }

def cancel (cancelReason : String) (d : RtCommand) : RtCommand :=
  { d with cancelReason := some cancelReason }

def deliver (d : RtCommand) : RtCommand := { d with delivered := true }

def take (call : Call) (sends : Bool) (s : State) (c : RtCommand) : State :=
  match ProcessMongoCmd srv call c with
  | .ignored => s
  | .failed => stop s
  | .cancelled cancelReason => update c (cancel cancelReason) s
  | .deliver _ none _ => stop s
  | .deliver _ (some ca) sc =>
    if sends then
      update c deliver { s with sent := s.sent ++ [⟨c._id, transmitted srv ca sc, call.now⟩] }
    else stop s

def step (s : State) : Label → Option State
  | .insert c =>
    if c.doc._id ∈ s.commandsQueue.map (·._id) then none
    else some { s with
      commandsQueue := s.commandsQueue ++ [c.doc]
      changes := if s.watching then s.changes ++ [c.doc] else s.changes }
  | .take call sends =>
    if call.Active then
      s.changes.head?.map fun c => take srv call sends { s with changes := s.changes.tail } c
    else none
  | .watch => if s.watching then none else some { s with watching := true }

end Definitions

section Requirement

variable (srv : Connection)

/-- The command is one of the connection, and is not about to be processed. -/
def Processed (s : State) (c : RtCommand) : Prop :=
  c.protocolSourceConnectionNumber = .fin srv.protocolConnectionNumber ∧
    c._id ∉ s.changes.map (·._id)

def sentFor (s : State) (c : RtCommand) : List Sent := s.sent.filter (·.command = c._id)

/-- Sent once, as it is and in time, and marked. -/
structure Delivered (s : State) (c : RtCommand) : Prop where
  sent : ∃ x, sentFor s c = [x] ∧ Own c x.asdu ∧ x.now - c.timeTag < 10000
  delivered : c.delivered = true
  cancelReason : c.cancelReason = none

structure Cancelled (s : State) (c : RtCommand) : Prop where
  sent : sentFor s c = []
  delivered : c.delivered = false
  cancelReason : c.cancelReason.isSome = true

/-- Every command processed is delivered or cancelled. -/
def Disposed (s : State) : Prop :=
  ∀ c ∈ s.commandsQueue, Processed srv s c → Delivered s c ∨ Cancelled s c

/-- The connection runs and its commands are enabled. -/
def Runs (call : Call) : Prop := call.IsRunning = true ∧ srv.commandsEnabled = true

/-- A command for a connection that runs is encodable; and one of an implemented type whose
age shows less than ten seconds is not older, fits its message and can be sent. -/
structure Handles (call : Call) (sends : Bool) (c : RtCommand) : Prop where
  encodable : Encodable c
  sent : implemented (commandType c) = true → seconds (call.now - c.timeTag) < 10 →
    call.now - c.timeTag < 10000 ∧ Fits srv c ∧ sends = true

/-- The condition on the steps of a run. -/
def Handled (s : State) : Label → Prop
  | .insert c => c.doc._id ∉ s.commandsQueue.map (·._id) →
    c.doc.protocolSourceConnectionNumber = .fin srv.protocolConnectionNumber → s.watching = true
  | .take call sends => call.Active = true → ∀ c ∈ s.changes.head?,
    c.protocolSourceConnectionNumber = .fin srv.protocolConnectionNumber → Runs srv call →
      Handles srv call sends c
  | .watch => True

end Requirement

section Invariant

/-- Documents have distinct ids, those not processed are as they were inserted and nothing
was sent for them, and what was sent was sent for one of the others. -/
structure Inv (s : State) : Prop where
  ids : (s.commandsQueue.map (·._id)).Nodup
  pending : (s.changes.map (·._id)).Nodup
  changes : ∀ c ∈ s.changes, c ∈ s.commandsQueue ∧ IsDouble c.value ∧ c.delivered = false ∧
    c.cancelReason = none
  sent : ∀ x ∈ s.sent, x.command ∈ s.commandsQueue.map (·._id) ∧
    x.command ∉ s.changes.map (·._id)

variable {srv : Connection} {s t : State}

theorem inv_start : Inv {} where
  ids := List.nodup_nil
  pending := List.nodup_nil
  changes := fun _ h => (by cases h)
  sent := fun _ h => (by cases h)

/-- A document of the queue keeps what an update of another one leaves. -/
theorem mem_update_of_ne (h : Inv s) {c d : RtCommand} (hc : c ∈ s.commandsQueue)
    {f : RtCommand → RtCommand} (hd : d ∈ s.commandsQueue) (hne : d._id ≠ c._id) :
    d ∈ (update c f s).commandsQueue :=
  (mem_updateOne_key h.ids hc).mpr (.inl ⟨hd, hne⟩)

theorem ids_update {c : RtCommand} {f : RtCommand → RtCommand} (hid : ∀ d, (f d)._id = d._id) :
    (update c f s).commandsQueue.map (·._id) = s.commandsQueue.map (·._id) :=
  map_updateOne hid s.commandsQueue

theorem inv_stop (h : Inv s) : Inv (stop s) where
  ids := h.ids
  pending := List.nodup_nil
  changes := fun _ hc => (by cases hc)
  sent := fun x hx => ⟨(h.sent x hx).1, by simp [stop]⟩

/-- The first document is taken from the changes. -/
theorem inv_tail (h : Inv s) {c : RtCommand} {rest : List RtCommand}
    (hchanges : s.changes = c :: rest) : Inv { s with changes := rest } := by
  have hpending := h.pending
  have hall := h.changes
  have hsent := h.sent
  rw [hchanges] at hpending hall
  refine ⟨h.ids, (List.nodup_cons.mp hpending).2, fun d hd => hall d (List.mem_cons_of_mem c hd),
    fun x hx => ⟨(hsent x hx).1, fun hmem => (hsent x hx).2 ?_⟩⟩
  rw [hchanges]
  exact List.mem_cons_of_mem _ hmem

theorem inv_update (h : Inv s) {c : RtCommand} (hc : c ∈ s.commandsQueue)
    (hnot : c._id ∉ s.changes.map (·._id)) {f : RtCommand → RtCommand}
    (hid : ∀ d, (f d)._id = d._id) : Inv (update c f s) := by
  have hids := @ids_update s c f hid
  refine ⟨?_, h.pending, fun d hd => ?_, fun x hx => ?_⟩
  · rw [hids]
    exact h.ids
  · obtain ⟨hmem, hrest⟩ := h.changes d hd
    refine ⟨mem_update_of_ne h hc hmem fun heq => hnot ?_, hrest⟩
    rw [← heq]
    exact List.mem_map_of_mem hd
  · rw [hids]
    exact h.sent x hx

theorem inv_sent (h : Inv s) {x : Sent} (hx : x.command ∈ s.commandsQueue.map (·._id))
    (hnot : x.command ∉ s.changes.map (·._id)) : Inv { s with sent := s.sent ++ [x] } := by
  refine ⟨h.ids, h.pending, h.changes, fun y hy => ?_⟩
  rcases List.mem_append.mp hy with hy | hy
  · exact h.sent y hy
  · rw [List.mem_singleton.mp hy]
    exact ⟨hx, hnot⟩

theorem inv_take (h : Inv s) {c : RtCommand} (hc : c ∈ s.commandsQueue)
    (hnot : c._id ∉ s.changes.map (·._id)) {call : Call} {sends : Bool} :
    Inv (take srv call sends s c) := by
  unfold take
  split
  · exact h
  · exact inv_stop h
  · exact inv_update h hc hnot fun _ => rfl
  · exact inv_stop h
  · split_ifs
    · exact inv_update (inv_sent h (List.mem_map_of_mem hc) hnot) hc hnot fun _ => rfl
    · exact inv_stop h

theorem inv_insert (h : Inv s) {c : Inserted} (hnew : c.doc._id ∉ s.commandsQueue.map (·._id)) :
    Inv { s with
      commandsQueue := s.commandsQueue ++ [c.doc]
      changes := if s.watching then s.changes ++ [c.doc] else s.changes } := by
  have hfresh : ∀ d ∈ s.changes, d._id ≠ c.doc._id := fun d hd heq =>
    hnew (heq ▸ List.mem_map_of_mem (h.changes d hd).1)
  have hold : ∀ d ∈ s.changes, d ∈ s.commandsQueue ++ [c.doc] ∧ IsDouble d.value ∧
      d.delivered = false ∧ d.cancelReason = none := by
    intro d hd
    obtain ⟨hmem, hrest⟩ := h.changes d hd
    exact ⟨List.mem_append_left _ hmem, hrest⟩
  have hsent : ∀ x ∈ s.sent, x.command ∈ (s.commandsQueue ++ [c.doc]).map (·._id) ∧
      x.command ≠ c.doc._id := by
    intro x hx
    have hmem := (h.sent x hx).1
    refine ⟨?_, fun heq => hnew (heq ▸ hmem)⟩
    rw [List.map_append]
    exact List.mem_append_left _ hmem
  refine ⟨?_, ?_, ?_, ?_⟩
  · rw [List.map_append]
    exact List.Nodup.append h.ids (List.nodup_singleton _)
      (List.disjoint_singleton.mpr hnew)
  · cases s.watching with
    | false => exact h.pending
    | true =>
      rw [if_pos rfl, List.map_append]
      refine List.Nodup.append h.pending (List.nodup_singleton _) (List.disjoint_singleton.mpr ?_)
      intro hmem
      obtain ⟨d, hd, hid⟩ := List.mem_map.mp hmem
      exact hfresh d hd hid
  · cases s.watching with
    | false => exact hold
    | true =>
      intro d hd
      rcases List.mem_append.mp hd with hd | hd
      · exact hold d hd
      · rw [List.mem_singleton.mp hd]
        exact ⟨List.mem_append_right _ (List.mem_singleton.mpr rfl), c.value, rfl, rfl⟩
  · intro x hx
    refine ⟨(hsent x hx).1, ?_⟩
    cases s.watching with
    | false => exact (h.sent x hx).2
    | true =>
      rw [if_pos rfl, List.map_append, List.mem_append, not_or]
      exact ⟨(h.sent x hx).2, fun heq => (hsent x hx).2 (List.mem_singleton.mp heq)⟩

/-- What a step that happens was. -/
theorem step_cases {l : Label} (h : step srv s l = some t) :
    (∃ c, l = .insert c ∧ c.doc._id ∉ s.commandsQueue.map (·._id) ∧
      t = { s with
        commandsQueue := s.commandsQueue ++ [c.doc]
        changes := if s.watching then s.changes ++ [c.doc] else s.changes }) ∨
    (∃ call sends c rest, l = .take call sends ∧ call.Active = true ∧ s.changes = c :: rest ∧
      t = take srv call sends { s with changes := rest } c) ∨
    (l = .watch ∧ t = { s with watching := true }) := by
  cases l with
  | insert c =>
    by_cases hnew : c.doc._id ∈ s.commandsQueue.map (·._id)
    · rw [step, if_pos hnew] at h
      cases h
    · rw [step, if_neg hnew] at h
      cases h
      exact .inl ⟨c, rfl, hnew, rfl⟩
  | take call sends =>
    simp only [step] at h
    split_ifs at h with hactive
    obtain ⟨c, hc, rfl⟩ := Option.map_eq_some_iff.mp h
    obtain ⟨rest, hchanges⟩ := List.head?_eq_some_iff.mp hc
    refine .inr (.inl ⟨call, sends, c, rest, rfl, hactive, hchanges, ?_⟩)
    rw [hchanges, List.tail_cons]
  | watch =>
    simp only [step] at h
    split_ifs at h
    cases h
    exact .inr (.inr ⟨rfl, rfl⟩)

theorem not_mem_rest (h : Inv s) {c : RtCommand} {rest : List RtCommand}
    (hchanges : s.changes = c :: rest) : c._id ∉ rest.map (·._id) := by
  have hpending := h.pending
  rw [hchanges] at hpending
  exact (List.nodup_cons.mp hpending).1

theorem inv_step (h : Inv s) {l : Label} (hstep : step srv s l = some t) : Inv t := by
  rcases step_cases hstep with ⟨c, -, hnew, rfl⟩ | ⟨call, sends, c, rest, -, -, hchanges, rfl⟩ |
    ⟨-, rfl⟩
  · exact inv_insert h hnew
  · have hc : c ∈ s.commandsQueue := (h.changes c (hchanges ▸ List.mem_cons_self)).1
    exact inv_take (inv_tail h hchanges) hc (not_mem_rest h hchanges)
  · exact ⟨h.ids, h.pending, h.changes, h.sent⟩

end Invariant

section Dispatch

variable {srv : Connection} {call : Call} {sends : Bool} {c : RtCommand}

theorem own_deliver {a : Asdu} : Own (deliver c) a ↔ Own c a :=
  ⟨fun h => ⟨h.commonAddress, h.asdu, h.objectAddress, h.value, h.qualifier, h.select⟩,
    fun h => ⟨h.commonAddress, h.asdu, h.objectAddress, h.value, h.qualifier, h.select⟩⟩

/-- An address that fits its octets converts. -/
theorem toInt32_isSome_of_fits (h : Fits srv c) :
    (Convert.toInt32 c.protocolSourceCommonAddress).isSome = true := by
  obtain ⟨n, hn, hpos, hlt⟩ := h.commonAddress
  have hbits : n < 2147483648 := by
    rcases addressBits_cases (min srv.sizeOfCA 2) with ⟨-, hb⟩ | ⟨-, hb⟩ | ⟨hsize, -⟩
    · rw [hb] at hlt
      omega
    · rw [hb] at hlt
      omega
    · omega
  have hin : -2147483648 ≤ n ∧ n ≤ 2147483647 := by omega
  rw [hn, Convert.toInt32, convert_fin (by rwa [nearestEven_intCast])]
  rfl

/-- What becomes of a command that is taken. -/
theorem take_cases (srv : Connection) (hactive : call.Active = true) (hvalue : IsDouble c.value)
    (sends : Bool) (s : State) :
    (c.protocolSourceConnectionNumber ≠ .fin srv.protocolConnectionNumber ∧
      take srv call sends s c = s) ∨
    (c.protocolSourceConnectionNumber = .fin srv.protocolConnectionNumber ∧
      ((∃ cancelReason, take srv call sends s c = update c (cancel cancelReason) s ∧
          (Runs srv call → Handles srv call sends c)) ∨
        (take srv call sends s c = stop s ∧ Runs srv call ∧ ¬Handles srv call sends c) ∨
        ∃ ca sc, take srv call sends s c =
            update c deliver { s with
              sent := s.sent ++ [⟨c._id, transmitted srv ca sc, call.now⟩] } ∧
          Runs srv call ∧ (Handles srv call sends c ↔
            Own c (transmitted srv ca sc) ∧ call.now - c.timeTag < 10000))) := by
  unfold take ProcessMongoCmd
  rw [if_neg (by simp [hactive])]
  by_cases hnumber : c.protocolSourceConnectionNumber = .fin srv.protocolConnectionNumber
  · right
    rw [if_neg (not_not.mpr hnumber)]
    refine ⟨hnumber, ?_⟩
    by_cases hruns : (call.IsRunning && srv.commandsEnabled) = true
    · rw [if_pos hruns]
      have hruns' : Runs srv call := by simpa [Runs] using hruns
      have hencodable := @buildCommand_isSome call.now c c.protocolSourceCommandUseSBO hvalue
      rcases hbuilt : buildCommand call.now c c.protocolSourceCommandUseSBO with _ | _ | sc
      · -- a value that the type does not encode
        refine .inr (.inl ⟨rfl, hruns', fun h => ?_⟩)
        have hsome := hencodable.mpr h.encodable
        rw [hbuilt] at hsome
        cases hsome
      · have himplemented := buildCommand_implemented hbuilt
        rw [hbuilt] at hencodable
        refine .inl ⟨_, rfl, fun _ => ⟨hencodable.mp rfl, fun h => ?_⟩⟩
        rw [h] at himplemented
        cases himplemented
      have himplemented := buildCommand_implemented hbuilt
      dsimp only
      by_cases hage : seconds (call.now - c.timeTag) < 10
      · rw [if_pos hage]
        rcases hca : Convert.toInt32 c.protocolSourceCommonAddress with _ | ca
        · refine .inr (.inl ⟨rfl, hruns', fun h => ?_⟩)
          have hsome := toInt32_isSome_of_fits (h.sent himplemented.symm hage).2.1
          rw [hca] at hsome
          cases hsome
        · dsimp only
          cases sends with
          | false =>
            refine .inr (.inl ⟨rfl, hruns', fun h => ?_⟩)
            exact absurd (h.sent himplemented.symm hage).2.2 Bool.false_ne_true
          | true =>
            refine .inr (.inr ⟨ca, sc, rfl, hruns', ?_⟩)
            have hown := @own_iff srv _ _ _ _ hvalue hbuilt hca
            rw [hown]
            constructor
            · intro h
              obtain ⟨hyoung, hfits, -⟩ := h.sent himplemented.symm hage
              exact ⟨hfits, hyoung⟩
            · rintro ⟨hfits, hyoung⟩
              rw [hbuilt] at hencodable
              exact ⟨hencodable.mp rfl, fun _ _ => ⟨hyoung, hfits, rfl⟩⟩
      · rw [if_neg hage]
        rw [hbuilt] at hencodable
        exact .inl ⟨_, rfl, fun _ => ⟨hencodable.mp rfl, fun _ h => absurd h hage⟩⟩
    · rw [if_neg hruns]
      refine .inl ⟨_, rfl, fun h => absurd ?_ hruns⟩
      simpa [Runs] using h
  · left
    rw [if_pos hnumber]
    exact ⟨hnumber, rfl⟩

end Dispatch

section Dispositions

variable {srv : Connection} {s t : State} {c : RtCommand} {rest : List RtCommand}

theorem Delivered.of_sentFor {d : RtCommand} (h : Delivered s d)
    (hsent : sentFor t d = sentFor s d) : Delivered t d := by
  refine ⟨?_, h.delivered, h.cancelReason⟩
  rw [hsent]
  exact h.sent

theorem Cancelled.of_sentFor {d : RtCommand} (h : Cancelled s d)
    (hsent : sentFor t d = sentFor s d) : Cancelled t d :=
  ⟨hsent.trans h.sent, h.delivered, h.cancelReason⟩

/-- A document that was not the first of the changes is disposed of as before. -/
theorem disposed_of_ne (hs : Disposed srv s) (hchanges : s.changes = c :: rest)
    (hrest : t.changes = rest) {d : RtCommand} (hd : d ∈ s.commandsQueue) (hne : d._id ≠ c._id)
    (hsent : sentFor t d = sentFor s d) (hprocessed : Processed srv t d) :
    Delivered t d ∨ Cancelled t d := by
  have hbefore : Processed srv s d := by
    refine ⟨hprocessed.1, ?_⟩
    rw [hchanges, List.map_cons, List.mem_cons, not_or]
    exact ⟨hne, hrest ▸ hprocessed.2⟩
  exact (hs d hd hbefore).imp (fun h => h.of_sentFor hsent) fun h => h.of_sentFor hsent

/-- Nothing was sent for a document that is about to be processed. -/
theorem sentFor_head (h : Inv s) (hchanges : s.changes = c :: rest) : sentFor s c = [] := by
  refine List.filter_eq_nil_iff.mpr fun x hx => ?_
  have hnot := (h.sent x hx).2
  rw [hchanges, List.map_cons, List.mem_cons, not_or] at hnot
  simpa using hnot.1

/-- After the document that was taken is updated, all are disposed of just when it is. -/
theorem disposed_update_iff (h : Inv s) (hs : Disposed srv s) (hchanges : s.changes = c :: rest)
    {f : RtCommand → RtCommand} (hid : ∀ d, (f d)._id = d._id)
    (hnumber : (f c).protocolSourceConnectionNumber = .fin srv.protocolConnectionNumber)
    (hrest : t.changes = rest)
    (hqueue : t.commandsQueue = updateOne (·._id = c._id) f s.commandsQueue)
    (hsent : ∀ d : RtCommand, d._id ≠ c._id → sentFor t d = sentFor s d) :
    Disposed srv t ↔ Delivered t (f c) ∨ Cancelled t (f c) := by
  have hc : c ∈ s.commandsQueue := (h.changes c (hchanges ▸ List.mem_cons_self)).1
  have hmem : ∀ d, d ∈ t.commandsQueue ↔ (d ∈ s.commandsQueue ∧ d._id ≠ c._id) ∨ d = f c := by
    intro d
    rw [hqueue]
    exact mem_updateOne_key h.ids hc
  constructor
  · intro ht
    refine ht (f c) ((hmem _).mpr (.inr rfl)) ⟨hnumber, ?_⟩
    rw [hrest, hid]
    exact not_mem_rest h hchanges
  · intro hf d hd hprocessed
    rcases (hmem d).mp hd with ⟨hd, hne⟩ | rfl
    · exact disposed_of_ne hs hchanges hrest hd hne (hsent d hne) hprocessed
    · exact hf

/-- When the change stream ends, the document that was taken is not disposed of. -/
theorem not_disposed_stop (h : Inv s) (hchanges : s.changes = c :: rest)
    (hnumber : c.protocolSourceConnectionNumber = .fin srv.protocolConnectionNumber) :
    ¬Disposed srv (stop { s with changes := rest }) := by
  intro ht
  obtain ⟨hc, -, hdelivered, hcancel⟩ := h.changes c (hchanges ▸ List.mem_cons_self)
  rcases ht c hc ⟨hnumber, by simp [stop]⟩ with hd | hd
  · exact absurd (hdelivered.symm.trans hd.delivered) Bool.false_ne_true
  · have hsome := hd.cancelReason
    rw [hcancel] at hsome
    cases hsome

/-- A document that was processed before is disposed of as before. -/
theorem disposed_of_processed (hs : Disposed srv s) {d : RtCommand} (hd : d ∈ s.commandsQueue)
    (hprocessed : Processed srv s d) (hsent : sentFor t d = sentFor s d) :
    Delivered t d ∨ Cancelled t d :=
  (hs d hd hprocessed).imp (fun h => h.of_sentFor hsent) fun h => h.of_sentFor hsent

/-- A new document is seen where the stream is open; where it is closed, it had better be of
another connection. -/
theorem disposed_insert (h : Inv s) (hs : Disposed srv s) {c : Inserted}
    (hnew : c.doc._id ∉ s.commandsQueue.map (·._id)) (hstep : step srv s (.insert c) = some t) :
    Disposed srv t ↔ Handled srv s (.insert c) := by
  rw [step, if_neg hnew] at hstep
  obtain rfl := Option.some.inj hstep
  cases hwatching : s.watching with
  | true =>
    refine iff_of_true (fun d hd hprocessed => ?_) fun _ _ => hwatching
    have hnot := hprocessed.2
    rw [if_pos rfl, List.map_append, List.mem_append, not_or] at hnot
    rcases List.mem_append.mp hd with hd | hd
    · exact disposed_of_processed hs hd ⟨hprocessed.1, hnot.1⟩ rfl
    · exact absurd (List.mem_map_of_mem hd) hnot.2
  | false =>
    have hhandled : Handled srv s (.insert c) ↔
        c.doc.protocolSourceConnectionNumber ≠ .fin srv.protocolConnectionNumber := by
      simp [Handled, hwatching, hnew]
    rw [hhandled]
    constructor
    · intro ht hnumber
      -- the document is never seen
      have hfresh : c.doc._id ∉ s.changes.map (·._id) := fun hmem => by
        obtain ⟨d, hd, hid⟩ := List.mem_map.mp hmem
        exact hnew (hid ▸ List.mem_map_of_mem (h.changes d hd).1)
      rcases ht c.doc (List.mem_append_right _ (List.mem_singleton.mpr rfl)) ⟨hnumber, hfresh⟩
        with hd | hd
      · exact absurd hd.delivered Bool.false_ne_true
      · exact absurd hd.cancelReason Bool.false_ne_true
    · intro hnumber d hd hprocessed
      rcases List.mem_append.mp hd with hd | hd
      · exact disposed_of_processed hs hd hprocessed rfl
      · rw [List.mem_singleton.mp hd] at hprocessed
        exact absurd hprocessed.1 hnumber

/-- The state in which the message was sent and its document is to be marked. -/
def send (x : Sent) (rest : List RtCommand) (s : State) : State :=
  { s with changes := rest, sent := s.sent ++ [x] }

theorem sentFor_send_self (h : Inv s) (hchanges : s.changes = c :: rest) {x : Sent}
    (hx : x.command = c._id) : sentFor (update c deliver (send x rest s)) (deliver c) = [x] := by
  have hnone : s.sent.filter (·.command = c._id) = [] := sentFor_head h hchanges
  calc sentFor (update c deliver (send x rest s)) (deliver c)
      = (s.sent ++ [x]).filter (·.command = c._id) := rfl
    _ = s.sent.filter (·.command = c._id) ++ [x].filter (·.command = c._id) :=
        List.filter_append ..
    _ = [x] := by rw [hnone, List.filter_cons_of_pos (by simpa using hx), List.filter_nil,
        List.nil_append]

theorem sentFor_send_of_ne {x : Sent} (hx : x.command = c._id) {d : RtCommand}
    (hne : d._id ≠ c._id) : sentFor (update c deliver (send x rest s)) d = sentFor s d := by
  have hother : [x].filter (·.command = d._id) = [] := by simpa [hx] using hne.symm
  calc sentFor (update c deliver (send x rest s)) d
      = (s.sent ++ [x]).filter (·.command = d._id) := rfl
    _ = s.sent.filter (·.command = d._id) ++ [x].filter (·.command = d._id) :=
        List.filter_append ..
    _ = sentFor s d := by rw [hother, List.append_nil, sentFor]

/-- After a command was sent and marked, all are disposed of just when the message is its own
and in time. -/
theorem disposed_deliver_iff (h : Inv s) (hs : Disposed srv s) (hchanges : s.changes = c :: rest)
    (hnumber : c.protocolSourceConnectionNumber = .fin srv.protocolConnectionNumber)
    {x : Sent} (hx : x.command = c._id) :
    Disposed srv (update c deliver (send x rest s)) ↔
      Own c x.asdu ∧ x.now - c.timeTag < 10000 := by
  obtain ⟨-, -, -, hcancel⟩ := h.changes c (hchanges ▸ List.mem_cons_self)
  have hsent := sentFor_send_self h hchanges hx
  rw [disposed_update_iff (f := deliver) h hs hchanges (fun _ => rfl) hnumber rfl rfl
    fun d hne => sentFor_send_of_ne hx hne]
  constructor
  · rintro (hd | hd)
    · obtain ⟨y, hy, hown, hyoung⟩ := hd.sent
      obtain rfl := (List.cons.inj (hsent.symm.trans hy)).1
      exact ⟨own_deliver.mp hown, hyoung⟩
    · exact absurd hd.delivered.symm Bool.false_ne_true
  · rintro ⟨hown, hyoung⟩
    exact .inl ⟨⟨x, hsent, own_deliver.mpr hown, hyoung⟩, rfl, hcancel⟩

/-- The command that is taken is disposed of just when it is handled. -/
theorem disposed_take (h : Inv s) (hs : Disposed srv s) {call : Call} {sends : Bool}
    (hactive : call.Active = true) (hchanges : s.changes = c :: rest) :
    Disposed srv (take srv call sends { s with changes := rest } c) ↔
      Handled srv s (.take call sends) := by
  obtain ⟨hc, hvalue, hdelivered, -⟩ := h.changes c (hchanges ▸ List.mem_cons_self)
  have hhandled : Handled srv s (.take call sends) ↔
      (c.protocolSourceConnectionNumber = .fin srv.protocolConnectionNumber →
        Runs srv call → Handles srv call sends c) := by
    simp [Handled, hchanges, hactive]
  rw [hhandled]
  rcases take_cases srv hactive hvalue sends { s with changes := rest } with ⟨hother, htake⟩ |
    ⟨hnumber, ⟨reason, htake, hhandles⟩ | ⟨htake, hruns, hnot⟩ | ⟨ca, sc, htake, hruns, hiff⟩⟩
  · rw [htake]
    refine iff_of_true (fun d hd hprocessed => ?_) fun hnumber => absurd hnumber hother
    have hne : d._id ≠ c._id := by
      intro hid
      rw [List.inj_on_of_nodup_map h.ids hd hc hid] at hprocessed
      exact hother hprocessed.1
    exact disposed_of_ne hs hchanges rfl hd hne rfl hprocessed
  · rw [htake]
    refine iff_of_true ?_ fun _ => hhandles
    have hiff := disposed_update_iff (t := update c (cancel reason) { s with changes := rest })
      (f := cancel reason) h hs hchanges (fun _ => rfl) hnumber rfl rfl fun _ _ => rfl
    have hnone : sentFor s c = [] := sentFor_head h hchanges
    exact hiff.mpr (.inr ⟨hnone, hdelivered, rfl⟩)
  · rw [htake]
    exact iff_of_false (not_disposed_stop h hchanges hnumber) fun hall => hnot (hall hnumber hruns)
  · have hdeliver := disposed_deliver_iff h hs hchanges hnumber
      (x := ⟨c._id, transmitted srv ca sc, call.now⟩) rfl
    have hall : (c.protocolSourceConnectionNumber = .fin srv.protocolConnectionNumber →
        Runs srv call → Handles srv call sends c) ↔ Handles srv call sends c :=
      ⟨fun hhandles => hhandles hnumber hruns, fun hhandles _ _ => hhandles⟩
    rw [htake, hall, hiff]
    exact hdeliver

/-- A step keeps the commands disposed of just when it handles the command it takes. -/
theorem disposed_step (h : Inv s) (hs : Disposed srv s) {l : Label}
    (hstep : step srv s l = some t) : Disposed srv t ↔ Handled srv s l := by
  rcases step_cases hstep with ⟨c, rfl, hnew, -⟩ |
    ⟨call, sends, c, rest, rfl, hactive, hchanges, rfl⟩ | ⟨rfl, rfl⟩
  · exact disposed_insert h hs hnew hstep
  · exact disposed_take h hs hactive hchanges
  · exact iff_of_true (fun d hd hprocessed => disposed_of_processed hs hd hprocessed rfl) trivial

end Dispositions

section Examples

def station : Connection := { protocolConnectionNumber := 1 }

/-- A single command, of time zero. -/
def switch (id : ℕ) : Inserted where
  command :=
    { _id := id, protocolSourceConnectionNumber := .fin 1, protocolSourceCommonAddress := .fin 5,
      protocolSourceObjectAddress := .fin 100, protocolSourceASDU := .fin 45, value := .fin 1 }
  value := JsonScada.Lib.Single.holds_intCast (z := 1) (by norm_num) (by norm_num)

/-- A bitstring command with a negative value. -/
def negativeBits (id : ℕ) : Inserted where
  command :=
    { _id := id, protocolSourceConnectionNumber := .fin 1, protocolSourceCommonAddress := .fin 5,
      protocolSourceObjectAddress := .fin 101, protocolSourceASDU := .fin 51, value := .fin (-1) }
  value := JsonScada.Lib.Single.holds_intCast (z := -1) (by norm_num) (by norm_num)

/-- Neither cancelled nor sent in time. -/
theorem not_disposed {srv : Connection} {t : State} {c : RtCommand} (hc : c ∈ t.commandsQueue)
    (hprocessed : Processed srv t c) (hcancel : c.cancelReason = none)
    (hlate : ∀ x ∈ sentFor t c, 10000 ≤ x.now - c.timeTag) : ¬Disposed srv t := by
  intro h
  rcases h c hc hprocessed with hd | hd
  · obtain ⟨x, hx, -, hyoung⟩ := hd.sent
    have hage := hlate x (hx ▸ List.mem_singleton.mpr rfl)
    omega
  · have hsome := hd.cancelReason
    rw [hcancel] at hsome
    cases hsome

end Examples

end JsonScada.System.CommandDisposition
