/- path: JsonScada/System/CommandAck
   source: src/lib60870.netcore/iec104client, commandsQueue and IECCmdAckQueue
   digest: Acknowledges find their way back to the commands they answer. -/

import JsonScada.Lib.Machine
import JsonScada.Iec104Client.Update

set_option autoImplicit false
set_option relaxedAutoImplicit false

namespace JsonScada.System.CommandAck

open JsonScada.Lib.Machine JsonScada.Lib.Binary64 JsonScada.Lib.Collection
open JsonScada.Iec104.Objects JsonScada.Iec104Client.Commands JsonScada.Iec104Client.Update

/-- A command on its way to the other station, with the document it was sent for. -/
structure Sent where
  command : ℕ
  asdu : Asdu
  deriving DecidableEq

/-- An acknowledge as it was written: the document it answers, and the one written. -/
structure Written where
  answered : ℕ
  written : Option ℕ
  deriving DecidableEq

/-- The collection of commands, the inserts the change stream has not delivered, the
memory of the selected command, the commands sent and not yet answered, oldest first, and
the acknowledges not yet processed, each with the document it answers; for the trace, the
acknowledges processed. -/
structure State where
  commandsQueue : List RtCommand := []
  changes : List RtCommand := []
  LastCommandSelected : Option InformationObject := none
  unanswered : List Sent := []
  IECCmdAckQueue : List (IEC_CmdAck × ℕ) := []
  writes : List Written := []

def start : State := {}

/-- A command is inserted, the change-stream thread takes the next one it has seen, the
other station confirms one of the commands sent, or an acknowledge is processed. -/
inductive Label where
  | insert (c : RtCommand) (watched : Bool)
  | take (call : Call)
  | confirm (i : ℕ) (IsNegative : Bool) (now : ℤ)
  | processMongo
  deriving DecidableEq

variable (srv : Connection)

/-- An exception ends the change stream, and the next one starts behind what was inserted. -/
def take (s : State) (c : RtCommand) : Dispatch → State
  | .ignored => s
  | .failed => { s with changes := [] }
  | .cancelled cancelReason =>
    { s with
      commandsQueue := updateOne (·._id = c._id)
        (fun d => { d with cancelReason := some cancelReason }) s.commandsQueue }
  | .deliver selected none _ =>
    { s with LastCommandSelected := selected.or s.LastCommandSelected, changes := [] }
  | .deliver selected (some ca) sc =>
    { s with
      LastCommandSelected := selected.or s.LastCommandSelected
      unanswered := s.unanswered ++ [⟨c._id, transmitted srv ca sc⟩]
      commandsQueue := updateOne (·._id = c._id)
        (fun d => { d with delivered := true }) s.commandsQueue }

def sameAddress (asdu : Asdu) (x : Sent) : Bool :=
  x.asdu.Ca = asdu.Ca && x.asdu.val.objectAddress = asdu.val.objectAddress

/-- A confirmation answers the oldest command sent to its addresses. When it makes the
handler send an execute, that is sent for the same document. -/
def receive (s : State) (now : ℤ) (asdu : Asdu) (answered : Sent) : State :=
  let unanswered := s.unanswered.eraseP (sameAddress asdu)
  match selectConfirmed s.LastCommandSelected asdu with
  | none => { s with unanswered := unanswered }
  | some executes =>
    { s with
      unanswered := unanswered ++ if executes then
        (s.LastCommandSelected.map fun o =>
          ⟨answered.command, transmitted srv asdu.Ca o⟩).toList else []
      IECCmdAckQueue := s.IECCmdAckQueue ++
        ((cmdAck srv now asdu).map fun ia => (ia, answered.command)).toList }

/-- The next acknowledge is written. -/
def processMongo (s : State) (x : IEC_CmdAck × ℕ) : State :=
  { s with
    IECCmdAckQueue := s.IECCmdAckQueue.tail
    commandsQueue := acknowledge s.commandsQueue x.1
    writes := s.writes ++ [⟨x.2, (newest s.commandsQueue x.1).map (·._id)⟩] }

def step (s : State) : Label → Option State
  | .insert c watched =>
    if c._id ∈ s.commandsQueue.map (·._id) then none
    else some { s with
      commandsQueue := s.commandsQueue ++ [c]
      changes := if watched then s.changes ++ [c] else s.changes }
  | .take call =>
    s.changes.head?.map fun c =>
      take srv { s with changes := s.changes.tail } c (ProcessMongoCmd srv call c)
  | .confirm i IsNegative now => do
    let x ← s.unanswered[i]?
    let asdu := confirmation x.asdu IsNegative
    let answered ← s.unanswered.find? (sameAddress asdu)
    return receive srv s now asdu answered
  | .processMongo => s.IECCmdAckQueue.head?.map (processMongo s)

/-- Every acknowledge was written to the command it answers and to no other. -/
def OwnCommand (s : State) : Prop := ∀ w ∈ s.writes, w.written = some w.answered

/-- The command has the object address of the acknowledge as it stands, and no command
inserted after it has the connection and the object address, under whatever common
address. -/
def Foremost (commandsQueue : List RtCommand) (ia : IEC_CmdAck) (id : ℕ) : Prop :=
  ∃ pre c post, commandsQueue = pre ++ c :: post ∧ c._id = id ∧
    c.protocolSourceObjectAddress = .fin ia.object_address ∧
    ∀ d ∈ post, ackFilter ia d = false

/-- The condition on the steps of a run. -/
def Undisturbed (s : State) : Label → Prop
  | .processMongo => ∀ x ∈ s.IECCmdAckQueue.head?, Foremost s.commandsQueue x.1 x.2
  | _ => True

/-- What no update of a command changes. -/
def key (c : RtCommand) : ℕ × Number := (c._id, c.protocolSourceConnectionNumber)

/-- The document was inserted as a command of the connection. -/
def Known (s : State) (id : ℕ) : Prop :=
  (id, .fin srv.protocolConnectionNumber) ∈ s.commandsQueue.map key

structure Inv (s : State) : Prop where
  ids : ((s.commandsQueue.map key).map Prod.fst).Nodup
  changes : ∀ c ∈ s.changes, key c ∈ s.commandsQueue.map key
  unanswered : ∀ x ∈ s.unanswered, Known srv s x.command
  acks : ∀ x ∈ s.IECCmdAckQueue,
    x.1.conn_number = srv.protocolConnectionNumber ∧ Known srv s x.2

theorem inv_start : Inv srv start where
  ids := List.nodup_nil
  changes := by intro c h; cases h
  unanswered := by intro x h; cases h
  acks := by intro x h; cases h

/-- An update that keeps the keys keeps what is known of the documents. -/
theorem inv_update {s : State} {c : RtCommand} {f : RtCommand → RtCommand} (hs : Inv srv s)
    (hf : ∀ d, key (f d) = key d) :
    Inv srv { s with commandsQueue := updateOne (·._id = c._id) f s.commandsQueue } := by
  have hkeys : (updateOne (·._id = c._id) f s.commandsQueue).map key =
      s.commandsQueue.map key := map_updateOne hf _
  refine ⟨?_, ?_, ?_, ?_⟩
  · rw [hkeys]
    exact hs.ids
  · rw [hkeys]
    exact hs.changes
  · unfold Known
    rw [hkeys]
    exact hs.unanswered
  · unfold Known
    rw [hkeys]
    exact hs.acks

theorem inv_insert {s : State} {c : RtCommand} {watched : Bool} (hs : Inv srv s)
    (hnew : c._id ∉ s.commandsQueue.map (·._id)) :
    Inv srv { s with
      commandsQueue := s.commandsQueue ++ [c]
      changes := if watched then s.changes ++ [c] else s.changes } := by
  have hgrow : ∀ k ∈ s.commandsQueue.map key, k ∈ (s.commandsQueue ++ [c]).map key := by
    intro k hk
    rw [List.map_append]
    exact List.mem_append_left _ hk
  have hself : key c ∈ (s.commandsQueue ++ [c]).map key := by
    rw [List.map_append]
    exact List.mem_append_right _ List.mem_cons_self
  refine ⟨?_, fun d hd => ?_, fun x hx => hgrow _ (hs.unanswered x hx),
    fun x hx => ⟨(hs.acks x hx).1, hgrow _ (hs.acks x hx).2⟩⟩
  · have hids := hs.ids
    rw [List.map_map] at hids ⊢
    rw [List.map_append]
    refine List.Nodup.append hids (List.nodup_singleton _) ?_
    intro id hid hc
    obtain rfl := List.mem_singleton.mp hc
    exact hnew hid
  · cases watched with
    | true =>
      rcases List.mem_append.mp hd with hd | hd
      · exact hgrow _ (hs.changes d hd)
      · obtain rfl := List.mem_singleton.mp hd
        exact hself
    | false => exact hgrow _ (hs.changes d hd)

theorem inv_take {s : State} {call : Call} {c : RtCommand} (hs : Inv srv s)
    (hc : key c ∈ s.commandsQueue.map key) :
    Inv srv (take srv s c (ProcessMongoCmd srv call c)) := by
  have hnone : ∀ d ∈ ([] : List RtCommand), key d ∈ s.commandsQueue.map key := by
    intro d hd
    cases hd
  cases hd : ProcessMongoCmd srv call c with
  | ignored => exact hs
  | failed => exact { hs with changes := hnone }
  | cancelled cancelReason => exact inv_update srv hs fun d => rfl
  | deliver selected ca sc =>
    cases ca with
    | none => exact { hs with changes := hnone }
    | some ca =>
      have hknown : Known srv s c._id := by
        have hconn := (deliver_cases hd).1
        unfold key at hc
        rw [hconn] at hc
        exact hc
      have hsent : Inv srv { s with
          LastCommandSelected := selected.or s.LastCommandSelected
          unanswered := s.unanswered ++ [⟨c._id, transmitted srv ca sc⟩] } := by
        refine { hs with unanswered := ?_ }
        intro x hx
        rcases List.mem_append.mp hx with hx | hx
        · exact hs.unanswered x hx
        · obtain rfl := List.mem_singleton.mp hx
          exact hknown
      exact @inv_update srv _ c (fun d => { d with delivered := true }) hsent fun d => rfl

theorem inv_receive {s : State} {now : ℤ} {asdu : Asdu} {answered : Sent} (hs : Inv srv s)
    (ha : answered ∈ s.unanswered) : Inv srv (receive srv s now asdu answered) := by
  have hknown : Known srv s answered.command := hs.unanswered answered ha
  have hrest : ∀ x ∈ s.unanswered.eraseP (sameAddress asdu), Known srv s x.command :=
    fun x hx => hs.unanswered x (List.mem_of_mem_eraseP hx)
  unfold receive
  rcases selectConfirmed s.LastCommandSelected asdu with _ | executes
  · exact { hs with unanswered := hrest }
  · refine ⟨hs.ids, hs.changes, fun x hx => ?_, fun x hx => ?_⟩
    · rcases List.mem_append.mp hx with hx | hx
      · exact hrest x hx
      · cases executes with
        | true =>
          obtain ⟨o, -, rfl⟩ := Option.map_eq_some_iff.mp (Option.mem_toList.mp hx)
          exact hknown
        | false => cases hx
    · rcases List.mem_append.mp hx with hx | hx
      · exact hs.acks x hx
      · obtain ⟨ia, hia, rfl⟩ := Option.map_eq_some_iff.mp (Option.mem_toList.mp hx)
        refine ⟨?_, hknown⟩
        unfold cmdAck at hia
        split_ifs at hia
        obtain rfl := Option.some.inj hia
        rfl

theorem inv_processMongo {s : State} (hs : Inv srv s) (x : IEC_CmdAck × ℕ) :
    Inv srv (processMongo s x) := by
  have hkeys : (acknowledge s.commandsQueue x.1).map key = s.commandsQueue.map key :=
    @map_updateLast _ _ (setAck x.1) _ key (fun d => rfl) _
  have hacks : ∀ y ∈ s.IECCmdAckQueue.tail, y.1.conn_number = srv.protocolConnectionNumber ∧
      Known srv s y.2 := fun y hy => hs.acks y (List.mem_of_mem_tail hy)
  unfold processMongo
  refine ⟨?_, ?_, ?_, ?_⟩
  · rw [hkeys]
    exact hs.ids
  · rw [hkeys]
    exact hs.changes
  · unfold Known
    rw [hkeys]
    exact hs.unanswered
  · unfold Known
    rw [hkeys]
    exact hacks

/-- An acknowledge is written to the command it answers just when that one is the
foremost of its filter. -/
theorem newest_iff_foremost {s : State} (hs : Inv srv s) {x : IEC_CmdAck × ℕ}
    (hconn : x.1.conn_number = srv.protocolConnectionNumber) (hknown : Known srv s x.2) :
    (newest s.commandsQueue x.1).map (·._id) = some x.2 ↔
      Foremost s.commandsQueue x.1 x.2 := by
  have hids := hs.ids
  rw [List.map_map] at hids
  constructor
  · intro h
    obtain ⟨c, hc, hid⟩ := Option.map_eq_some_iff.mp h
    obtain ⟨hfilter, pre, post, hqueue, hpost⟩ := findLast?_eq_some_iff.mp hc
    simp only [ackFilter, Bool.and_eq_true, decide_eq_true_eq] at hfilter
    exact ⟨pre, c, post, hqueue, hid, hfilter.2, hpost⟩
  · rintro ⟨pre, c, post, hqueue, hid, haddr, hpost⟩
    have hmem : c ∈ s.commandsQueue := by
      rw [hqueue]
      exact List.mem_append_right _ List.mem_cons_self
    -- the document of this key is the only one of its id
    obtain ⟨d, hd, hkey⟩ := List.mem_map.mp hknown
    obtain ⟨hdid, hdconn⟩ := Prod.mk.inj hkey
    obtain rfl : d = c := List.inj_on_of_nodup_map hids hd hmem (hdid.trans hid.symm)
    have hfilter : ackFilter x.1 d = true := by
      simp [ackFilter, hdconn, haddr, hconn]
    have hnewest : newest s.commandsQueue x.1 = some d :=
      findLast?_eq_some_iff.mpr ⟨hfilter, pre, post, hqueue, hpost⟩
    rw [hnewest]
    exact congrArg some hid

theorem ownCommand_processMongo {s : State} (hs : Inv srv s) (hok : OwnCommand s)
    {x : IEC_CmdAck × ℕ} (hx : s.IECCmdAckQueue.head? = some x) :
    OwnCommand (processMongo s x) ↔ Foremost s.commandsQueue x.1 x.2 := by
  obtain ⟨hconn, hknown⟩ := hs.acks x (List.mem_of_mem_head? hx)
  rw [← newest_iff_foremost srv hs hconn hknown]
  unfold OwnCommand processMongo
  constructor
  · intro h
    exact h _ (List.mem_append_right _ List.mem_cons_self)
  · intro h w hw
    rcases List.mem_append.mp hw with hw | hw
    · exact hok w hw
    · obtain rfl := List.mem_singleton.mp hw
      exact h

theorem take_writes (s : State) (c : RtCommand) (d : Dispatch) :
    (take srv s c d).writes = s.writes := by
  rcases d with _ | _ | reason | ⟨selected, _ | ca, sc⟩ <;> rfl

theorem receive_writes (s : State) (now : ℤ) (asdu : Asdu) (answered : Sent) :
    (receive srv s now asdu answered).writes = s.writes := by
  unfold receive
  rcases selectConfirmed s.LastCommandSelected asdu with _ | executes <;> rfl

theorem step_ownCommand {s t : State} {a : Label} (hs : Inv srv s) (h : step srv s a = some t) :
    Inv srv t ∧ (OwnCommand s → (OwnCommand t ↔ Undisturbed s a)) := by
  cases a with
  | insert c watched =>
    by_cases hnew : c._id ∈ s.commandsQueue.map (·._id)
    · simp [step, hnew] at h
    simp only [step, if_neg hnew] at h
    obtain rfl := Option.some.inj h
    exact ⟨inv_insert srv hs hnew, fun hok => iff_of_true hok trivial⟩
  | take call =>
    obtain ⟨c, hc, rfl⟩ := Option.map_eq_some_iff.mp h
    have hs' : Inv srv { s with changes := s.changes.tail } :=
      { hs with changes := fun d hd => hs.changes d (List.mem_of_mem_tail hd) }
    refine ⟨inv_take srv hs' (hs.changes c (List.mem_of_mem_head? hc)), fun hok => ?_⟩
    refine iff_of_true ?_ trivial
    unfold OwnCommand
    rw [take_writes]
    exact hok
  | confirm i IsNegative now =>
    obtain ⟨x, -, h⟩ := Option.bind_eq_some_iff.mp h
    obtain ⟨answered, ha, h⟩ := Option.bind_eq_some_iff.mp h
    obtain rfl := Option.some.inj h
    refine ⟨inv_receive srv hs (List.mem_of_find?_eq_some ha), fun hok => ?_⟩
    refine iff_of_true ?_ trivial
    unfold OwnCommand
    rw [receive_writes]
    exact hok
  | processMongo =>
    obtain ⟨x, hx, rfl⟩ := Option.map_eq_some_iff.mp h
    refine ⟨inv_processMongo srv hs x, fun hok => ?_⟩
    rw [ownCommand_processMongo srv hs hok hx]
    show _ ↔ ∀ y ∈ s.IECCmdAckQueue.head?, Foremost s.commandsQueue y.1 y.2
    rw [hx]
    simp

/-- A step that cannot be taken breaks no condition. -/
theorem undisturbed_of_stuck {s : State} {a : Label} (h : step srv s a = none) :
    Undisturbed s a := by
  cases a with
  | insert c watched => trivial
  | take call => trivial
  | confirm i IsNegative now => trivial
  | processMongo =>
    intro x hx
    simp [step, Option.mem_def.mp hx] at h

/-- In every run, all acknowledges are written to the commands they answer and to no
others, just when each is processed while the command it answers is the newest of its
connection and object address. -/
theorem own_command_iff (labels : List Label) :
    (∀ s, Visits (step srv) start labels s → OwnCommand s) ↔
      Every (step srv) Undisturbed start labels := by
  have hall : Every (step srv) (fun _ _ => True) start labels :=
    every_of_forall_mem (P := fun _ => True) fun _ _ => trivial
  have hstart : OwnCommand start := by
    intro w hw
    cases hw
  refine visits_iff_every ?_ ?_ hall (inv_start srv) hstart
  · intro s a t _ hs h
    exact step_ownCommand srv hs h
  · intro s a _ h
    exact undisturbed_of_stuck srv h

section Example

def sampleConnection : Connection := { protocolConnectionNumber := 1 }

def sampleCommand (id : ℕ) (ca : ℤ) : RtCommand :=
  { _id := id, protocolSourceConnectionNumber := .fin 1, protocolSourceCommonAddress := .fin ca,
    protocolSourceObjectAddress := .fin 100, protocolSourceASDU := .fin 45, value := .fin 1 }

/-- Two commands to one object address under two common addresses, both sent before the
first of them is confirmed. -/
def crossed : List Label :=
  [.insert (sampleCommand 0 1) true, .insert (sampleCommand 1 2) true, .take {}, .take {},
    .confirm 0 false 50, .processMongo]

/-- The first command is confirmed, and the second one gets the acknowledge. -/
theorem crossed_acknowledges_other :
    ∃ s ∈ run (step sampleConnection) start crossed,
      s.commandsQueue.map (fun c => (c._id, c.ack)) = [(0, none), (1, some true)] ∧
      s.writes = [⟨0, some 1⟩] ∧ ¬ OwnCommand s := by
  have hrun : (run (step sampleConnection) start crossed).map (fun s =>
      (s.commandsQueue.map fun c => (c._id, c.ack), s.writes)) =
        some ([(0, none), (1, some true)], [⟨0, some 1⟩]) := by
    decide +kernel
  obtain ⟨s, hs, hfields⟩ := Option.map_eq_some_iff.mp hrun
  obtain ⟨hacks, hwrites⟩ := Prod.mk.inj hfields
  refine ⟨s, hs, hacks, hwrites, fun h => ?_⟩
  have hown := h ⟨0, some 1⟩ (by rw [hwrites]; exact List.mem_cons_self)
  exact absurd hown (by decide)

end Example

end JsonScada.System.CommandAck
