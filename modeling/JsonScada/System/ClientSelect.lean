/- path: JsonScada/System/ClientSelect
   source: src/lib60870.netcore/iec104client, LastCommandSelected of a connection
   digest: The two threads of a client connection share one memory of the selected command. -/

import JsonScada.Lib.Machine
import JsonScada.Iec104Client.Commands
import Mathlib.Data.List.Perm.Subperm

set_option autoImplicit false
set_option relaxedAutoImplicit false

namespace JsonScada.System.ClientSelect

open JsonScada.Lib.Machine JsonScada.Lib.Binary64
open JsonScada.Iec104.Types JsonScada.Iec104.Objects JsonScada.Iec104Client.Commands

/-- What a command does: its addresses, its type and its value, whether it is sent as a
select or as an execute. -/
structure Operation where
  commonAddress : ℤ
  type : TypeID
  objectAddress : ℤ
  content : Content
  deriving DecidableEq

def operation (a : Asdu) : Operation :=
  ⟨a.Ca, a.val.type, a.val.objectAddress, execute a.val.content⟩

/-- The memory of the connection, the command the change-stream thread is about to send,
the selects on their way, and the confirmation the receive thread is about to answer; for
the trace, the operations that were selected, confirmed and executed. -/
structure State where
  LastCommandSelected : Option InformationObject := none
  sending : Option Asdu := none
  outstanding : List Asdu := []
  answering : Option Asdu := none
  selected : List Operation := []
  confirmed : List Operation := []
  executed : List Operation := []

def start : State := {}

/-- The change-stream thread takes a command and sends it; the other station confirms one
of the selects, and the receive thread answers with the memory. -/
inductive Label where
  | take (call : Call) (c : RtCommand)
  | send
  | confirm (i : ℕ) (IsNegative : Bool)
  | answer
  deriving DecidableEq

variable (srv : Connection)

def take (s : State) : Dispatch → State
  | .deliver selected ca sc =>
    { s with
      LastCommandSelected := selected.or s.LastCommandSelected
      sending := ca.map fun ca => transmitted srv ca sc }
  | _ => s

/-- Only a select is confirmed as one. -/
def send (s : State) (a : Asdu) : State :=
  if Select a.val.content then
    { s with
      sending := none
      outstanding := s.outstanding ++ [a]
      selected := s.selected ++ [operation a] }
  else { s with sending := none }

def confirm (s : State) (i : ℕ) (IsNegative : Bool) (a : Asdu) : State :=
  let asdu := confirmation a IsNegative
  { s with
    outstanding := s.outstanding.eraseIdx i
    confirmed := if IsNegative then s.confirmed else s.confirmed ++ [operation a]
    answering :=
      if selectConfirmed s.LastCommandSelected asdu = some true then some asdu else none }

def answer (s : State) (asdu : Asdu) : State :=
  { s with
    answering := none
    executed := s.executed ++
      (s.LastCommandSelected.map fun o => operation (transmitted srv asdu.Ca o)).toList }

def step (s : State) : Label → Option State
  | .take call c =>
    if s.sending = none then some (take srv s (ProcessMongoCmd srv call c)) else none
  | .send => s.sending.map (send s)
  | .confirm i IsNegative =>
    if s.answering = none then s.outstanding[i]?.map (confirm s i IsNegative) else none
  | .answer => s.answering.map (answer srv s)

/-- The executes sent are those of the confirmed selects, each once and in their order, up
to the one being answered; and the confirmed selects are selects of the commands. -/
structure Answered (s : State) : Prop where
  inOrder : s.confirmed = s.executed ++ (s.answering.map operation).toList
  ofCommands : s.confirmed.Subperm s.selected

/-- The memory holds a command with the object address of the confirmed select, and the
handler has an answer for its type. -/
def Matched (s : State) (a : Asdu) : Prop :=
  answersSelect a.val.type = true ∧
    ∃ o ∈ s.LastCommandSelected, o.objectAddress = a.val.objectAddress

/-- The memory holds the command of the confirmed select. -/
def Remembered (s : State) (a : Asdu) : Prop :=
  ∃ o ∈ s.LastCommandSelected, o.type = a.val.type ∧
    addressOctets srv.sizeOfIOA o.objectAddress = a.val.objectAddress ∧
    execute o.content = execute a.val.content

/-- The condition on the steps of a run. -/
def Kept (s : State) : Label → Prop
  | .confirm i IsNegative =>
    s.answering = none → IsNegative = false → ∀ a ∈ s.outstanding[i]?, Matched s a
  | .answer => ∀ a ∈ s.answering, Remembered srv s a
  | _ => True

structure Inv (s : State) : Prop where
  sending : ∀ a ∈ s.sending, commonAddress srv a.Ca = a.Ca
  outstanding : ∀ a ∈ s.outstanding, Select a.val.content = true ∧ commonAddress srv a.Ca = a.Ca
  answering : ∀ a ∈ s.answering, commonAddress srv a.Ca = a.Ca
  selects : (s.outstanding.map operation ++ s.confirmed).Subperm s.selected

theorem inv_start : Inv srv start where
  sending := by intro a h; cases h
  outstanding := by intro a h; cases h
  answering := by intro a h; cases h
  selects := List.Subperm.refl _

theorem answered_start : Answered start where
  inOrder := rfl
  ofCommands := List.Subperm.refl _

theorem inv_take {s : State} (hs : Inv srv s) (d : Dispatch) : Inv srv (take srv s d) := by
  cases d with
  | deliver selected ca sc =>
    refine { hs with sending := ?_ }
    intro a ha
    obtain ⟨n, -, rfl⟩ := Option.map_eq_some_iff.mp ha
    exact addressOctets_idem _ _
  | ignored => exact hs
  | failed => exact hs
  | cancelled cancelReason => exact hs

theorem inv_send {s : State} {a : Asdu} (hs : Inv srv s) (ha : s.sending = some a) :
    Inv srv (send s a) := by
  have hnone : ∀ x ∈ (none : Option Asdu), commonAddress srv x.Ca = x.Ca := by
    intro x hx
    cases hx
  unfold send
  split_ifs with hsel
  · refine ⟨hnone, ?_, hs.answering, ?_⟩
    · intro x hx
      rcases List.mem_append.mp hx with hx | hx
      · exact hs.outstanding x hx
      · obtain rfl := List.mem_singleton.mp hx
        exact ⟨hsel, hs.sending x ha⟩
    · rw [List.map_append, List.append_assoc]
      have hswap : (s.outstanding.map operation ++ ([operation a] ++ s.confirmed)).Perm
          ((s.outstanding.map operation ++ s.confirmed) ++ [operation a]) := by
        rw [List.append_assoc]
        exact List.perm_append_comm.append_left _
      exact hswap.subperm.trans ((List.subperm_append_right _).mpr hs.selects)
  · exact { hs with sending := hnone }

theorem inv_confirm {s : State} {i : ℕ} {IsNegative : Bool} {a : Asdu} (hs : Inv srv s)
    (ha : s.outstanding[i]? = some a) : Inv srv (confirm s i IsNegative a) := by
  obtain ⟨hlt, hval⟩ := List.getElem?_eq_some_iff.mp ha
  have hmem : a ∈ s.outstanding := List.mem_of_getElem? ha
  refine ⟨hs.sending, ?_, ?_, ?_⟩
  · intro x hx
    exact hs.outstanding x (List.mem_of_mem_eraseIdx hx)
  · intro x hx
    simp only [confirm] at hx
    split_ifs at hx
    · obtain rfl := Option.some.inj hx
      exact (hs.outstanding a hmem).2
    · cases hx
  · have hperm : (a :: s.outstanding.eraseIdx i).Perm s.outstanding := by
      rw [← hval]
      exact List.getElem_cons_eraseIdx_perm hlt
    have hops := (hperm.map operation).append_right s.confirmed
    have hall := hops.subperm.trans hs.selects
    simp only [confirm]
    cases IsNegative with
    | true => exact (List.sublist_cons_self _ _).subperm.trans hall
    | false =>
      have hswap : ((s.outstanding.eraseIdx i).map operation ++
          (s.confirmed ++ [operation a])).Perm
            ((a :: s.outstanding.eraseIdx i).map operation ++ s.confirmed) := by
        rw [← List.append_assoc]
        exact List.perm_append_singleton _ _
      exact hswap.subperm.trans hall

theorem inv_answer {s : State} (hs : Inv srv s) (asdu : Asdu) : Inv srv (answer srv s asdu) := by
  refine { hs with answering := ?_ }
  intro a ha
  cases ha

/-- The confirmed selects are selects of the commands, whatever was executed. -/
theorem Inv.ofCommands {s : State} (hs : Inv srv s) : s.confirmed.Subperm s.selected :=
  (List.sublist_append_right _ _).subperm.trans hs.selects

/-- The test of the handler, for the confirmation of a select. -/
theorem selectConfirmed_iff {s : State} {a : Asdu} (hsel : Select a.val.content = true)
    (IsNegative : Bool) :
    selectConfirmed s.LastCommandSelected (confirmation a IsNegative) = some true ↔
      IsNegative = false ∧ Matched s a := by
  unfold selectConfirmed Matched confirmation
  cases IsNegative with
  | true => simp
  | false =>
    by_cases hans : answersSelect a.val.type = true
    · cases hlast : s.LastCommandSelected with
      | none => simp [hans, hsel]
      | some o => simp [hans, hsel, eq_comm]
    · simp [hans]

/-- A positive confirmation is taken up just when the memory matches it. -/
theorem confirm_iff {s : State} {i : ℕ} {IsNegative : Bool} {a : Asdu} (hs : Inv srv s)
    (hok : Answered s) (ha : s.outstanding[i]? = some a) (hidle : s.answering = none) :
    Answered (confirm s i IsNegative a) ↔ (IsNegative = false → Matched s a) := by
  have hsel : Select a.val.content = true := (hs.outstanding a (List.mem_of_getElem? ha)).1
  have htest := @selectConfirmed_iff s a hsel IsNegative
  have heq : s.confirmed = s.executed := by
    have h := hok.inOrder
    rw [hidle] at h
    simpa using h
  have hinv := @inv_confirm srv s i IsNegative a hs ha
  have horder : (confirm s i IsNegative a).confirmed = (confirm s i IsNegative a).executed ++
      ((confirm s i IsNegative a).answering.map operation).toList ↔
        (IsNegative = false → Matched s a) := by
    by_cases hm : IsNegative = false ∧ Matched s a
    · obtain ⟨rfl, hmatch⟩ := hm
      have hnext : (confirm s i false a).answering = some (confirmation a false) :=
        if_pos (htest.mpr ⟨rfl, hmatch⟩)
      rw [hnext]
      refine iff_of_true ?_ fun _ => hmatch
      show s.confirmed ++ [operation a] = s.executed ++ [operation a]
      rw [heq]
    · have hnext : (confirm s i IsNegative a).answering = none :=
        if_neg fun h => hm (htest.mp h)
      rw [hnext]
      cases IsNegative with
      | true => simp [confirm, heq]
      | false =>
        have hno : ¬ Matched s a := fun h => hm ⟨rfl, h⟩
        simp [confirm, heq, hno]
  constructor
  · intro hans
    exact horder.mp hans.inOrder
  · intro hm
    exact ⟨horder.mpr hm, hinv.ofCommands⟩

/-- The execute sent is that of the confirmed select just when the memory holds it. -/
theorem answer_iff {s : State} {a : Asdu} (hs : Inv srv s) (hok : Answered s)
    (ha : s.answering = some a) : Answered (answer srv s a) ↔ Remembered srv s a := by
  have hca : commonAddress srv a.Ca = a.Ca := hs.answering a ha
  have heq : s.confirmed = s.executed ++ [operation a] := by
    have h := hok.inOrder
    rw [ha] at h
    exact h
  have hop : ∀ o : InformationObject, operation (transmitted srv a.Ca o) = operation a ↔
      o.type = a.val.type ∧ addressOctets srv.sizeOfIOA o.objectAddress = a.val.objectAddress ∧
        execute o.content = execute a.val.content := by
    intro o
    simp [operation, transmitted, hca]
  have horder : (answer srv s a).confirmed = (answer srv s a).executed ++
      ((answer srv s a).answering.map operation).toList ↔ Remembered srv s a := by
    unfold Remembered
    simp only [answer]
    rw [heq]
    cases hlast : s.LastCommandSelected with
    | none => simp
    | some o =>
      simp only [Option.map_some, Option.toList_some, Option.map_none, Option.toList_none,
        List.append_nil, List.append_cancel_left_eq, List.cons.injEq, and_true, Option.mem_def,
        Option.some.injEq, exists_eq_left']
      rw [eq_comm]
      exact hop o
  constructor
  · intro hans
    exact horder.mp hans.inOrder
  · intro hm
    exact ⟨horder.mpr hm, hs.ofCommands⟩

theorem answered_take {s : State} (hok : Answered s) (d : Dispatch) :
    Answered (take srv s d) := by
  cases d with
  | deliver selected ca sc => exact ⟨hok.inOrder, hok.ofCommands⟩
  | ignored => exact hok
  | failed => exact hok
  | cancelled cancelReason => exact hok

theorem answered_send {s : State} (hok : Answered s) (a : Asdu) : Answered (send s a) := by
  unfold send
  split_ifs
  · exact ⟨hok.inOrder, hok.ofCommands.trans (List.sublist_append_left _ _).subperm⟩
  · exact ⟨hok.inOrder, hok.ofCommands⟩

theorem step_answered {s t : State} {a : Label} (hs : Inv srv s) (h : step srv s a = some t) :
    Inv srv t ∧ (Answered s → (Answered t ↔ Kept srv s a)) := by
  cases a with
  | take call c =>
    simp only [step] at h
    split_ifs at h
    obtain rfl := Option.some.inj h
    exact ⟨inv_take srv hs _, fun hok => iff_of_true (answered_take srv hok _) trivial⟩
  | send =>
    obtain ⟨a, ha, rfl⟩ := Option.map_eq_some_iff.mp h
    exact ⟨inv_send srv hs ha, fun hok => iff_of_true (answered_send hok a) trivial⟩
  | confirm i IsNegative =>
    simp only [step] at h
    split_ifs at h with hidle
    obtain ⟨a, ha, rfl⟩ := Option.map_eq_some_iff.mp h
    refine ⟨inv_confirm srv hs ha, fun hok => ?_⟩
    rw [confirm_iff srv hs hok ha hidle]
    show _ ↔ (s.answering = none → IsNegative = false → ∀ a ∈ s.outstanding[i]?, Matched s a)
    rw [ha]
    simp [hidle]
  | answer =>
    obtain ⟨a, ha, rfl⟩ := Option.map_eq_some_iff.mp h
    refine ⟨inv_answer srv hs a, fun hok => ?_⟩
    rw [answer_iff srv hs hok ha]
    show _ ↔ ∀ a ∈ s.answering, Remembered srv s a
    rw [ha]
    simp

/-- A step that cannot be taken breaks no condition. -/
theorem kept_of_stuck {s : State} {a : Label} (h : step srv s a = none) : Kept srv s a := by
  cases a with
  | take call c => trivial
  | send => trivial
  | confirm i IsNegative =>
    intro hidle hneg a ha
    simp [step, hidle, Option.mem_def.mp ha] at h
  | answer =>
    intro a ha
    simp [step, Option.mem_def.mp ha] at h

/-- In every run of the two threads, the executes are those of the confirmed selects in
every state, just when each positive confirmation finds a command with its object address
and a type the handler answers, and each answer finds the command of its confirmation. -/
theorem executes_confirmed_iff (labels : List Label) :
    (∀ s, Visits (step srv) start labels s → Answered s) ↔
      Every (step srv) (Kept srv) start labels := by
  have hall : Every (step srv) (fun _ _ => True) start labels :=
    every_of_forall_mem (P := fun _ => True) fun _ _ => trivial
  refine visits_iff_every ?_ ?_ hall (inv_start srv) answered_start
  · intro s a t _ hs h
    exact step_answered srv hs h
  · intro s a _ h
    exact kept_of_stuck srv h

/-- A command with select-before-operate is taken while no other one is on its way, it is
of a type the handler answers, and its object address fits its octets. -/
def Alone (s : State) : Label → Prop
  | .take call c => c.protocolSourceCommandUseSBO = true →
    ∀ selected ca sc, ProcessMongoCmd srv call c = .deliver selected ca sc →
      s.outstanding = [] ∧ s.answering = none ∧ answersSelect sc.type = true ∧
        addressOctets srv.sizeOfIOA sc.objectAddress = sc.objectAddress
  | _ => True

/-- The memory holds the command that is on its way. -/
def Held (s : State) (a : Asdu) : Prop :=
  answersSelect a.val.type = true ∧ ∃ o ∈ s.LastCommandSelected, o.type = a.val.type ∧
    o.objectAddress = a.val.objectAddress ∧
    addressOctets srv.sizeOfIOA o.objectAddress = o.objectAddress ∧
    execute o.content = execute a.val.content

structure AllHeld (s : State) : Prop where
  sending : ∀ a ∈ s.sending, Select a.val.content = true → Held srv s a
  outstanding : ∀ a ∈ s.outstanding, Held srv s a
  answering : ∀ a ∈ s.answering, Held srv s a

theorem allHeld_take {s : State} {call : Call} {c : RtCommand} (hs : AllHeld srv s)
    (halone : Alone srv s (.take call c)) :
    AllHeld srv (take srv s (ProcessMongoCmd srv call c)) := by
  cases hd : ProcessMongoCmd srv call c with
  | deliver selected ca sc =>
    cases hsbo : c.protocolSourceCommandUseSBO with
    | true =>
      obtain ⟨hout, hans, htype, hfits⟩ := halone hsbo selected ca sc hd
      obtain rfl := deliver_select hd hsbo
      refine ⟨fun a ha _ => ?_, fun a ha => ?_, fun a ha => ?_⟩
      · obtain ⟨n, -, rfl⟩ := Option.map_eq_some_iff.mp ha
        refine ⟨htype, { sc with content := execute sc.content }, rfl, rfl, ?_, hfits, ?_⟩
        · exact hfits.symm
        · show execute (execute sc.content) = execute sc.content
          cases sc.content <;> rfl
      · have hmem : a ∈ s.outstanding := ha
        rw [hout] at hmem
        cases hmem
      · have hmem : a ∈ s.answering := ha
        rw [hans] at hmem
        cases hmem
    | false =>
      obtain ⟨rfl, hsel⟩ := deliver_direct hd hsbo
      refine ⟨fun a ha hflag => ?_, hs.outstanding, hs.answering⟩
      obtain ⟨n, -, rfl⟩ := Option.map_eq_some_iff.mp ha
      exact absurd (hsel.symm.trans hflag) (by decide)
  | ignored => exact hs
  | failed => exact hs
  | cancelled cancelReason => exact hs

theorem allHeld_step {s t : State} {a : Label} (hs : AllHeld srv s) (halone : Alone srv s a)
    (h : step srv s a = some t) : AllHeld srv t := by
  cases a with
  | take call c =>
    simp only [step] at h
    split_ifs at h
    obtain rfl := Option.some.inj h
    exact allHeld_take srv hs halone
  | send =>
    obtain ⟨a, ha, rfl⟩ := Option.map_eq_some_iff.mp h
    unfold send
    split_ifs with hsel
    · refine ⟨by rintro x ⟨⟩, fun x hx => ?_, hs.answering⟩
      rcases List.mem_append.mp hx with hx | hx
      · exact hs.outstanding x hx
      · obtain rfl := List.mem_singleton.mp hx
        exact hs.sending x ha hsel
    · exact ⟨by rintro x ⟨⟩, hs.outstanding, hs.answering⟩
  | confirm i IsNegative =>
    simp only [step] at h
    split_ifs at h
    obtain ⟨a, ha, rfl⟩ := Option.map_eq_some_iff.mp h
    refine ⟨hs.sending, fun x hx => hs.outstanding x (List.mem_of_mem_eraseIdx hx),
      fun x hx => ?_⟩
    simp only [confirm] at hx
    split_ifs at hx
    · obtain rfl := Option.some.inj hx
      exact hs.outstanding a (List.mem_of_getElem? ha)
    · cases hx
  | answer =>
    obtain ⟨a, ha, rfl⟩ := Option.map_eq_some_iff.mp h
    exact ⟨hs.sending, hs.outstanding, by rintro x ⟨⟩⟩

theorem kept_of_allHeld {s : State} (hs : AllHeld srv s) (a : Label) : Kept srv s a := by
  cases a with
  | take call c => trivial
  | send => trivial
  | confirm i IsNegative =>
    intro _ _ a ha
    obtain ⟨htype, o, ho, -, haddr, -⟩ := hs.outstanding a (List.mem_of_getElem? ha)
    exact ⟨htype, o, ho, haddr⟩
  | answer =>
    intro a ha
    obtain ⟨-, o, ho, htype, haddr, hfits, hcontent⟩ := hs.answering a ha
    exact ⟨o, ho, htype, hfits.trans haddr, hcontent⟩

/-- Commands that wait for each other are answered by their own executes. -/
theorem alone_answered {labels : List Label} {s : State}
    (halone : Every (step srv) (Alone srv) start labels)
    (hv : Visits (step srv) start labels s) : Answered s := by
  have hstart : AllHeld srv start :=
    ⟨by rintro a ⟨⟩, by rintro a ⟨⟩, by rintro a ⟨⟩⟩
  have hheld : Every (step srv) (fun s a => Alone srv s a ∧ AllHeld srv s) start labels :=
    halone.strengthen (fun _ _ _ ha hs h => allHeld_step srv hs ha h) hstart
  have hkept : Every (step srv) (Kept srv) start labels :=
    hheld.imp fun s a h => kept_of_allHeld srv h.2 a
  have hall : ∀ s a t, Kept srv s a → Inv srv s ∧ Answered s → step srv s a = some t →
      Inv srv t ∧ Answered t := by
    rintro s a t hk ⟨hs, hok⟩ h
    obtain ⟨ht, hiff⟩ := step_answered srv hs h
    exact ⟨ht, (hiff hok).mpr hk⟩
  exact (visits_invariant hall hkept ⟨inv_start srv, answered_start⟩ hv).2

section Example

def sampleConnection : Connection := { protocolConnectionNumber := 1 }

/-- A single command behind a select. -/
def sampleCommand (ca : ℤ) (value : Number) : RtCommand :=
  { _id := 0, protocolSourceConnectionNumber := .fin 1, protocolSourceCommonAddress := .fin ca,
    protocolSourceObjectAddress := .fin 100, protocolSourceASDU := .fin 45,
    protocolSourceCommandUseSBO := true, value := value }

/-- Two commands to one object address under two common addresses, both taken before the
first of them is confirmed. -/
def crossed : List Label :=
  [.take {} (sampleCommand 1 (.fin 1)), .send, .take {} (sampleCommand 2 (.fin 0)), .send,
    .confirm 0 false, .answer]

/-- The select that was confirmed switches on, and the execute sent switches off. -/
theorem crossed_executes_other :
    ∃ s ∈ run (step sampleConnection) start crossed,
      s.confirmed = [⟨1, .C_SC_NA_1, 100, .singleCommand true false 0⟩] ∧
      s.executed = [⟨1, .C_SC_NA_1, 100, .singleCommand false false 0⟩] ∧ ¬ Answered s := by
  have hrun : (run (step sampleConnection) start crossed).map (fun s =>
      (s.confirmed, s.executed, s.answering)) =
        some ([⟨1, .C_SC_NA_1, 100, .singleCommand true false 0⟩],
          [⟨1, .C_SC_NA_1, 100, .singleCommand false false 0⟩], none) := by
    decide +kernel
  obtain ⟨s, hs, hfields⟩ := Option.map_eq_some_iff.mp hrun
  obtain ⟨hconf, hrest⟩ := Prod.mk.inj hfields
  obtain ⟨hexec, hans⟩ := Prod.mk.inj hrest
  refine ⟨s, hs, hconf, hexec, fun h => ?_⟩
  have horder := h.inOrder
  rw [hconf, hexec, hans] at horder
  exact absurd horder (by decide)

end Example

end JsonScada.System.ClientSelect
