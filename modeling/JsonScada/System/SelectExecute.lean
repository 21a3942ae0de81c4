/- path: JsonScada/System/SelectExecute
   source: src/lib60870.netcore/iec104server/AsduReceiveHandler.cs, LastPointKeySelectedOk
   digest: Clients of all server connections share one memory of the selected point. -/

import JsonScada.Lib.Machine
import JsonScada.Iec104Server.Command

set_option autoImplicit false
set_option relaxedAutoImplicit false

namespace JsonScada.System.SelectExecute

open JsonScada.Lib.Machine JsonScada.Lib.Binary64
open JsonScada.Iec104.Types JsonScada.Iec104Server.Command

universe u
variable {ι : Type u} [DecidableEq ι]

/-- A control command of a client as the handler dealt with it: the key of the point it
found, whether it was a select or a cancel, whether the destination of the point asks
for a select, whether it was confirmed as a select, and the command it queued. -/
structure Handled where
  point : Option ℤ
  select : Bool
  cancel : Bool
  sbo : Bool
  confirmed : Bool := false
  queued : Option RtCommand := none
  deriving DecidableEq

/-- Where the handler thread of a client stands: waiting, about to compare the memory
with the point, or about to assign the memory and queue a command. -/
inductive Phase where
  | idle
  | compare (pointKey : ℤ) (entry : Option Handled) (command : Option RtCommand)
  | assign (value : ℤ) (entry : Option Handled) (command : Option RtCommand)
  deriving DecidableEq

/-- The memory and the queue all handlers share; for the trace, the control commands
each client sent and which of them last assigned the memory. -/
structure State (ι : Type u) where
  LastPointKeySelectedOk : ℤ
  commandsQueue : List RtCommand
  phase : ι → Phase
  log : ι → List Handled
  writer : Option (ι × ℕ)

def start : State ι :=
  { LastPointKeySelectedOk := 0, commandsQueue := [], phase := fun _ => .idle,
    log := fun _ => [], writer := none }

/-- A client's ASDU arrives at its handler, and the handler's next access to the memory. -/
inductive Label (ι : Type u) where
  | receive (client : ι) (call : Call) (asdu : Asdu)
  | access (client : ι)
  deriving DecidableEq

variable (server : ι → Server)

/-- What is logged of an ASDU when it is received; other types than control commands
are not. -/
def entryOf (srv : Server) (call : Call) (a : Asdu) : Option Handled :=
  if a.typeId.isControl then
    some {
      point := (commandPoint srv call a).map (·._id)
      select := a.select
      cancel := a.cancel
      sbo := (commandPoint srv call a).any fun p =>
        (ownDestination srv p).any (·.protocolDestinationCommandUseSBO) || addressedSbo srv a p }
  else none

def phaseOf (entry : Option Handled) : Verdict → Phase
  | .ignored => .idle
  | .reset => .assign 0 entry none
  | .selected pointKey =>
    .assign pointKey (entry.map fun e => { e with confirmed := true }) none
  | .execute pointKey dstsbo command =>
    if dstsbo then .compare pointKey entry command
    else .assign 0 (entry.map fun e => { e with queued := command }) command

/-- The log of a client grows by what was logged of its ASDU. -/
def record (log : ι → List Handled) (c : ι) (entry : Option Handled) : ι → List Handled :=
  Function.update log c (log c ++ entry.toList)

def step (s : State ι) : Label ι → Option (State ι)
  | .receive c call a =>
    match s.phase c with
    | .idle =>
      let entry := entryOf (server c) call a
      let verdict := AsduReceivedHandler (server c) call a
      some { s with
        phase := Function.update s.phase c (phaseOf entry verdict)
        log := if verdict = .ignored then record s.log c entry else s.log }
    | _ => none
  | .access c =>
    match s.phase c with
    | .idle => none
    | .compare pointKey entry command =>
      some { s with
        phase := Function.update s.phase c
          (if s.LastPointKeySelectedOk = pointKey then
            .assign 0 (entry.map fun e => { e with queued := command }) command
          else .assign 0 entry none) }
    | .assign value entry command =>
      some { s with
        LastPointKeySelectedOk := value
        commandsQueue := s.commandsQueue ++ command.toList
        phase := Function.update s.phase c .idle
        log := record s.log c entry
        writer := entry.map fun _ => (c, (s.log c).length) }

/-- The command at index `k` is a confirmed select of the point of the command that
comes right after it. -/
def AuthorisedBy (log : List Handled) (k i : ℕ) : Prop :=
  k + 1 = i ∧ ∃ a b, log[k]? = some a ∧ log[i]? = some b ∧ a.select = true ∧
    a.cancel = false ∧ a.confirmed = true ∧ a.point.isSome = true ∧ a.point = b.point

/-- Every execute queued for a point that asks for a select was authorised by the
control command before it, and no select authorises two. -/
def SafeLog (log : List Handled) : Prop :=
  (∀ (i : ℕ) (b : Handled), log[i]? = some b → b.queued.isSome = true → b.sbo = true →
      ∃ k, AuthorisedBy log k i) ∧
    ∀ k i j, AuthorisedBy log k i → AuthorisedBy log k j → i = j

/-- When a handler finds its point in the memory, the key is not that of the empty
memory, and the client's own control command before this one, no cancel, assigned it. -/
def OwnSelection (s : State ι) (c : ι) (pointKey : ℤ) : Prop :=
  s.LastPointKeySelectedOk = pointKey →
    pointKey ≠ 0 ∧ ∃ n ∈ s.writer.toList, n.1 = c ∧ n.2 + 1 = (s.log c).length ∧
      ∀ e ∈ (s.log c)[n.2]?, e.cancel = false

/-- The verdict executes without a look at the memory. -/
def unguarded : Verdict → Bool
  | .execute _ dstsbo _ => !dstsbo
  | _ => false

/-- Where the first destination of the point asks for no select, the one addressed does
not ask for one either. -/
def OwnSbo (srv : Server) (call : Call) (a : Asdu) : Prop :=
  unguarded (AsduReceivedHandler srv call a) = true → ∀ e ∈ entryOf srv call a, e.sbo = false

/-- The key the handler is about to compare with the memory. -/
def compared : Phase → Option ℤ
  | .compare pointKey _ _ => some pointKey
  | _ => none

/-- The condition on the steps of a run. -/
def Separate (s : State ι) : Label ι → Prop
  | .receive c call a => OwnSbo (server c) call a
  | .access c => ∀ pointKey ∈ compared (s.phase c), OwnSelection s c pointKey

instance (s : State ι) (c : ι) (pointKey : ℤ) : Decidable (OwnSelection s c pointKey) := by
  unfold OwnSelection; infer_instance

instance (srv : Server) (call : Call) (a : Asdu) : Decidable (OwnSbo srv call a) := by
  unfold OwnSbo; infer_instance

instance (s : State ι) (a : Label ι) : Decidable (Separate server s a) := by
  cases a <;> unfold Separate <;> infer_instance

theorem AuthorisedBy.append {log more : List Handled} {k i : ℕ} (h : AuthorisedBy log k i) :
    AuthorisedBy (log ++ more) k i := by
  obtain ⟨hk, a, b, ha, hb, hrest⟩ := h
  have hgrow : ∀ {n : ℕ} {e : Handled}, log[n]? = some e → (log ++ more)[n]? = some e := by
    intro n e he
    obtain ⟨hlt, -⟩ := List.getElem?_eq_some_iff.mp he
    rw [List.getElem?_append_left hlt]
    exact he
  exact ⟨hk, a, b, hgrow ha, hgrow hb, hrest⟩

/-- No select authorises two executes. -/
theorem authorisedBy_unique {log : List Handled} {k i j : ℕ} (hi : AuthorisedBy log k i)
    (hj : AuthorisedBy log k j) : i = j :=
  hi.1.symm.trans hj.1

/-- A command may be logged as queued: its point asks for no select, or the command
before it is the select. -/
def Backed (log : List Handled) (e : Handled) : Prop :=
  e.queued.isSome = true → e.sbo = true → ∃ k, AuthorisedBy (log ++ [e]) k log.length

/-- The command is a confirmed select of the point with this key. -/
def Selects (e : Handled) (pointKey : ℤ) : Prop :=
  e.select = true ∧ e.confirmed = true ∧ e.point = some pointKey

/-- What a handler at work has found out. -/
def PhaseOk (log : List Handled) : Phase → Prop
  | .idle => True
  | .compare pointKey entry _ => ∀ e ∈ entry, e.point = some pointKey ∧ e.queued = none
  | .assign value entry _ =>
    (entry = none → value = 0) ∧ ∀ e ∈ entry, (value ≠ 0 → Selects e value) ∧ Backed log e

structure Inv (s : State ι) : Prop where
  unwritten : s.writer = none → s.LastPointKeySelectedOk = 0
  written : ∀ c n, s.writer = some (c, n) → ∃ e, (s.log c)[n]? = some e ∧
    (s.LastPointKeySelectedOk ≠ 0 → Selects e s.LastPointKeySelectedOk)
  phases : ∀ c, PhaseOk (s.log c) (s.phase c)
  logs : ∀ c i b, (s.log c)[i]? = some b → b.queued.isSome = true → b.sbo = true →
    ∃ k, AuthorisedBy (s.log c) k i

omit [DecidableEq ι] in
theorem inv_start : Inv (start : State ι) where
  unwritten := fun _ => rfl
  written := by intro c n h; cases h
  phases := fun _ => trivial
  logs := by intro c i b h; cases h

theorem backed_of_unqueued {log : List Handled} {e : Handled} (h : e.queued = none) :
    Backed log e := by
  intro hq
  rw [h] at hq
  cases hq

theorem entryOf_eq_some {srv : Server} {call : Call} {a : Asdu} {e : Handled}
    (h : entryOf srv call a = some e) :
    a.typeId.isControl = true ∧ e.point = (commandPoint srv call a).map (·._id) ∧
      e.select = a.select ∧ e.queued = none := by
  unfold entryOf at h
  by_cases hc : a.typeId.isControl = true
  · rw [if_pos hc] at h
    obtain rfl := Option.some.inj h
    exact ⟨hc, rfl, rfl, rfl⟩
  · rw [if_neg hc] at h
    cases h

/-- The phase an ASDU puts its handler into. -/
theorem phaseOk_receive (log : List Handled) {srv : Server} {call : Call} {a : Asdu}
    (hsbo : OwnSbo srv call a) :
    PhaseOk log (phaseOf (entryOf srv call a) (AsduReceivedHandler srv call a)) := by
  rcases verdict_cases srv call a with hv | hv | ⟨p, hp, ⟨hv, hsel, hctl⟩ | ⟨dstsbo, command, hv⟩⟩
  · rw [hv]
    trivial
  · rw [hv]
    refine ⟨fun _ => rfl, fun e he => ⟨fun h => absurd rfl h, ?_⟩⟩
    exact backed_of_unqueued (entryOf_eq_some he).2.2.2
  · rw [hv]
    refine ⟨fun hnone => ?_, fun e he => ?_⟩
    · simp [entryOf, hctl] at hnone
    · obtain ⟨e₀, he₀, rfl⟩ := Option.map_eq_some_iff.mp he
      obtain ⟨-, hpoint, hselect, hqueued⟩ := entryOf_eq_some he₀
      refine ⟨fun _ => ⟨hselect.trans hsel, rfl, ?_⟩, backed_of_unqueued hqueued⟩
      rw [hpoint, hp]
      rfl
  · rw [hv]
    cases dstsbo with
    | true =>
      intro e he
      obtain ⟨-, hpoint, -, hqueued⟩ := entryOf_eq_some he
      rw [hpoint, hp]
      exact ⟨rfl, hqueued⟩
    | false =>
      refine ⟨fun _ => rfl, fun e he => ⟨fun h => absurd rfl h, fun _ hs => ?_⟩⟩
      obtain ⟨e₀, he₀, rfl⟩ := Option.map_eq_some_iff.mp he
      have hno : e₀.sbo = false := hsbo (by rw [hv]; rfl) e₀ he₀
      rw [hno] at hs
      cases hs

theorem record_of_ne {log : ι → List Handled} {c d : ι} {entry : Option Handled} (h : d ≠ c) :
    record log c entry d = log d :=
  Function.update_of_ne h _ _

theorem record_self (log : ι → List Handled) (c : ι) (entry : Option Handled) :
    record log c entry c = log c ++ entry.toList :=
  Function.update_self _ _ _

theorem getElem?_record {log : ι → List Handled} {c d : ι} {entry : Option Handled} {n : ℕ}
    {e : Handled} (h : (log d)[n]? = some e) : (record log c entry d)[n]? = some e := by
  by_cases hd : d = c
  · subst hd
    obtain ⟨hlt, -⟩ := List.getElem?_eq_some_iff.mp h
    rw [record_self, List.getElem?_append_left hlt]
    exact h
  · rw [record_of_ne hd]
    exact h

/-- Logging a command that may be logged as queued keeps the logs safe. -/
theorem logs_record {log : ι → List Handled} {c : ι} {entry : Option Handled}
    (hlog : ∀ c i b, (log c)[i]? = some b → b.queued.isSome = true → b.sbo = true →
      ∃ k, AuthorisedBy (log c) k i)
    (hentry : ∀ e ∈ entry, Backed (log c) e) (d : ι) (i : ℕ) (b : Handled)
    (hb : (record log c entry d)[i]? = some b) (hq : b.queued.isSome = true)
    (hsbo : b.sbo = true) : ∃ k, AuthorisedBy (record log c entry d) k i := by
  by_cases hd : d = c
  · subst hd
    rw [record_self] at hb ⊢
    by_cases hi : i < (log d).length
    · rw [List.getElem?_append_left hi] at hb
      obtain ⟨k, hk⟩ := hlog d i b hb hq hsbo
      exact ⟨k, hk.append⟩
    · rw [List.getElem?_append_right (Nat.le_of_not_lt hi)] at hb
      cases entry with
      | none => cases hb
      | some e =>
        obtain ⟨hlast, hval⟩ := List.getElem?_eq_some_iff.mp hb
        have hlen : i = (log d).length := by
          simp only [Option.toList_some, List.length_singleton] at hlast
          omega
        subst hlen
        obtain rfl : e = b := by simpa using hval
        exact hentry e rfl hq hsbo
  · rw [record_of_ne hd] at hb ⊢
    exact hlog d i b hb hq hsbo

/-- The handlers of the other clients do not notice. -/
theorem phases_update {log : ι → List Handled} {phase : ι → Phase} {c : ι} {p : Phase}
    {entry : Option Handled} (hphase : ∀ d, PhaseOk (log d) (phase d))
    (hp : PhaseOk (record log c entry c) p) (d : ι) :
    PhaseOk (record log c entry d) (Function.update phase c p d) := by
  by_cases hd : d = c
  · subst hd
    rw [Function.update_self]
    exact hp
  · rw [Function.update_of_ne hd, record_of_ne hd]
    exact hphase d

theorem record_none (log : ι → List Handled) (c : ι) : record log c none = log := by
  unfold record
  rw [Option.toList_none, List.append_nil, Function.update_eq_self]

theorem inv_receive {s t : State ι} {c : ι} {call : Call} {a : Asdu} (hs : Inv s)
    (hsbo : OwnSbo (server c) call a) (h : step server s (.receive c call a) = some t) :
    Inv t := by
  simp only [step] at h
  split at h
  · obtain rfl := Option.some.inj h
    by_cases hv : AsduReceivedHandler (server c) call a = .ignored
    · simp only [hv, if_true]
      have hentry : ∀ e ∈ entryOf (server c) call a, Backed (s.log c) e := fun e he =>
        backed_of_unqueued (entryOf_eq_some he).2.2.2
      refine ⟨hs.unwritten, fun d n hw => ?_, phases_update hs.phases trivial,
        logs_record hs.logs hentry⟩
      obtain ⟨e, he, hsel⟩ := hs.written d n hw
      exact ⟨e, getElem?_record he, hsel⟩
    · simp only [hv, if_false]
      refine ⟨hs.unwritten, hs.written, fun d => ?_, hs.logs⟩
      have hok := @phases_update _ _ _ _ c _ none hs.phases
        (phaseOk_receive (record s.log c none c) hsbo) d
      rw [record_none] at hok
      exact hok
  · cases h

theorem inv_access {s t : State ι} {c : ι} (hs : Inv s) (hown : Separate server s (.access c))
    (h : step server s (.access c) = some t) : Inv t := by
  have hphase := hs.phases c
  simp only [step] at h
  split at h
  · cases h
  · rename_i pointKey entry command hc
    rw [hc] at hphase
    have hsel : OwnSelection s c pointKey := hown pointKey (by rw [hc]; rfl)
    obtain rfl := Option.some.inj h
    refine ⟨hs.unwritten, hs.written, fun d => ?_, hs.logs⟩
    have hok : PhaseOk (s.log c) (if s.LastPointKeySelectedOk = pointKey then
        .assign 0 (entry.map fun e => { e with queued := command }) command
        else .assign 0 entry none) := by
      by_cases hkey : s.LastPointKeySelectedOk = pointKey
      · -- the memory was assigned by the client's command before this one
        rw [if_pos hkey]
        obtain ⟨hne, n, hn, rfl, hlen, hcancel⟩ := hsel hkey
        have hw : s.writer = some (n.1, n.2) := Option.mem_toList.mp hn
        obtain ⟨prev, hprev, hselects⟩ := hs.written n.1 n.2 hw
        obtain ⟨hselect, hconf, hpoint⟩ := hselects (by rw [hkey]; exact hne)
        refine ⟨fun _ => rfl, fun e he => ⟨fun h => absurd rfl h, fun _ _ => ?_⟩⟩
        obtain ⟨e₀, he₀, rfl⟩ := Option.map_eq_some_iff.mp he
        obtain ⟨hlt, -⟩ := List.getElem?_eq_some_iff.mp hprev
        refine ⟨n.2, hlen, prev, { e₀ with queued := command }, ?_, ?_, hselect,
          hcancel prev hprev, hconf, ?_, ?_⟩
        · rw [List.getElem?_append_left hlt]
          exact hprev
        · exact List.getElem?_concat_length
        · rw [hpoint]
          rfl
        · rw [hpoint, (hphase e₀ he₀).1, hkey]
      · rw [if_neg hkey]
        refine ⟨fun _ => rfl, fun e he => ⟨fun h => absurd rfl h, ?_⟩⟩
        exact backed_of_unqueued (hphase e he).2
    have hupd := @phases_update _ _ _ _ c _ none hs.phases (by rw [record_none]; exact hok) d
    rw [record_none] at hupd
    exact hupd
  · rename_i value entry command hc
    rw [hc] at hphase
    obtain ⟨hnone, hsome⟩ := hphase
    obtain rfl := Option.some.inj h
    refine ⟨fun hw => ?_, fun d n hw => ?_, phases_update hs.phases trivial,
      logs_record hs.logs fun e he => (hsome e he).2⟩
    · exact hnone (Option.map_eq_none_iff.mp hw)
    · obtain ⟨e, he, hpair⟩ := Option.map_eq_some_iff.mp hw
      obtain ⟨rfl, rfl⟩ := Prod.mk.inj hpair
      subst he
      refine ⟨e, ?_, (hsome e rfl).1⟩
      show (record s.log c (some e) c)[(s.log c).length]? = some e
      rw [record_self]
      exact List.getElem?_concat_length

/-- In every run of the handlers whose steps meet the condition, each execute queued
for a point that asks for a select comes right after a confirmed select of that point
by the same client, and no select authorises two. -/
theorem execute_after_select {labels : List (Label ι)} {s : State ι}
    (hsep : Every (step server) (Separate server) start labels)
    (hv : Visits (step server) start labels s) (c : ι) : SafeLog (s.log c) := by
  have hinv : Inv s := by
    refine visits_invariant ?_ hsep inv_start hv
    intro s a t hp hs h
    cases a with
    | receive c call a => exact inv_receive server hs hp h
    | access c => exact inv_access server hs hp h
  exact ⟨hinv.logs c, fun k i j => authorisedBy_unique⟩

section Example

def sampleServer (_ : ℕ) : Server := { protocolConnectionNumber := 1 }

/-- A single command behind a select. -/
def samplePoint : RtData :=
  { _id := 7, tag := "KAW2XCBR", origin := "command", protocolSourceASDU := .fin 45,
    protocolDestinations := [
      { protocolDestinationConnectionNumber := .fin 1, protocolDestinationCommonAddress := .fin 1,
        protocolDestinationObjectAddress := .fin 100, protocolDestinationASDU := .fin 45,
        protocolDestinationCommandUseSBO := true }] }

def sampleCommand (client : ℕ) (select : Bool) : Label ℕ :=
  .receive client { documents := some [samplePoint] }
    { typeId := .C_SC_NA_1, ca := 1, objectAddress := 100, select := select, state := 1 }

def ownSelect : List (Label ℕ) :=
  [sampleCommand 0 true, .access 0, sampleCommand 0 false, .access 0, .access 0]

def foreignSelect : List (Label ℕ) :=
  [sampleCommand 0 true, .access 0, sampleCommand 1 false, .access 1, .access 1]

theorem execute_after_own_select :
    ∃ s ∈ run (step sampleServer) start ownSelect,
      s.commandsQueue.length = 1 ∧ SafeLog (s.log 0) := by
  have hqueue : (run (step sampleServer) start ownSelect).map (·.commandsQueue.length) = some 1 := by
    decide +kernel
  obtain ⟨s, hs, hlen⟩ := Option.map_eq_some_iff.mp hqueue
  exact ⟨s, hs, hlen, execute_after_select sampleServer (by decide +kernel)
    ⟨_, List.prefix_rfl, hs⟩ 0⟩

/-- One client selects, and the execute of another client is queued. -/
theorem foreign_select_executes :
    ∃ s ∈ run (step sampleServer) start foreignSelect,
      s.commandsQueue.length = 1 ∧ ¬ SafeLog (s.log 1) := by
  have hqueue : (run (step sampleServer) start foreignSelect).map (fun s =>
      (s.commandsQueue.length, (s.log 1).map fun b => (b.queued.isSome, b.sbo))) =
        some (1, [(true, true)]) := by
    decide +kernel
  obtain ⟨s, hs, hpair⟩ := Option.map_eq_some_iff.mp hqueue
  obtain ⟨hlen, hlog⟩ := Prod.mk.inj hpair
  refine ⟨s, hs, hlen, fun hsafe => ?_⟩
  obtain ⟨b, hb, hfields⟩ := List.map_eq_singleton_iff.mp hlog
  obtain ⟨hq, hsbo⟩ := Prod.mk.inj hfields
  obtain ⟨k, hk, -⟩ := hsafe.1 0 b (by rw [hb]; rfl) hq hsbo
  omega

end Example

end JsonScada.System.SelectExecute
