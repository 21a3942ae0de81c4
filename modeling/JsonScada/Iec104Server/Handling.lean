/- path: JsonScada/Iec104Server/Handling
   source: src/lib60870.netcore/iec104server/AsduReceiveHandler.cs, AsduReceivedHandler
   digest: The confirmations that the handler sends, and the commands that it inserts. -/

import JsonScada.Iec104Server.Command

set_option autoImplicit false
set_option relaxedAutoImplicit false

namespace JsonScada.Iec104Server.Handling

open JsonScada.Lib.Binary64 JsonScada.Lib.DotNet
open JsonScada.Iec104.Types JsonScada.Iec104Server.Command

/-- The confirmations sent, each with its negative flag, and the commands inserted. -/
structure Handled where
  confirmations : List Bool := []
  inserted : List RtCommand := []
  deriving DecidableEq

/-- What the handler finds when it compares the memory: the point selected last, and
whether a confirmation can be sent then. -/
structure Comparison where
  LastPointKeySelectedOk : ℤ
  connected : Bool := true
  deriving DecidableEq

/-- `SendACT_CON(asdu, negative)`, which throws when the connection is not active. -/
def SendACT_CON (call : Call) (negative : Bool) (v : Verdict) : List Bool × Verdict :=
  if call.connected then ([negative], v) else ([], .ignored)

/-- The handler up to its look at the memory: what it confirmed so far, and what is left. -/
def confirm (srv : Server) (call : Call) (a : Asdu) : List Bool × Verdict :=
  if !call.isMongoLive || !call.readable then ([], .ignored)
  else match readAsdu a with
  | .testCommand => SendACT_CON call false .ignored
  | .clockSync => SendACT_CON call false .reset
  | .invalidState | .notImplemented => SendACT_CON call true .reset
  | .command isselect dur val cmdtime =>
    match call.documents with
    | none => ([], .ignored)
    | some documents =>
      match documents.find? (commandFilter srv a) with
      | none => SendACT_CON call true .reset
      | some p =>
        match ownDestination srv p with
        | none => SendACT_CON call true .reset
        | some d =>
          let dstsbo := d.protocolDestinationCommandUseSBO
          if a.typeId = .C_RD_NA_1 then SendACT_CON call false .ignored
          else if isselect && !dstsbo then SendACT_CON call true .reset
          else if dur ≠ toInt32 d.protocolDestinationCommandDuration then
            SendACT_CON call true .reset
          else if toInt32 p.protocolSourceASDU = 0 then SendACT_CON call true .reset
          else if cmdtime.any fun t => timeToExpireCommandsWithTime * 1000 < call.now - t then
            SendACT_CON call true .reset
          else if isselect then SendACT_CON call false (.selected p._id)
          else SendACT_CON call false (.execute p._id dstsbo
            (if call.inserts then sourceCommand srv a p d val call.now else none))

/-- An execute of a point that asks for a select, and is not the one selected, is answered
once more; any other is inserted. -/
def execute (c : Comparison) : Verdict → Handled
  | .execute pointKey dstsbo command =>
    if dstsbo ∧ c.LastPointKeySelectedOk ≠ pointKey then
      { confirmations := if c.connected then [true] else [] }
    else { inserted := command.toList }
  | _ => {}

def handle (srv : Server) (call : Call) (c : Comparison) (a : Asdu) : Handled :=
  let (confirmations, verdict) := confirm srv call a
  let rest := execute c verdict
  { rest with confirmations := confirmations ++ rest.confirmations }

/-- No confirmation is sent: the database does not answer, the element cannot be read, the
connection is not active, or the query for the point fails. -/
def Silent (call : Call) (a : Asdu) : Prop :=
  call.isMongoLive = false ∨ call.readable = false ∨ call.connected = false ∨
    (call.documents = none ∧ ∃ isselect dur val cmdtime,
      readAsdu a = .command isselect dur val cmdtime)

/-- An execute: a command that is neither a select nor a read. -/
def IsExecute (a : Asdu) : Prop :=
  a.typeId ≠ .C_RD_NA_1 ∧ ∃ dur val cmdtime, readAsdu a = .command false dur val cmdtime

/-- An execute of a point of the connection that passes the checks of the destination, in
time. -/
structure Executes (srv : Server) (call : Call) (a : Asdu) (p : RtData) (d : Destination)
    (val : Number) : Prop where
  notRead : a.typeId ≠ .C_RD_NA_1
  found : commandPoint srv call a = some p
  own : ownDestination srv p = some d
  source : toInt32 p.protocolSourceASDU ≠ 0
  reading : ∃ cmdtime : Option ℤ,
    readAsdu a = .command false (toInt32 d.protocolDestinationCommandDuration) val cmdtime ∧
      ∀ t ∈ cmdtime, call.now - t ≤ timeToExpireCommandsWithTime * 1000

theorem SendACT_CON_snd (call : Call) (negative : Bool) (v : Verdict) :
    (SendACT_CON call negative v).2 = answer call v := by
  unfold SendACT_CON answer
  cases call.connected <;> rfl

theorem SendACT_CON_of_connected {call : Call} (h : call.connected = true) (negative : Bool)
    (v : Verdict) : SendACT_CON call negative v = ([negative], v) := by
  rw [SendACT_CON, if_pos h]

/-- The verdict is that of the handler. -/
theorem confirm_snd (srv : Server) (call : Call) (a : Asdu) :
    (confirm srv call a).2 = AsduReceivedHandler srv call a := by
  have hignored : answer call .ignored = .ignored := by rw [answer, ite_self]
  unfold confirm AsduReceivedHandler
  by_cases hlive : (!call.isMongoLive || !call.readable) = true
  · rw [if_pos hlive, if_pos hlive]
  rw [if_neg hlive, if_neg hlive]
  cases readAsdu a with
  | command isselect dur val cmdtime =>
    cases call.documents with
    | none => rfl
    | some documents =>
      dsimp only
      cases documents.find? (commandFilter srv a) with
      | none => exact SendACT_CON_snd call true .reset
      | some p =>
        dsimp only
        cases ownDestination srv p with
        | none => exact SendACT_CON_snd call true .reset
        | some d => simp only [apply_ite Prod.snd, SendACT_CON_snd, hignored]
  | _ => simp only [SendACT_CON_snd, hignored]

theorem confirm_of_silent {srv : Server} {call : Call} {a : Asdu} (h : Silent call a) :
    confirm srv call a = ([], .ignored) := by
  unfold confirm
  by_cases hlive : (!call.isMongoLive || !call.readable) = true
  · rw [if_pos hlive]
  rw [if_neg hlive]
  rcases h with h | h | h | ⟨hdocs, isselect, dur, val, cmdtime, hread⟩
  · simp [h] at hlive
  · simp [h] at hlive
  · have hsend : ∀ negative v, SendACT_CON call negative v = ([], .ignored) := by
      intro negative v
      rw [SendACT_CON, h, if_neg Bool.false_ne_true]
    simp only [hsend, ite_self]
    repeat' split
    all_goals rfl
  · rw [hread, hdocs]

theorem Executes.isExecute {srv : Server} {call : Call} {a : Asdu} {p : RtData}
    {d : Destination} {val : Number} (h : Executes srv call a p d val) : IsExecute a := by
  obtain ⟨cmdtime, hread, -⟩ := h.reading
  exact ⟨h.notRead, _, val, cmdtime, hread⟩

theorem Executes.unique {srv : Server} {call : Call} {a : Asdu} {p q : RtData} {d e : Destination}
    {v w : Number} (h : Executes srv call a p d v) (h' : Executes srv call a q e w) :
    p = q ∧ d = e ∧ v = w := by
  obtain rfl : p = q := Option.some.inj (h.found.symm.trans h'.found)
  obtain rfl : d = e := Option.some.inj (h.own.symm.trans h'.own)
  obtain ⟨time, hread, -⟩ := h.reading
  obtain ⟨time', hread', -⟩ := h'.reading
  cases hread.symm.trans hread'
  exact ⟨rfl, rfl, rfl⟩

section Confirmed

variable {srv : Server} {call : Call} {a : Asdu} {out : List Bool × Verdict}

/-- One confirmation of an element of which nothing is executed; a positive one is not of an
execute. -/
def Refused (srv : Server) (call : Call) (a : Asdu) (out : List Bool × Verdict) : Prop :=
  (∀ p d val, ¬Executes srv call a p d val) ∧
    ∃ negative v, out = ([negative], v) ∧ (∀ c, execute c v = {}) ∧
      (negative = false → ¬IsExecute a)

/-- The confirmation of an execute, whose command is to be inserted. -/
def Accepted (srv : Server) (call : Call) (a : Asdu) (out : List Bool × Verdict) : Prop :=
  ∃ p d val, Executes srv call a p d val ∧
    out = ([false], .execute p._id d.protocolDestinationCommandUseSBO
      (if call.inserts then sourceCommand srv a p d val call.now else none))

theorem refused_of_negative (hout : ([true], .reset) = out)
    (hnone : ∀ p d val, ¬Executes srv call a p d val) : Refused srv call a out :=
  ⟨hnone, true, .reset, hout.symm, fun _ => rfl, nofun⟩

theorem refused_of_not_isExecute {negative : Bool} {v : Verdict} (hout : ([negative], v) = out)
    (hv : ∀ c, execute c v = {}) (h : ¬IsExecute a) : Refused srv call a out :=
  ⟨fun _ _ _ hex => h hex.isExecute, negative, v, hout.symm, hv, fun _ => h⟩

theorem not_silent (hs : ¬Silent call a) :
    call.isMongoLive = true ∧ call.readable = true ∧ call.connected = true :=
  ⟨Bool.not_eq_false _ ▸ fun h => hs (.inl h),
    Bool.not_eq_false _ ▸ fun h => hs (.inr (.inl h)),
    Bool.not_eq_false _ ▸ fun h => hs (.inr (.inr (.inl h)))⟩

/-- An element that is no command. -/
theorem confirm_element (hs : ¬Silent call a)
    (hread : ∀ isselect dur val cmdtime, readAsdu a ≠ .command isselect dur val cmdtime)
    (hout : confirm srv call a = out) : Refused srv call a out := by
  obtain ⟨hlive, hreadable, hconn⟩ := not_silent hs
  have hexecute : ¬IsExecute a := by
    rintro ⟨-, dur, val, cmdtime, h⟩
    exact hread false dur val cmdtime h
  simp only [confirm, hlive, hreadable, SendACT_CON_of_connected hconn, Bool.not_true,
    Bool.or_self, Bool.false_eq_true, if_false] at hout
  cases hr : readAsdu a with
  | command isselect dur val cmdtime => exact absurd hr (hread isselect dur val cmdtime)
  | _ =>
    rw [hr] at hout
    exact refused_of_not_isExecute hout (fun _ => rfl) hexecute

variable {isselect : Bool} {dur : ℤ} {val : Number} {cmdtime : Option ℤ}

/-- A command of no point, or of a point that is not of the connection. -/
theorem confirm_unaddressed (hs : ¬Silent call a)
    (hr : readAsdu a = .command isselect dur val cmdtime)
    (hnone : (commandPoint srv call a).bind (ownDestination srv) = none)
    (hout : confirm srv call a = out) : Refused srv call a out := by
  obtain ⟨hlive, hreadable, hconn⟩ := not_silent hs
  simp only [confirm, hr, hlive, hreadable, SendACT_CON_of_connected hconn, Bool.not_true,
    Bool.or_self, Bool.false_eq_true, if_false] at hout
  have hexecutes : ∀ p d v, ¬Executes srv call a p d v := by
    intro p d v hex
    rw [hex.found, Option.bind_some, hex.own] at hnone
    cases hnone
  cases hdocs : call.documents with
  | none => exact absurd (.inr (.inr (.inr ⟨hdocs, _, _, _, _, hr⟩))) hs
  | some documents =>
    rw [commandPoint, hdocs, Option.bind_some] at hnone
    simp only [hdocs] at hout
    cases hp : documents.find? (commandFilter srv a) with
    | none =>
      rw [hp] at hout
      exact refused_of_negative hout hexecutes
    | some p =>
      rw [hp, Option.bind_some] at hnone
      simp only [hp, hnone] at hout
      exact refused_of_negative hout hexecutes

/-- A command of a point of the connection goes through the checks of its destination. -/
theorem confirm_addressed {p : RtData} {d : Destination} (hs : ¬Silent call a)
    (hr : readAsdu a = .command isselect dur val cmdtime)
    (hp : commandPoint srv call a = some p) (hd : ownDestination srv p = some d)
    (hout : confirm srv call a = out) : Refused srv call a out ∨ Accepted srv call a out := by
  obtain ⟨hlive, hreadable, hconn⟩ := not_silent hs
  obtain ⟨documents, hdocs, hfind⟩ := Option.bind_eq_some_iff.mp hp
  simp only [confirm, hr, hdocs, hfind, hd, hlive, hreadable, SendACT_CON_of_connected hconn,
    Bool.not_true, Bool.or_self, Bool.false_eq_true, if_false] at hout
  -- what an execute would be of
  have hexec : ∀ q e v, Executes srv call a q e v → p = q ∧ d = e ∧ isselect = false ∧
      dur = toInt32 d.protocolDestinationCommandDuration ∧
      ∀ t ∈ cmdtime, call.now - t ≤ timeToExpireCommandsWithTime * 1000 := by
    intro q e v hex
    obtain rfl : p = q := Option.some.inj (hp.symm.trans hex.found)
    obtain rfl : d = e := Option.some.inj (hd.symm.trans hex.own)
    obtain ⟨time, hread, htime⟩ := hex.reading
    cases hr.symm.trans hread
    exact ⟨rfl, rfl, rfl, rfl, htime⟩
  by_cases h1 : a.typeId = .C_RD_NA_1
  · rw [if_pos h1] at hout
    exact .inl (refused_of_not_isExecute hout (fun _ => rfl) fun h => h.1 h1)
  rw [if_neg h1] at hout
  by_cases h2 : (isselect && !d.protocolDestinationCommandUseSBO) = true
  · rw [if_pos h2] at hout
    refine .inl (refused_of_negative hout fun q e v hex => ?_)
    obtain ⟨-, -, hselect, -⟩ := hexec q e v hex
    simp [hselect] at h2
  rw [if_neg h2] at hout
  by_cases h3 : dur ≠ toInt32 d.protocolDestinationCommandDuration
  · rw [if_pos h3] at hout
    refine .inl (refused_of_negative hout fun q e v hex => ?_)
    exact h3 (hexec q e v hex).2.2.2.1
  rw [if_neg h3] at hout
  by_cases h4 : toInt32 p.protocolSourceASDU = 0
  · rw [if_pos h4] at hout
    refine .inl (refused_of_negative hout fun q e v hex => ?_)
    obtain ⟨rfl, -⟩ := hexec q e v hex
    exact hex.source h4
  rw [if_neg h4] at hout
  have hlate : (cmdtime.any fun t => timeToExpireCommandsWithTime * 1000 < call.now - t) =
      false ↔ ∀ t ∈ cmdtime, call.now - t ≤ timeToExpireCommandsWithTime * 1000 := by
    cases cmdtime <;> simp
  by_cases h5 : (cmdtime.any fun t => timeToExpireCommandsWithTime * 1000 < call.now - t) = true
  · rw [if_pos h5] at hout
    refine .inl (refused_of_negative hout fun q e v hex => ?_)
    rw [hlate.mpr (hexec q e v hex).2.2.2.2] at h5
    cases h5
  rw [if_neg h5] at hout
  by_cases h6 : isselect = true
  · rw [if_pos h6] at hout
    refine .inl (refused_of_not_isExecute hout (fun _ => rfl) ?_)
    rintro ⟨-, dur', val', cmdtime', hread⟩
    cases hr.symm.trans hread
    cases h6
  · rw [if_neg h6] at hout
    refine .inr ⟨p, d, val, ?_, hout.symm⟩
    obtain rfl : isselect = false := Bool.not_eq_true _ ▸ h6
    refine ⟨h1, hp, hd, h4, cmdtime, ?_, hlate.mp (Bool.not_eq_true _ ▸ h5)⟩
    rw [hr, not_not.mp h3]

end Confirmed

/-- What the handler confirms before its look at the memory. -/
theorem confirm_cases (srv : Server) (call : Call) (a : Asdu) :
    (Silent call a ∧ confirm srv call a = ([], .ignored)) ∨
    (¬Silent call a ∧ Refused srv call a (confirm srv call a)) ∨
    (¬Silent call a ∧ Accepted srv call a (confirm srv call a)) := by
  by_cases hs : Silent call a
  · exact .inl ⟨hs, confirm_of_silent hs⟩
  right
  rw [← and_or_left]
  refine ⟨hs, ?_⟩
  by_cases hread : ∃ isselect dur val cmdtime, readAsdu a = .command isselect dur val cmdtime
  · obtain ⟨isselect, dur, val, cmdtime, hr⟩ := hread
    cases hown : (commandPoint srv call a).bind (ownDestination srv) with
    | none => exact .inl (confirm_unaddressed hs hr hown rfl)
    | some d =>
      obtain ⟨p, hp, hd⟩ := Option.bind_eq_some_iff.mp hown
      exact confirm_addressed hs hr hp hd rfl
  · push Not at hread
    exact .inl (confirm_element hs hread rfl)

end JsonScada.Iec104Server.Handling
