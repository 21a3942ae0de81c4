/- path: JsonScada/Iec104Server/Command
   source: src/lib60870.netcore/iec104server/AsduReceiveHandler.cs, AsduReceivedHandler
   digest: What the server decides about a received ASDU before it looks at the selection. -/

import JsonScada.Iec104.Types

set_option autoImplicit false
set_option relaxedAutoImplicit false

namespace JsonScada.Iec104Server.Command

open JsonScada.Lib.Binary64 JsonScada.Lib.DotNet JsonScada.Iec104.Types

/-- A server connection (`IEC10X_connection`). -/
structure Server where
  name : String := ""
  protocolConnectionNumber : ℤ
  deriving DecidableEq

/-- A received ASDU with its first element: the select bit, the qualifier, the state of
a single, double or step command, the value of the others, and the time of a command
with time tag in milliseconds. A cancel carries the cause deactivation. -/
structure Asdu where
  typeId : TypeID
  ca : ℤ
  objectAddress : ℤ
  select : Bool := false
  cancel : Bool := false
  qualifier : ℤ := 0
  state : ℕ := 0
  value : Number := .fin 0
  timestamp : ℤ := 0
  deriving DecidableEq

/-- What the first switch makes of an ASDU: an answer at once, or the fields of a command. -/
inductive Reading where
  | invalidState
  | testCommand
  | clockSync
  | notImplemented
  | command (isselect : Bool) (dur : ℤ) (val : Number) (cmdtime : Option ℤ)
  deriving DecidableEq

/-- ON and HIGHER are 2, OFF and LOWER are 1. -/
def readState (a : Asdu) (cmdtime : Option ℤ) : Reading :=
  if a.state ≠ 2 ∧ a.state ≠ 1 then .invalidState
  else .command a.select a.qualifier (if a.state = 2 then .fin 1 else .fin 0) cmdtime

def readAsdu (a : Asdu) : Reading :=
  match a.typeId with
  | .C_SC_NA_1 => .command a.select a.qualifier (if a.state = 1 then .fin 1 else .fin 0) none
  | .C_SC_TA_1 =>
    .command a.select a.qualifier (if a.state = 1 then .fin 1 else .fin 0) (some a.timestamp)
  | .C_DC_NA_1 | .C_RC_NA_1 => readState a none
  | .C_DC_TA_1 | .C_RC_TA_1 => readState a (some a.timestamp)
  | .C_SE_NA_1 | .C_SE_NB_1 | .C_SE_NC_1 => .command a.select a.qualifier a.value none
  | .C_SE_TA_1 | .C_SE_TB_1 | .C_SE_TC_1 =>
    .command a.select a.qualifier a.value (some a.timestamp)
  | .C_BO_NA_1 => .command false 0 a.value none
  | .C_BO_TA_1 => .command false 0 a.value (some a.timestamp)
  | .P_ME_NA_1 | .P_ME_NB_1 | .P_ME_NC_1 => .command false a.qualifier a.value none
  | .P_AC_NA_1 | .C_RP_NA_1 | .C_CI_NA_1 => .command false a.qualifier (.fin 0) none
  | .C_RD_NA_1 => .command false 0 (.fin 0) none
  | .C_TS_NA_1 | .C_TS_TA_1 => .testCommand
  | .C_CS_NA_1 => .clockSync
  | _ => .notImplemented

/-- A command for the source of the point (`rtCommandNoAck`). -/
structure RtCommand where
  protocolSourceConnectionNumber : ℤ
  protocolSourceCommonAddress : ℤ
  protocolSourceObjectAddress : ℤ
  protocolSourceASDU : ℤ
  protocolSourceCommandDuration : ℤ
  protocolSourceCommandUseSBO : Bool
  pointKey : ℤ
  tag : String
  value : Number
  originatorUserName : String
  timeTag : ℤ
  deriving DecidableEq

/-- The query for the point of a command; a read command asks for any type. -/
def commandFilter (srv : Server) (a : Asdu) (p : RtData) : Bool :=
  anyDestination (·.protocolDestinationConnectionNumber) srv.protocolConnectionNumber p &&
    anyDestination (·.protocolDestinationCommonAddress) a.ca p &&
    anyDestination (·.protocolDestinationObjectAddress) a.objectAddress p &&
    (a.typeId = .C_RD_NA_1 || anyDestination (·.protocolDestinationASDU) a.typeId.code p)

/-- The value in the terms of the destination. -/
def destinationValue (t : TypeID) (d : Destination) (val : Number) : Option Number :=
  match t with
  | .C_SC_NA_1 | .C_SC_TA_1 | .C_DC_NA_1 | .C_DC_TA_1 | .C_RC_NA_1 | .C_RC_TA_1 =>
    if d.protocolDestinationKConv1 = .fin (-1) then
      some (if val = .fin 0 then .fin 1 else .fin 0)
    else some val
  | .C_SE_NA_1 | .C_SE_TA_1 | .C_SE_NB_1 | .C_SE_TB_1 | .C_SE_NC_1 | .C_SE_TC_1 | .P_ME_NA_1
  | .P_ME_NB_1 | .P_ME_NC_1 | .P_AC_NA_1 | .C_RP_NA_1 =>
    some ((val.mul d.protocolDestinationKConv1).add d.protocolDestinationKConv2)
  | .C_BO_NA_1 | .C_BO_TA_1 =>
    if d.protocolDestinationKConv1 = .fin (-1) then
      (Convert.toInt32 val).map fun n => .fin n
    else some val
  | _ => some val

/-- The value in the terms of the source; for other types it stays at its initial zero. -/
def sourceValue (t : TypeID) (p : RtData) (val : Number) : Option Number :=
  match t with
  | .C_SC_NA_1 | .C_SC_TA_1 | .C_DC_NA_1 | .C_DC_TA_1 | .C_RC_NA_1 | .C_RC_TA_1 =>
    if p.kconv1 = .fin (-1) then some (if val = .fin 0 then .fin 1 else .fin 0) else some val
  | .C_SE_NA_1 | .C_SE_TA_1 | .C_SE_NB_1 | .C_SE_TB_1 | .C_SE_NC_1 | .C_SE_TC_1 | .P_ME_NA_1
  | .P_ME_NB_1 | .P_ME_NC_1 | .P_AC_NA_1 | .C_RP_NA_1 =>
    some ((val.mul p.kconv1).add p.kconv2)
  | .C_BO_NA_1 | .C_BO_TA_1 =>
    (Convert.toInt32 val).map fun n =>
      .fin (if p.kconv1 = .fin (-1) then complement32 n else n)
  | _ => some (.fin 0)

/-- The command inserted for an execute; `none` where a conversion throws. -/
def sourceCommand (srv : Server) (a : Asdu) (p : RtData) (d : Destination) (val : Number)
    (now : ℤ) : Option RtCommand := do
  let val ← destinationValue a.typeId d val
  let srcasdu := toInt32 p.protocolSourceASDU
  let srcval ← sourceValue (.ofCode srcasdu) p val
  return {
    protocolSourceConnectionNumber := toInt32 p.protocolSourceConnectionNumber
    protocolSourceCommonAddress := toInt32 p.protocolSourceCommonAddress
    protocolSourceObjectAddress := toInt32 p.protocolSourceObjectAddress
    protocolSourceASDU := srcasdu
    protocolSourceCommandDuration := toInt32 p.protocolSourceCommandDuration
    protocolSourceCommandUseSBO := false
    pointKey := p._id
    tag := p.tag
    value := srcval
    originatorUserName := "Protocol connection: " ++ srv.name
    timeTag := now }

/-- What is left to do once the point of an ASDU is known: nothing, to forget the
selection, to remember the point as selected, or to compare and execute. -/
inductive Verdict where
  | ignored
  | reset
  | selected (pointKey : ℤ)
  | execute (pointKey : ℤ) (dstsbo : Bool) (command : Option RtCommand)
  deriving DecidableEq

/-- The circumstances of a call: whether the database answers, whether the element can
be read, what the query finds, whether the confirmation can be sent, whether the insert
succeeds, and the time. -/
structure Call where
  isMongoLive : Bool := true
  readable : Bool := true
  documents : Option (List RtData)
  connected : Bool := true
  inserts : Bool := true
  now : ℤ := 0
  deriving DecidableEq

def timeToExpireCommandsWithTime : ℤ := 20

/-- The first destination of the point that belongs to the server connection. -/
def ownDestination (srv : Server) (p : RtData) : Option Destination :=
  p.protocolDestinations.find? fun d =>
    d.protocolDestinationConnectionNumber = .fin srv.protocolConnectionNumber

/-- A confirmation comes before every change of the selection, and throws when the
connection is not active any more. -/
def answer (call : Call) (v : Verdict) : Verdict := if call.connected then v else .ignored

def AsduReceivedHandler (srv : Server) (call : Call) (a : Asdu) : Verdict :=
  if !call.isMongoLive || !call.readable then .ignored
  else match readAsdu a with
  | .testCommand => .ignored
  | .invalidState | .clockSync | .notImplemented => answer call .reset
  | .command isselect dur val cmdtime =>
    match call.documents with
    | none => .ignored
    | some documents =>
      match documents.find? (commandFilter srv a) with
      | none => answer call .reset
      | some p =>
        match ownDestination srv p with
        | none => answer call .reset
        | some d =>
          let dstsbo := d.protocolDestinationCommandUseSBO
          if a.typeId = .C_RD_NA_1 then .ignored
          else if isselect && !dstsbo then answer call .reset
          else if dur ≠ toInt32 d.protocolDestinationCommandDuration then answer call .reset
          else if toInt32 p.protocolSourceASDU = 0 then answer call .reset
          else if cmdtime.any fun t => timeToExpireCommandsWithTime * 1000 < call.now - t then
            answer call .reset
          else if isselect then answer call (.selected p._id)
          else answer call (.execute p._id dstsbo
            (if call.inserts then sourceCommand srv a p d val call.now else none))

/-- The point of an ASDU, as the handler finds it. -/
def commandPoint (srv : Server) (call : Call) (a : Asdu) : Option RtData :=
  call.documents.bind fun documents => documents.find? (commandFilter srv a)

/-- The destination an ASDU is addressed to asks for a select. -/
def addressedSbo (srv : Server) (a : Asdu) (p : RtData) : Bool :=
  p.protocolDestinations.any fun d =>
    d.protocolDestinationConnectionNumber = .fin srv.protocolConnectionNumber &&
      d.protocolDestinationCommonAddress = .fin a.ca &&
      d.protocolDestinationObjectAddress = .fin a.objectAddress &&
      d.protocolDestinationASDU = .fin a.typeId.code &&
      d.protocolDestinationCommandUseSBO

theorem answer_eq {call : Call} {v w : Verdict} (h : answer call v = w) : w = .ignored ∨ w = v := by
  unfold answer at h
  cases hc : call.connected with
  | true =>
    rw [hc, if_pos rfl] at h
    exact .inr h.symm
  | false =>
    rw [hc, if_neg (by simp)] at h
    exact .inl h.symm

/-- Only control commands carry a select bit that is read. -/
theorem readAsdu_select {a : Asdu} {dur : ℤ} {val : Number} {cmdtime : Option ℤ}
    (h : readAsdu a = .command true dur val cmdtime) :
    a.select = true ∧ a.typeId.isControl = true := by
  unfold readAsdu readState at h
  cases ht : a.typeId <;> rw [ht] at h <;> simp [TypeID.isControl] at h ⊢ <;> grind

/-- The verdicts that are not answered at once concern the point found: it is marked
as selected by a select of a control command, or compared and executed. -/
theorem verdict_cases (srv : Server) (call : Call) (a : Asdu) :
    AsduReceivedHandler srv call a = .ignored ∨ AsduReceivedHandler srv call a = .reset ∨
      ∃ p, commandPoint srv call a = some p ∧
        ((AsduReceivedHandler srv call a = .selected p._id ∧ a.select = true ∧
            a.typeId.isControl = true) ∨
          ∃ dstsbo command, AsduReceivedHandler srv call a = .execute p._id dstsbo command) := by
  have hans : ∀ w, answer call .reset = w → w = .ignored ∨ w = .reset := fun w h => answer_eq h
  generalize hv : AsduReceivedHandler srv call a = v
  unfold AsduReceivedHandler at hv
  by_cases hlive : (!call.isMongoLive || !call.readable) = true
  · rw [if_pos hlive] at hv
    exact .inl hv.symm
  rw [if_neg hlive] at hv
  cases hread : readAsdu a with
  | testCommand =>
    rw [hread] at hv
    exact .inl hv.symm
  | invalidState | clockSync | notImplemented =>
    rw [hread] at hv
    exact (hans v hv).imp_right .inl
  | command isselect dur val cmdtime =>
    simp only [hread] at hv
    cases hdocs : call.documents with
    | none =>
      rw [hdocs] at hv
      exact .inl hv.symm
    | some documents =>
      simp only [hdocs] at hv
      cases hp : documents.find? (commandFilter srv a) with
      | none =>
        rw [hp] at hv
        exact (hans v hv).imp_right .inl
      | some p =>
        simp only [hp] at hv
        have hpoint : commandPoint srv call a = some p := by
          unfold commandPoint
          rw [hdocs]
          exact hp
        cases hd : ownDestination srv p with
        | none =>
          rw [hd] at hv
          exact (hans v hv).imp_right .inl
        | some d =>
          simp only [hd] at hv
          by_cases h1 : a.typeId = .C_RD_NA_1
          · rw [if_pos h1] at hv
            exact .inl hv.symm
          rw [if_neg h1] at hv
          by_cases h2 : (isselect && !d.protocolDestinationCommandUseSBO) = true
          · rw [if_pos h2] at hv
            exact (hans v hv).imp_right .inl
          rw [if_neg h2] at hv
          by_cases h3 : dur ≠ toInt32 d.protocolDestinationCommandDuration
          · rw [if_pos h3] at hv
            exact (hans v hv).imp_right .inl
          rw [if_neg h3] at hv
          by_cases h4 : toInt32 p.protocolSourceASDU = 0
          · rw [if_pos h4] at hv
            exact (hans v hv).imp_right .inl
          rw [if_neg h4] at hv
          split at hv
          · exact (hans v hv).imp_right .inl
          by_cases h5 : isselect = true
          · subst h5
            rw [if_pos rfl] at hv
            rcases answer_eq hv with hv | hv
            · exact .inl hv
            · exact .inr (.inr ⟨p, hpoint, .inl ⟨hv, readAsdu_select hread⟩⟩)
          · rw [if_neg h5] at hv
            rcases answer_eq hv with hv | hv
            · exact .inl hv
            · exact .inr (.inr ⟨p, hpoint, .inr ⟨_, _, hv⟩⟩)

end JsonScada.Iec104Server.Command
