/- path: JsonScada/Iec104Client/Commands
   source: src/lib60870.netcore/iec104client/MongoCommands.cs, AsduReceiveHandler.cs
   digest: How the client driver sends commands and handles their confirmations. -/

import JsonScada.Iec104.Objects

set_option autoImplicit false
set_option relaxedAutoImplicit false

namespace JsonScada.Iec104Client.Commands

open JsonScada.Lib.Binary64 JsonScada.Lib.DotNet
open JsonScada.Iec104.Types JsonScada.Iec104.Objects

/-- A client connection (`IEC10X_connection`). -/
structure Connection where
  name : String := ""
  protocolConnectionNumber : ℤ
  commandsEnabled : Bool := true
  sizeOfCA : ℕ := 2
  sizeOfIOA : ℕ := 3
  autoCreateTags : Bool := false
  deriving DecidableEq

/-- A document of `commandsQueue` (`rtCommand`). -/
structure RtCommand where
  _id : ℕ
  protocolSourceConnectionNumber : Number := .fin 0
  protocolSourceCommonAddress : Number := .fin 0
  protocolSourceObjectAddress : Number := .fin 0
  protocolSourceASDU : Number := .fin 0
  protocolSourceCommandDuration : Number := .fin 0
  protocolSourceCommandUseSBO : Bool := false
  value : Number := .fin 0
  timeTag : ℤ := 0
  delivered : Bool := false
  cancelReason : Option String := none
  ack : Option Bool := none
  ackTimeTag : Option ℤ := none
  deriving DecidableEq

/-- The circumstances of a call: whether the node is active, whether the connection runs,
and the time. -/
structure Call where
  Active : Bool := true
  IsRunning : Bool := true
  now : ℤ := 0
  deriving DecidableEq

/-- The object of a command, as a select or as an execute. -/
def buildCommand (now : ℤ) (c : RtCommand) (sbo : Bool) : Option (Option InformationObject) := do
  let asdu ← Convert.toInt32 c.protocolSourceASDU
  let addr ← Convert.toInt32 c.protocolSourceObjectAddress
  let cmdqualif ← Convert.toByte c.protocolSourceCommandDuration
  BuildInfoObj now asdu addr c.value sbo cmdqualif

/-- What becomes of a command. A delivered one with select-before-operate is assigned to
`LastCommandSelected` as an execute; then it is sent, unless its common address does not
convert. -/
inductive Dispatch where
  | ignored
  | failed
  | cancelled (cancelReason : String)
  | deliver (selected : Option InformationObject) (ca : Option ℤ) (sc : InformationObject)
  deriving DecidableEq

/-- `Subtract(timeTag).Seconds`, the seconds of an interval without its minutes. -/
def seconds (interval : ℤ) : ℤ := (interval.tdiv 1000).tmod 60

/-- A change of `commandsQueue` at a driver with this connection. -/
def ProcessMongoCmd (srv : Connection) (call : Call) (c : RtCommand) : Dispatch :=
  if !call.Active then .ignored
  else if c.protocolSourceConnectionNumber ≠ .fin srv.protocolConnectionNumber then .ignored
  else if call.IsRunning && srv.commandsEnabled then
    match buildCommand call.now c c.protocolSourceCommandUseSBO with
    | none => .failed
    | some none => .cancelled "asdu not implemented"
    | some (some sc) =>
      if seconds (call.now - c.timeTag) < 10 then
        .deliver
          (if c.protocolSourceCommandUseSBO then (buildCommand call.now c false).join else none)
          (Convert.toInt32 c.protocolSourceCommonAddress) sc
      else .cancelled "expired"
  else .cancelled (if srv.commandsEnabled then "not connected" else "commands disabled")

inductive CauseOfTransmission where
  | ACTIVATION | ACTIVATION_CON | DEACTIVATION | DEACTIVATION_CON | ACTIVATION_TERMINATION
  | other (code : ℤ)
  deriving DecidableEq

/-- A received ASDU with its first element, whose type is that of the ASDU. -/
structure Asdu where
  Cot : CauseOfTransmission := .ACTIVATION_CON
  IsNegative : Bool := false
  Ca : ℤ
  val : InformationObject
  deriving DecidableEq

/-- The select flag of a command. -/
def Select : Content → Bool
  | .singleCommand _ select _ | .doubleCommand _ select _ | .stepCommand _ select _
  | .setpointNormalized _ select | .setpointScaled _ select | .setpointShort _ select => select
  | _ => false

/-- The same command without the select flag. -/
def execute : Content → Content
  | .singleCommand command _ qu => .singleCommand command false qu
  | .doubleCommand state _ qu => .doubleCommand state false qu
  | .stepCommand state _ qu => .stepCommand state false qu
  | .setpointNormalized rawValue _ => .setpointNormalized rawValue false
  | .setpointScaled value _ => .setpointScaled value false
  | .setpointShort value _ => .setpointShort value false
  | c => c

/-- The types whose cases in the handler answer a select. -/
def answersSelect : TypeID → Bool
  | .C_SC_NA_1 | .C_DC_NA_1 | .C_RC_NA_1 | .C_SC_TA_1 | .C_DC_TA_1 | .C_RC_TA_1 => true
  | _ => false

/-- Whether the handler goes on to send `LastCommandSelected`; `none` where that is null. -/
def selectConfirmed (LastCommandSelected : Option InformationObject) (asdu : Asdu) :
    Option Bool :=
  if answersSelect asdu.val.type && Select asdu.val.content && asdu.Cot = .ACTIVATION_CON &&
      !asdu.IsNegative then
    LastCommandSelected.map fun o => asdu.val.objectAddress = o.objectAddress
  else some false

structure IEC_CmdAck where
  ack : Bool
  conn_number : ℤ
  object_address : ℤ
  ack_time_tag : ℤ
  deriving DecidableEq

/-- The types whose cases in the handler enqueue an acknowledge. -/
def acknowledged : TypeID → Bool
  | .P_ME_NA_1 | .P_ME_NB_1 | .P_ME_NC_1 | .P_AC_NA_1 => true
  | t => t.isControl

def cmdAck (srv : Connection) (now : ℤ) (asdu : Asdu) : Option IEC_CmdAck :=
  if acknowledged asdu.val.type then
    some {
      ack := !asdu.IsNegative
      object_address := asdu.val.objectAddress
      conn_number := srv.protocolConnectionNumber
      ack_time_tag := now }
  else none

/-- An address as its octets carry it, low octet first. -/
def addressOctets (size : ℕ) (n : ℤ) : ℤ :=
  n % 256 + (if 1 < size then n.tdiv 256 % 256 * 256 else 0) +
    if 2 < size then n.tdiv 65536 % 256 * 65536 else 0

/-- A common address has no third octet. -/
def commonAddress (srv : Connection) (ca : ℤ) : ℤ := addressOctets (min srv.sizeOfCA 2) ca

/-- A command as the other station receives it. -/
def transmitted (srv : Connection) (ca : ℤ) (o : InformationObject) : Asdu :=
  { Cot := .ACTIVATION, Ca := commonAddress srv ca,
    val := { o with objectAddress := addressOctets srv.sizeOfIOA o.objectAddress } }

/-- A confirmation repeats the command. -/
def confirmation (a : Asdu) (IsNegative : Bool) : Asdu :=
  { a with Cot := .ACTIVATION_CON, IsNegative := IsNegative }

/-- An address that came in octets keeps its value in them. -/
theorem addressOctets_idem (size : ℕ) (n : ℤ) :
    addressOctets size (addressOctets size n) = addressOctets size n := by
  have hrange : 0 ≤ addressOctets size n ∧ addressOctets size n < 256 ^ 3 ∧
      (¬ 1 < size → addressOctets size n < 256) ∧
      (¬ 2 < size → addressOctets size n < 65536) := by
    unfold addressOctets
    split_ifs <;> omega
  obtain ⟨hpos, hmax, h1, h2⟩ := hrange
  generalize addressOctets size n = m at hpos hmax h1 h2
  unfold addressOctets
  rw [Int.tdiv_eq_ediv_of_nonneg hpos, Int.tdiv_eq_ediv_of_nonneg hpos]
  split_ifs with ha hb hb
  · omega
  · have := h2 hb
    omega
  · omega
  · have := h1 ha
    omega

theorem measured_execute {low high : ℤ} {x : Number} {quality : Option QualityDescriptor}
    {make : ℤ → Content} (hmake : ∀ n, execute (make n) = make n) :
    (measured low high x quality make).map (Option.map fun c => (execute c.1, c.2)) =
      measured low high x quality make := by
  unfold measured
  rcases flagOverflow (outside low high x) quality with _ | q
  · rfl
  · rcases Convert.toInt16 (limit low high x) with _ | n
    · rfl
    · have hn := hmake n
      simp [hn]

/-- The flag is all that a select differs in from its execute. -/
theorem buildContent_execute (t : TypeID) (value : Number) (cmdqualif : ℤ)
    (quality : Option QualityDescriptor) (kconv1 kconv2 : Number) (transient : Bool) :
    (buildContent t value true cmdqualif quality kconv1 kconv2 transient).map
        (Option.map fun c => (execute c.1, c.2)) =
      buildContent t value false cmdqualif quality kconv1 kconv2 transient := by
  have hmap : ∀ (o : Option ℤ) (f g : ℤ → Content × Option QualityDescriptor),
      (∀ n, (execute (f n).1, (f n).2) = g n) →
        (o.map fun n => some (f n)).map (Option.map fun c => (execute c.1, c.2)) =
          o.map fun n => some (g n) := by
    rintro (_ | n) f g hfg
    · rfl
    · exact congrArg (fun c => some (some c)) (hfg n)
  cases t with
  | M_ST_NA_1 | M_ST_TB_1 | M_ME_NA_1 | M_ME_TD_1 | M_ME_NB_1 | M_ME_TE_1 =>
    exact measured_execute fun n => rfl
  | M_ME_ND_1 =>
    have h := @measured_execute (-32768) 32767 (converted value kconv1 kconv2) quality
      .normalizedWithoutQuality fun n => rfl
    unfold buildContent
    generalize measured (-32768) 32767 (converted value kconv1 kconv2) quality
      .normalizedWithoutQuality = made at h
    rcases made with _ | _ | c
    · rfl
    · rfl
    · have hc := (Prod.mk.inj (Option.some.inj (Option.some.inj h))).1
      show some (some (execute c.1, none)) = some (some (c.1, none))
      rw [hc]
  | M_BO_NA_1 | M_BO_TB_1 | C_BO_NA_1 | C_BO_TA_1 | C_SE_NA_1 | C_SE_TA_1 | C_SE_NB_1
  | C_SE_TB_1 | C_IC_NA_1 | C_CI_NA_1 | C_RP_NA_1 | C_TS_TA_1 | P_ME_NC_1 | P_AC_NA_1 =>
    exact hmap _ _ _ fun n => rfl
  | P_ME_NA_1 =>
    unfold buildContent
    cases Convert.toInt32 (limit (-32768) 32767 (converted value kconv1 kconv2)) <;>
      cases byte cmdqualif <;> rfl
  | P_ME_NB_1 =>
    unfold buildContent
    cases Convert.toInt16 (limit (-32768) 32767 (converted value kconv1 kconv2)) <;>
      cases byte cmdqualif <;> rfl
  | _ => rfl

/-- What a command is built into as an execute is its select without the flag. -/
theorem buildCommand_execute (now : ℤ) (c : RtCommand) :
    (buildCommand now c true).map (Option.map fun o => { o with content := execute o.content }) =
      buildCommand now c false := by
  unfold buildCommand
  rcases Convert.toInt32 c.protocolSourceASDU with _ | asdu
  · rfl
  rcases Convert.toInt32 c.protocolSourceObjectAddress with _ | addr
  · rfl
  rcases Convert.toByte c.protocolSourceCommandDuration with _ | cmdqualif
  · rfl
  show (BuildInfoObj now asdu addr c.value true cmdqualif).map _ =
    BuildInfoObj now asdu addr c.value false cmdqualif
  dsimp only [BuildInfoObj]
  rw [← buildContent_execute]
  generalize buildContent (typeOf asdu none) c.value true cmdqualif none _ _ _ = made
  rcases made with _ | _ | made <;> rfl

theorem select_execute (c : Content) : Select (execute c) = false := by
  cases c <;> rfl

/-- All that is known of a delivered command. -/
theorem deliver_cases {srv : Connection} {call : Call} {c : RtCommand}
    {selected : Option InformationObject} {ca : Option ℤ} {sc : InformationObject}
    (h : ProcessMongoCmd srv call c = .deliver selected ca sc) :
    c.protocolSourceConnectionNumber = .fin srv.protocolConnectionNumber ∧
      buildCommand call.now c c.protocolSourceCommandUseSBO = some (some sc) ∧
      selected = (if c.protocolSourceCommandUseSBO then (buildCommand call.now c false).join
        else none) ∧
      ca = Convert.toInt32 c.protocolSourceCommonAddress := by
  unfold ProcessMongoCmd at h
  by_cases hactive : (!call.Active) = true
  · rw [if_pos hactive] at h
    cases h
  rw [if_neg hactive] at h
  by_cases hconn : c.protocolSourceConnectionNumber ≠ .fin srv.protocolConnectionNumber
  · rw [if_pos hconn] at h
    cases h
  rw [if_neg hconn] at h
  by_cases hrun : (call.IsRunning && srv.commandsEnabled) = true
  · rw [if_pos hrun] at h
    rcases hbuilt : buildCommand call.now c c.protocolSourceCommandUseSBO with _ | _ | o
    · rw [hbuilt] at h
      cases h
    · rw [hbuilt] at h
      cases h
    · rw [hbuilt] at h
      dsimp only at h
      by_cases hage : seconds (call.now - c.timeTag) < 10
      · rw [if_pos hage] at h
        obtain ⟨rfl, rfl, rfl⟩ := Dispatch.deliver.inj h
        exact ⟨not_not.mp hconn, rfl, rfl, rfl⟩
      · rw [if_neg hage] at h
        cases h
  · rw [if_neg hrun] at h
    cases h

/-- What is delivered of a command with select-before-operate is its select, and its
execute is remembered. -/
theorem deliver_select {srv : Connection} {call : Call} {c : RtCommand}
    {selected : Option InformationObject} {ca : Option ℤ} {sc : InformationObject}
    (h : ProcessMongoCmd srv call c = .deliver selected ca sc)
    (hsbo : c.protocolSourceCommandUseSBO = true) :
    selected = some { sc with content := execute sc.content } := by
  obtain ⟨-, hbuilt, hselected, -⟩ := deliver_cases h
  rw [hsbo] at hbuilt hselected
  rw [hselected, if_pos rfl, ← buildCommand_execute, hbuilt]
  rfl

/-- A command without it is delivered as an execute. -/
theorem deliver_direct {srv : Connection} {call : Call} {c : RtCommand}
    {selected : Option InformationObject} {ca : Option ℤ} {sc : InformationObject}
    (h : ProcessMongoCmd srv call c = .deliver selected ca sc)
    (hsbo : c.protocolSourceCommandUseSBO = false) :
    selected = none ∧ Select sc.content = false := by
  obtain ⟨-, hbuilt, hselected, -⟩ := deliver_cases h
  rw [hsbo] at hbuilt hselected
  rw [← buildCommand_execute] at hbuilt
  obtain ⟨made, -, hmade⟩ := Option.map_eq_some_iff.mp hbuilt
  obtain ⟨o, -, rfl⟩ := Option.map_eq_some_iff.mp hmade
  exact ⟨hselected, select_execute _⟩

end JsonScada.Iec104Client.Commands
