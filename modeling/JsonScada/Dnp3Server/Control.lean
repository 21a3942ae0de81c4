/- path: JsonScada/Dnp3Server/Control
   source: src/dnp3/Dnp3Server/main.cpp, MyCommandHandler::Operate
   digest: What the DNP3 server answers to a control request and what it writes. -/

import JsonScada.Dnp3Server.Documents

set_option autoImplicit false
set_option relaxedAutoImplicit false

namespace JsonScada.Dnp3Server.Control

open JsonScada.Lib.Binary64 JsonScada.Lib.DotNet JsonScada.Dnp3Server.Documents
open JsonScada.Iec104.Types (Destination)

inductive OperationType where
  | NUL | PULSE_ON | PULSE_OFF | LATCH_ON | LATCH_OFF | Undefined
  deriving DecidableEq

/-- `(uint8_t)command.opType` -/
def OperationType.code : OperationType → ℕ
  | NUL => 0
  | PULSE_ON => 1
  | PULSE_OFF => 2
  | LATCH_ON => 3
  | LATCH_OFF => 4
  | Undefined => 255

inductive TripCloseCode where
  | NUL | CLOSE | TRIP | RESERVED
  deriving DecidableEq

inductive CommandStatus where
  | SUCCESS | FORMAT_ERROR | NOT_SUPPORTED | BLOCKED | DOWNSTREAM_FAIL
  deriving DecidableEq

inductive Request where
  | controlRelayOutputBlock (opType : OperationType) (tcc : TripCloseCode)
  | analogOutputInt16 (value : ℤ)
  | analogOutputInt32 (value : ℤ)
  | analogOutputFloat32 (value : Number)
  | analogOutputDouble64 (value : Number)
  deriving DecidableEq

/-- The circumstances of a call: whether the client of the database is there, whether the
insert succeeds, the time, and how the library writes a double. -/
structure Call where
  mongoClient : Bool := true
  inserts : Bool := true
  now : ℤ := 0
  to_string : Number → String := fun _ => ""

/-- The query for the tag of a request. -/
def operateFilter (conn : Connection) (index : ℕ) (t : Tag) : Bool :=
  t.origin = "command" && t.type = "digital" &&
    t.anyDestination (·.protocolDestinationConnectionNumber) conn.protocolConnectionNumber &&
    t.anyDestination (·.protocolDestinationCommonAddress) 12 &&
    t.anyDestination (·.protocolDestinationObjectAddress) index &&
    t.destinations.any (·.protocolDestinationCommandUseSBO)

/-- `find_one` -/
def findTag (conn : Connection) (db : Database) (index : ℕ) : Option Tag :=
  (db.realtimeData.filterMap Entry.tag?).find? (operateFilter conn index)

/-- The tag of a request, or the answer that refuses it; no answer is an exception. -/
def chosenTag (conn : Connection) (call : Call) (db : Database) (index : ℕ) :
    Except (Option CommandStatus) Tag :=
  if !call.mongoClient then .error (some .DOWNSTREAM_FAIL)
  else match findTag conn db index with
  | none => .error (some .NOT_SUPPORTED)
  | some t =>
    match t.enabled with
    | none => .error none
    | some false => .error (some .BLOCKED)
    | some true => .ok t

/-- The first destination of the connection. -/
def ownDestination (conn : Connection) (t : Tag) : Except (Option CommandStatus) Destination :=
  match t.destinations.find? conn.owns with
  | none => .error (some .NOT_SUPPORTED)
  | some d => .ok d

/-- `getDouble(protocolDestination, "protocolDestinationCommandUseSBO")` of a boolean -/
def useSBO (_ : Destination) : Number := .fin 0

/-- The document of a control block: a factor of -1 exchanges closing and tripping. -/
def controlDocument (conn : Connection) (call : Call) (opType : OperationType)
    (tcc : TripCloseCode) (index : ℕ) (t : Tag) (d : Destination) : Command where
  protocolSourceConnectionNumber := .fin conn.protocolConnectionNumber
  protocolSourceCommonAddress := .fin 12
  protocolSourceObjectAddress := .fin index
  protocolSourceASDU := d.protocolDestinationASDU
  protocolSourceCommandDuration := .fin opType.code
  protocolSourceCommandUseSBO := useSBO d
  point_key := t._id.getDouble
  tag := t.tag
  value :=
    if d.protocolDestinationKConv1 = .fin (-1) then if tcc = .CLOSE then .fin 0 else .fin 1
    else if tcc = .CLOSE then .fin 1 else .fin 0
  valueString := ""
  originatorUserName := "DNP3 Server Driver"
  originatorIpAddress := ""
  timeTag := call.now

def controlCommand (conn : Connection) (call : Call) (db : Database) (opType : OperationType)
    (tcc : TripCloseCode) (index : ℕ) : Except (Option CommandStatus) Command :=
  (chosenTag conn call db index).bind fun t =>
    if opType = .NUL then .error (some .FORMAT_ERROR)
    else if tcc = .NUL ∨ tcc = .RESERVED then .error (some .FORMAT_ERROR)
    else (ownDestination conn t).map (controlDocument conn call opType tcc index t)

def analogValue (d : Destination) (value : Number) : Number :=
  let kconv1 := d.protocolDestinationKConv1
  let kconv2 := d.protocolDestinationKConv2
  if kconv1 ≠ .fin 1 ∨ kconv2 ≠ .fin 0 then (value.mul kconv1).add kconv2 else value

def analogDocument (conn : Connection) (call : Call) (value : Number) (index : ℕ) (t : Tag)
    (d : Destination) : Command where
  protocolSourceConnectionNumber := .fin conn.protocolConnectionNumber
  protocolSourceCommonAddress := .fin 12
  protocolSourceObjectAddress := .fin index
  protocolSourceASDU := d.protocolDestinationASDU
  protocolSourceCommandDuration := .fin 0
  protocolSourceCommandUseSBO := useSBO d
  point_key := t._id.getDouble
  tag := t.tag
  value := analogValue d value
  valueString := call.to_string (analogValue d value)
  originatorUserName := "DNP3 Server Driver"
  originatorIpAddress := ""
  timeTag := call.now

def analogCommand (conn : Connection) (call : Call) (db : Database) (value : Number)
    (index : ℕ) : Except (Option CommandStatus) Command :=
  (chosenTag conn call db index).bind fun t =>
    (ownDestination conn t).map (analogDocument conn call value index t)

/-- The other analog outputs are operated as doubles. -/
def Request.command (conn : Connection) (call : Call) (db : Database) (index : ℕ) :
    Request → Except (Option CommandStatus) Command
  | controlRelayOutputBlock opType tcc => controlCommand conn call db opType tcc index
  | analogOutputInt16 value | analogOutputInt32 value =>
    analogCommand conn call db (.fin value) index
  | analogOutputFloat32 value | analogOutputDouble64 value =>
    analogCommand conn call db value index

/-- The answer, `none` for an exception, and the database after it. The command goes into
`rtDataCollection`; the variable for the queue is not used. -/
def Operate (conn : Connection) (call : Call) (db : Database) (request : Request) (index : ℕ) :
    Option CommandStatus × Database :=
  match request.command conn call db index with
  | .error status => (status, db)
  | .ok c =>
    if call.inserts then
      (some .SUCCESS, { db with realtimeData := db.realtimeData ++ [.command c] })
    else (none, db)

/-- A control block without an operation or with a code that neither closes nor trips. -/
def Request.Malformed : Request → Prop
  | controlRelayOutputBlock opType tcc => opType = .NUL ∨ tcc = .NUL ∨ tcc = .RESERVED
  | _ => False

/-- There is no client, no tag, or the tag found first is not enabled, or the request is
malformed. -/
def Refuses (conn : Connection) (call : Call) (db : Database) (request : Request)
    (index : ℕ) : Prop :=
  call.mongoClient = false ∨
    (∀ t, findTag conn db index = some t → t.enabled ≠ some true) ∨ request.Malformed

variable {conn : Connection} {call : Call} {db : Database} {index : ℕ}

theorem chosenTag_cases :
    (∃ t, chosenTag conn call db index = .ok t ∧ call.mongoClient = true ∧
      findTag conn db index = some t ∧ t.enabled = some true) ∨
    ∃ status, chosenTag conn call db index = .error status ∧ status ≠ some .SUCCESS ∧
      (call.mongoClient = false ∨
        ∀ t, findTag conn db index = some t → t.enabled ≠ some true) := by
  unfold chosenTag
  cases hclient : call.mongoClient with
  | false => exact .inr ⟨some .DOWNSTREAM_FAIL, rfl, by decide, .inl rfl⟩
  | true =>
    cases hfind : findTag conn db index with
    | none =>
      refine .inr ⟨some .NOT_SUPPORTED, rfl, by decide, .inr ?_⟩
      rintro t ⟨⟩
    | some t =>
      cases henabled : t.enabled with
      | none =>
        refine .inr ⟨none, by simp [henabled], by decide, .inr ?_⟩
        rintro t' ⟨⟩
        rw [henabled]
        decide
      | some b =>
        cases b with
        | false =>
          refine .inr ⟨some .BLOCKED, by simp [henabled], by decide, .inr ?_⟩
          rintro t' ⟨⟩
          rw [henabled]
          decide
        | true => exact .inl ⟨t, by simp [henabled], rfl, rfl, henabled⟩

/-- A tag the query finds has a destination of the connection. -/
theorem ownDestination_of_found {t : Tag} (h : findTag conn db index = some t) :
    ∃ d, ownDestination conn t = .ok d := by
  have hfilter := List.find?_some h
  have hconn : t.anyDestination (·.protocolDestinationConnectionNumber)
      conn.protocolConnectionNumber = true := by
    unfold operateFilter at hfilter
    simp only [Bool.and_eq_true] at hfilter
    exact hfilter.1.1.1.2
  obtain ⟨d, hd, hnumber⟩ := List.any_eq_true.mp hconn
  have howns : conn.owns d = true := Connection.owns_of_eq (of_decide_eq_true hnumber)
  unfold ownDestination
  cases hf : t.destinations.find? conn.owns with
  | none =>
    have hnot := List.find?_eq_none.mp hf d hd
    exact absurd howns hnot
  | some d' => exact ⟨d', rfl⟩

/-- A request either gets a command or is refused, never with a success. -/
theorem command_cases (conn : Connection) (call : Call) (db : Database) (request : Request)
    (index : ℕ) :
    ((∃ c, request.command conn call db index = .ok c) ∧
      ¬ Refuses conn call db request index) ∨
    ∃ status, request.command conn call db index = .error status ∧ status ≠ some .SUCCESS ∧
      Refuses conn call db request index := by
  rcases @chosenTag_cases conn call db index with
    ⟨t, ht, hclient, hfind, henabled⟩ | ⟨status, hstatus, hne, hrefuses⟩
  · obtain ⟨d, hd⟩ := ownDestination_of_found hfind
    have hok : ¬ request.Malformed → ¬ Refuses conn call db request index := by
      rintro hwell (h | h | h)
      · rw [hclient] at h
        cases h
      · exact h t hfind henabled
      · exact hwell h
    have hanalog : ∀ value, ∃ c, analogCommand conn call db value index = .ok c := by
      intro value
      refine ⟨analogDocument conn call value index t d, ?_⟩
      rw [analogCommand, ht, Except.bind, hd]
      rfl
    cases request with
    | controlRelayOutputBlock opType tcc =>
      have hcommand : controlCommand conn call db opType tcc index =
          if opType = .NUL then .error (some .FORMAT_ERROR)
          else if tcc = .NUL ∨ tcc = .RESERVED then .error (some .FORMAT_ERROR)
          else .ok (controlDocument conn call opType tcc index t d) := by
        rw [controlCommand, ht, Except.bind, hd]
        rfl
      by_cases hop : opType = .NUL
      · rw [if_pos hop] at hcommand
        exact .inr ⟨_, hcommand, by decide, .inr (.inr (.inl hop))⟩
      rw [if_neg hop] at hcommand
      by_cases htcc : tcc = .NUL ∨ tcc = .RESERVED
      · rw [if_pos htcc] at hcommand
        exact .inr ⟨_, hcommand, by decide, .inr (.inr (.inr htcc))⟩
      · rw [if_neg htcc] at hcommand
        exact .inl ⟨⟨_, hcommand⟩, hok fun h => h.elim hop htcc⟩
    | analogOutputInt16 value | analogOutputInt32 value | analogOutputFloat32 value
    | analogOutputDouble64 value => exact .inl ⟨hanalog _, hok id⟩
  · refine .inr ⟨status, ?_, hne, hrefuses.imp_right .inl⟩
    cases request with
    | controlRelayOutputBlock opType tcc =>
      rw [Request.command, controlCommand, hstatus]
      rfl
    | analogOutputInt16 value | analogOutputInt32 value | analogOutputFloat32 value
    | analogOutputDouble64 value =>
      rw [Request.command, analogCommand, hstatus]
      rfl

end JsonScada.Dnp3Server.Control
