/- path: JsonScada/System/CommandRouting
   layer: system
   digest: When a control request of the DNP3 server ends where the commands are fetched. -/

import JsonScada.Dnp3Server.Control

set_option autoImplicit false
set_option relaxedAutoImplicit false

namespace JsonScada.System.CommandRouting

open JsonScada.Lib.Binary64 JsonScada.Dnp3Server.Documents JsonScada.Dnp3Server.Control
open JsonScada.Iec104.Types (Destination)

/-- The group of the control objects: relay output blocks or analog outputs. -/
def group : Request → ℤ
  | .controlRelayOutputBlock _ _ => 12
  | _ => 41

/-- A destination that is the one a request names. -/
def isNamed (conn : Connection) (request : Request) (index : ℕ) (d : Destination) : Bool :=
  d.protocolDestinationConnectionNumber = .fin conn.protocolConnectionNumber &&
    d.protocolDestinationCommonAddress = .fin (group request) &&
    d.protocolDestinationObjectAddress = .fin index

/-- A command for the source of a tag. -/
structure ForSource (t : Tag) (c : Command) : Prop where
  connection : c.protocolSourceConnectionNumber = t.protocolSourceConnectionNumber
  commonAddress : c.protocolSourceCommonAddress = t.protocolSourceCommonAddress
  objectAddress : c.protocolSourceObjectAddress = t.protocolSourceObjectAddress
  asdu : c.protocolSourceASDU = t.protocolSourceASDU

/-- A success comes with one command for the source of the chosen tag in the queue, and is
given for a tag with one destination that the request names; the tags stay as they are, and
any other answer leaves the queue as it is. -/
structure Routed (conn : Connection) (call : Call) (db : Database) (request : Request)
    (index : ℕ) : Prop where
  success : (Operate conn call db request index).1 = some .SUCCESS ↔
    ∃ t c, findTag conn db index = some t ∧ ForSource t c ∧
      (Operate conn call db request index).2.commandsQueue = db.commandsQueue ++ [c]
  single : (Operate conn call db request index).1 = some .SUCCESS →
    ∀ t, findTag conn db index = some t →
      (t.destinations.filter (isNamed conn request index)).length = 1
  unchanged : (Operate conn call db request index).2.realtimeData = db.realtimeData
  refused : (Operate conn call db request index).1 ≠ some .SUCCESS →
    (Operate conn call db request index).2.commandsQueue = db.commandsQueue

/-- No call writes to the queue. -/
theorem operate_commandsQueue (conn : Connection) (call : Call) (db : Database)
    (request : Request) (index : ℕ) :
    (Operate conn call db request index).2.commandsQueue = db.commandsQueue := by
  unfold Operate
  split
  · rfl
  · split <;> rfl

/-- Where the request is not refused and the insert succeeds, the tags grow by a command. -/
theorem operate_realtimeData {conn : Connection} {call : Call} {db : Database}
    {request : Request} {index : ℕ} (hinserts : call.inserts = true)
    (h : ¬ Refuses conn call db request index) :
    ∃ c, (Operate conn call db request index).2.realtimeData = db.realtimeData ++ [.command c] := by
  rcases command_cases conn call db request index with ⟨⟨c, hc⟩, -⟩ | ⟨-, -, -, hrefuses⟩
  · refine ⟨c, ?_⟩
    rw [Operate, hc]
    dsimp only
    rw [if_pos hinserts]
  · exact absurd hrefuses h

/-- A refused request, and one whose insert throws, has no success and changes nothing. -/
theorem operate_refused {conn : Connection} {call : Call} {db : Database} {request : Request}
    {index : ℕ} (h : call.inserts = false ∨ Refuses conn call db request index) :
    ∃ status, Operate conn call db request index = (status, db) ∧ status ≠ some .SUCCESS := by
  rcases command_cases conn call db request index with
    ⟨⟨c, hc⟩, hnot⟩ | ⟨status, hstatus, hne, -⟩
  · have hinserts : call.inserts = false := h.resolve_right hnot
    refine ⟨none, ?_, by decide⟩
    rw [Operate, hc]
    dsimp only
    rw [hinserts, if_neg Bool.false_ne_true]
  · refine ⟨status, ?_, hne⟩
    rw [Operate, hstatus]

/-- A breaker with the destination the driver creates, asked to be selected first. -/
def breaker : Tag where
  _id := .number (.fin 101)
  tag := "BRK"
  type := "digital"
  origin := "command"
  protocolSourceConnectionNumber := .fin 1001
  protocolSourceCommonAddress := .fin 1
  protocolSourceObjectAddress := .fin 7000
  protocolSourceASDU := .fin 45
  protocolDestinations := some [{
    protocolDestinationConnectionNumber := .fin 2001
    protocolDestinationCommonAddress := .fin 12
    protocolDestinationObjectAddress := .fin 0
    protocolDestinationASDU := .fin 1
    protocolDestinationCommandUseSBO := true }]

end JsonScada.System.CommandRouting
