/- path: JsonScada/Server/Command
   source: src/server_realtime_auth/index.js, Write a Value: Command
   digest: A command node: resolution of its point, rights, and what it inserts. -/

import JsonScada.Server.Database

set_option autoImplicit false
set_option relaxedAutoImplicit false

namespace JsonScada.Server.Command

open JsonScada.Lib.Binary64 JsonScada.Lib.EcmaScript JsonScada.Model.Documents
open JsonScada.Server.Request JsonScada.Server.Database

def CommandSentAsSOESymbol : String := "⚙️➡️"

/-- What a command node does, in order: the check of the group list against the point it
found, and what it inserts. -/
inductive Effect where
  | canSendCommandTo (data : Point)
  | insertCommand (c : Command)
  | insertSoe (e : SoeEvent)
  | logAction (a : UserAction)
  deriving DecidableEq

/-- `cmd_val` and `cmd_val_str`: only a double or a string value is accepted. -/
def commandValue (h : Host) (v : WriteValue) : Option (JsVal × JsVal) :=
  let isDouble : Bool := v.type = .num (.fin DataType.Double)
  let isString : Bool := v.type = .num (.fin DataType.String)
  let bodyOk : Bool := match v.body with
    | .num _ | .str _ => true
    | _ => false
  if (isDouble || isString) && bodyOk then
    let cmd_val := if isDouble then v.body else .num (.fin 0)
    let cmd_val_str :=
      if isString then v.body
      else .str (String.ofList (numToString (parseFloat (h.text cmd_val))))
    some (cmd_val, cmd_val_str)
  else none

/-- `v != ''`. -/
def notEmpty (h : Host) (v : JsVal) : Bool :=
  match v with
  | .undefined | .null => true
  | .str s => s ≠ ""
  | .obj j => h.objectText j ≠ []
  | v => !(h.number v).eqv (.fin 0)

/-- An address that is no number is kept as it is; the others become doubles. -/
def addressing (h : Host) (data : Point) : JsVal × JsVal × JsVal :=
  if (notEmpty h data.protocolSourceCommonAddress &&
        (h.number data.protocolSourceCommonAddress).isNaN) ||
      (h.number data.protocolSourceObjectAddress).isNaN || (h.number data.protocolSourceASDU).isNaN
  then
    (data.protocolSourceCommonAddress, data.protocolSourceObjectAddress, data.protocolSourceASDU)
  else
    (.num (h.number data.protocolSourceCommonAddress),
      .num (h.number data.protocolSourceObjectAddress), .num (h.number data.protocolSourceASDU))

def commandDocument (h : Host) (s : Session) (data : Point) (cmd_val cmd_val_str : JsVal) :
    Command :=
  { protocolSourceConnectionNumber := data.protocolSourceConnectionNumber
    protocolSourceCommonAddress := (addressing h data).1
    protocolSourceObjectAddress := (addressing h data).2.1
    protocolSourceASDU := (addressing h data).2.2
    protocolSourceCommandDuration := data.protocolSourceCommandDuration.toNumber
    protocolSourceCommandUseSBO := data.protocolSourceCommandUseSBO
    pointKey := data._id
    tag := data.tag
    timeTag := s.now
    value := h.number cmd_val
    valueString := cmd_val_str
    originatorUserName := s.username
    originatorIpAddress := s.originatorIpAddress }

/-- Special command tags are put directly in the command queue. -/
def specialCommand (h : Host) (s : Session) (cmd_id : String) (cmd_val cmd_val_str : JsVal) :
    Command :=
  { protocolSourceConnectionNumber := .fin (-1)
    protocolSourceCommonAddress := .num (.fin (-1))
    protocolSourceObjectAddress := .num (.fin (-1))
    protocolSourceASDU := .num (.fin (-1))
    protocolSourceCommandDuration := .fin 0
    protocolSourceCommandUseSBO := .bool false
    pointKey := .fin 0
    tag := cmd_id
    timeTag := s.now
    value := h.number cmd_val
    valueString := cmd_val_str
    originatorUserName := s.username
    originatorIpAddress := s.originatorIpAddress }

/-- The command as a SOE entry. -/
def commandEvent (h : Host) (s : Session) (data : Point) (cmd_val cmd_val_str : JsVal) : SoeEvent :=
  let eventText :=
    if data.type = .digital then
      if cmd_val.truthy then data.eventTextTrue else data.eventTextFalse
    else String.ofList (h.text cmd_val_str)
  { tag := data.tag, pointKey := data._id, group1 := data.group1, description := data.description
    eventText := eventText ++ CommandSentAsSOESymbol, invalid := false, priority := data.priority
    timeTag := s.now, timeTagAtSource := some s.now, timeTagAtSourceOk := some true, ack := 1 }

def commandAction (h : Host) (s : Session) (id : JsVal) (data : Point)
    (cmd_val cmd_val_str : JsVal) : UserAction :=
  { username := s.username, action := "Command", pointKey := id, tag := .str data.tag
    properties := [("value", .num (h.number cmd_val)), ("valueString", cmd_val_str)]
    timeTag := s.now }

/-- A special command ends the request. -/
def sendSpecial (h : Host) (s : Session) (tag : String) (cmd_val cmd_val_str : JsVal) :
    List Effect × Flow :=
  ([.insertCommand (specialCommand h s tag cmd_val cmd_val_str)],
    .reply (if h.acknowledged then .Good else .BadUnexpectedError))

/-- From the search in the database on: `query` is its filter. -/
def sendCommand (h : Host) (s : Session) (points : List Point) (query : Point → Bool) (id : JsVal)
    (cmd_val cmd_val_str : JsVal) : List Effect × Flow :=
  match points.find? query with
  | none => ([], .reply .BadNodeIdUnknown)
  | some data =>
    let checked := if s.authentication then [.canSendCommandTo data] else []
    if s.authentication && !s.canSendCommandTo data.group1 then
      (checked, .reply .BadUserAccessDenied)
    else
      let inserted := checked ++ [.insertCommand (commandDocument h s data cmd_val cmd_val_str)]
      if !h.acknowledged then (inserted, .reply .BadUnexpectedError)
      else
        (inserted ++ [.insertSoe (commandEvent h s data cmd_val cmd_val_str),
          .logAction (commandAction h s id data cmd_val cmd_val_str)], .next [.Good])

/-- `startsWith('$$')`. -/
def isSpecial (tag : String) : Bool := ['$', '$'].isPrefixOf tag.toList

/-- A command: the identifier is a key when it begins like a number, else a tag. -/
def writeCommand (h : Host) (s : Session) (points : List Point) (n : Node) : List Effect × Flow :=
  if s.authentication && !s.canSendCommands then ([], .reply .BadUserAccessDenied)
  else match n.nodeId.bind NodeId.id with
    | none => ([], .next [])
    | some cmd_id => match n.value.bind (commandValue h) with
      | none => ([], .reply .BadNodeAttributesInvalid)
      | some (cmd_val, cmd_val_str) =>
        if (h.parseInt cmd_id).isNaN then
          match cmd_id with
          | .str tag =>
            if isSpecial tag then sendSpecial h s tag cmd_val cmd_val_str
            else sendCommand h s points (fun p => p.tag = tag) cmd_id cmd_val cmd_val_str
          -- only a text has startsWith
          | _ => ([], .thrown)
        else
          sendCommand h s points (fun p => p._id = h.parseInt cmd_id) cmd_id cmd_val cmd_val_str

/-- The effect on the database: a check leaves it alone. -/
def Effect.apply (h : Host) : Effect → Db → Db
  | canSendCommandTo _, db => db
  | insertCommand c, db => db.insertCommand h c
  | insertSoe e, db => db.insertSoe h e
  | logAction a, db => db.logAction a

def applyEffects (h : Host) (es : List Effect) (db : Db) : Db :=
  es.foldl (fun db e => e.apply h db) db

/-- A command concerns the point its search finds, and nothing when it finds none. -/
theorem mem_sendCommand {h : Host} {s : Session} {points : List Point} {query : Point → Bool}
    {id cmd_val cmd_val_str : JsVal} {e : Effect}
    (he : e ∈ (sendCommand h s points query id cmd_val cmd_val_str).1) :
    ∃ data, points.find? query = some data ∧ (e = .canSendCommandTo data ∨
      e = .insertCommand (commandDocument h s data cmd_val cmd_val_str) ∨
      e = .insertSoe (commandEvent h s data cmd_val cmd_val_str) ∨
      e = .logAction (commandAction h s id data cmd_val cmd_val_str)) := by
  unfold sendCommand at he
  cases hf : points.find? query with
  | none =>
    rw [hf] at he
    cases he
  | some data =>
    rw [hf] at he
    refine ⟨data, rfl, ?_⟩
    have hchecked : e ∈ (if s.authentication then [Effect.canSendCommandTo data] else []) →
        e = .canSendCommandTo data := by
      split_ifs
      · exact List.mem_singleton.mp
      · intro h
        cases h
    simp only [] at he
    split_ifs at he <;> simp only [List.mem_append, List.mem_cons, List.not_mem_nil, or_false] at he
    all_goals tauto

end JsonScada.Server.Command
