/- path: JsonScada/Server/Read
   source: src/server_realtime_auth/index.js, READ SERVICE
   digest: A read request: the query it stands for, the check of the groups, and the answer. -/

import JsonScada.Server.Database
import Mathlib.Data.Bool.Basic
import Mathlib.Data.Prod.Lex
import Mathlib.Data.String.Basic

set_option autoImplicit false
set_option relaxedAutoImplicit false

namespace JsonScada.Server.Read

open JsonScada.Lib.Binary64 JsonScada.Lib.EcmaScript JsonScada.Lib.Collection
open JsonScada.Model.Documents JsonScada.Server.Request JsonScada.Server.Database

structure ReadRequest where
  nodesToRead : Option (List ReadNode) := none
  contentFilter : Option (List ContentFilter) := none
  deriving DecidableEq

namespace ReadRequest

variable (h : Host) (req : ReadRequest)

def nodes : List ReadNode := req.nodesToRead.getD []

def asks (n : ReadNode) (attributeId : ℚ) : Bool := n.attributeId.any (h.looseEq · attributeId)

/-- Description is solicited for some point: full info for all the points. -/
def info : Bool := req.nodes.any fun n => asks h n AttributeId.Description

def cmdHandles : List JsVal :=
  req.nodes.filterMap fun n =>
    if asks h n AttributeId.EventNotifier then n.clientHandle else none

/-- The variable `points`: the identifiers asked for. -/
def ids : List JsVal := req.nodes.filterMap fun n => n.nodeId.bind NodeId.id

def npts : List Number := (req.ids.map h.parseInt).filter fun x => !x.isNaN

def tags : List JsVal := req.ids.filter fun id => (h.parseInt id).isNaN

end ReadRequest

/-- The variable `query` under a content filter: an object whose properties are all to
hold, where the property set last hides the others of its name. -/
inductive Query where
  | empty
  | set (query : Query) (name : String) (value : JsVal)
  | persistentAlarms (grp1 grp2 : Option JsVal) (query : Query)
  deriving DecidableEq

namespace Query

variable (h : Host)

/-- `{ ...(grp !== null ? grp : {}) }`. -/
def inGrp (name : String) (grp : Option JsVal) (p : Point) : Bool :=
  grp.all fun value => h.fieldMatch name value p

/-- The not normal states: alarmed or out of range analogs, digitals in the alarm state. -/
def notNormal (p : Point) : Bool :=
  p.alarmDisabled = .bool false && p.invalid = false &&
    (match p.type with
    | .analog => p.alarmed || (p.alarmRange ≠ .absent && p.alarmRange ≠ .val (.fin 0))
    | .digital =>
      (p.alarmState = .fin 0 && p.value = .fin 0) || (p.alarmState = .fin 1 && p.value = .fin 1)
    | _ => false)

/-- Whether a document is in the query; `hidden` are the names set later. -/
def accepts : Query → List String → Point → Bool
  | empty, _, _ => true
  | set query name value, hidden, p =>
    (hidden.contains name || h.fieldMatch name value p) && accepts query (name :: hidden) p
  | persistentAlarms grp1 grp2 query, hidden, p =>
    hidden.contains "$or" ||
      ((notNormal p && inGrp h "group1" grp1 p && inGrp h "group2" grp2 p) || accepts query [] p)

def rejected : Query → List String → Bool
  | empty, _ => false
  | set query name value, hidden =>
    (!hidden.contains name && h.fieldRejected name value) || rejected query (name :: hidden)
  | persistentAlarms grp1 grp2 query, hidden =>
    !hidden.contains "$or" && (grp1.any (h.fieldRejected "group1") ||
      grp2.any (h.fieldRejected "group2") || rejected query [])

end Query

/-- The variable `sort`; documents with the same sort fields are taken in their order in
the collection. -/
inductive SortOrder where
  | natural
  | byGroup
  | byAlarm
  deriving DecidableEq

def SortOrder.sort : SortOrder → List Point → List Point
  | natural => id
  | byGroup => sortBy fun p => toLex (p.group1, p.group2)
  | byAlarm => sortBy fun p =>
    toLex (OrderDual.toDual p.alarmed, OrderDual.toDual (dateKey p.timeTagAlarm))

/-- The variables of the loop over the content filter. -/
structure Filtering where
  sort : SortOrder := .byGroup
  query : Query := .empty
  grp1 : Option JsVal := none
  grp2 : Option JsVal := none
  deriving DecidableEq

section Search

variable (h : Host)

def setAttribute (st : Filtering) (name value : JsVal) : Filtering :=
  let grp1 := if h.looseEqText name "group1" then some value else st.grp1
  let grp2 := if h.looseEqText name "group2" then some value else st.grp2
  if h.looseEqText name "persistentAlarms" then
    { sort := .byAlarm, query := .persistentAlarms grp1 grp2 st.query, grp1 := grp1, grp2 := grp2 }
  else
    { sort := st.sort, query := .set st.query (String.ofList (h.text name)) value
      grp1 := grp1, grp2 := grp2 }

/-- Attribute (operand) equals (operator) to a literal value (operand); other filters do
nothing. Reading an operand that is not there throws. -/
def filterStep (st : Filtering) (f : ContentFilter) : Option Filtering :=
  if f.filterOperator = .num (.fin FilterOperator.Equals) then do
    let operands ← f.filterOperands
    let (first, name) ← FilterOperand.read operands[0]?
    if first = .num (.fin Operand.Attribute) then
      let (second, value) ← FilterOperand.read operands[1]?
      if second = .num (.fin Operand.Literal) then some (setAttribute h st name value)
      else some st
    else some st
  else some st

/-- The filter on tags and keys, without a list that is empty. -/
def pointQuery (tags : List JsVal) (npts : List Number) (p : Point) : Bool :=
  if npts ≠ [] && tags ≠ [] then npts.contains p._id || tags.contains (.str p.tag)
  else if npts ≠ [] then npts.contains p._id
  else tags.contains (.str p.tag)

/-- The query of a request and its order, or an exception. A content filter takes
precedence over the list of nodes. -/
def search (req : ReadRequest) : Option (Find × SortOrder) :=
  match req.contentFilter with
  | none =>
    some (if (req.tags h).any h.inRejected then .rejected
      else .filter (pointQuery (req.tags h) (req.npts h)), .natural)
  | some filters => (filters.foldlM (filterStep h) ({} : Filtering)).map fun st =>
    (if st.query.rejected h [] then .rejected else .filter (st.query.accepts h []), st.sort)

/-- The documents found, or `none` when the database rejects the query. -/
def results (db : Db) : Find → SortOrder → Option (List Point)
  | .filter q, sort => some (sort.sort (db.realtimeData.filter q))
  | _, _ => none

end Search

structure Value where
  type : ℚ
  body : JsVal
  quality : StatusCode
  deriving DecidableEq

inductive PropertyValue where
  | js (v : JsVal)
  | date (t : Option Date)
  | groups (l : Option (List String))
  deriving DecidableEq

/-- One of the results. -/
structure Result where
  statusCode : StatusCode
  nodeId : NodeId
  value : Option Value := none
  _Properties : List (String × PropertyValue) := []
  sourceTimestamp : DocField Date := .absent
  serverTimestamp : DocField Date := .absent
  deriving DecidableEq

section Answer

def typeText : PointType → String
  | .digital => "digital"
  | .analog => "analog"
  | .string => "string"
  | .json => "json"

def originText : Origin → String
  | .supervised => "supervised"
  | .calculated => "calculated"
  | .manual => "manual"
  | .command => "command"
  | .system => "system"

/-- `Value` of a point, where `number` is the body of an analog one. -/
def pointValue (p : Point) (number : Number) : Value :=
  let quality := if p.invalid then .Bad else .Good
  match p.type with
  | .string | .json => ⟨DataType.String, .str p.valueString, quality⟩
  | .digital => ⟨DataType.Boolean, .bool (p.value ≠ .fin 0), quality⟩
  | .analog => ⟨DataType.Double, .num number, quality⟩

def analogProperties (p : Point) : List (String × PropertyValue) :=
  if p.type = .analog then
    [("alarmRange", .js p.alarmRange.toJs), ("frozen", .js (.bool p.frozen))]
  else []

/-- The properties of a point that is read without full info. Its notes are not in the
projection of the query unless there is a content filter. -/
def briefProperties (notes : JsVal) (p : Point) : List (String × PropertyValue) :=
  [("_id", .js (.num p._id)), ("valueString", .js (.str p.valueString)),
    ("alarmed", .js (.bool p.alarmed))] ++ analogProperties p ++
  [("alarmDisabled", .js p.alarmDisabled), ("annotation", .js p.annotation), ("notes", .js notes),
    ("origin", .js (.str (originText p.origin))), ("type", .js (.str (typeText p.type)))]

def describedProperties (p : Point) : List (String × PropertyValue) :=
  [("group1", .js (.str p.group1)), ("group2", .js (.str p.group2)),
    ("description", .js (.str p.description)),
    ("ungroupedDescription", .js (.str p.ungroupedDescription)), ("hiLimit", .js p.hiLimit.toJs),
    ("loLimit", .js p.loLimit.toJs), ("hysteresis", .js p.hysteresis.toJs),
    ("stateTextTrue", .js (.str p.stateTextTrue)), ("stateTextFalse", .js (.str p.stateTextFalse)),
    ("unit", .js (.str p.unit)), ("annotation", .js p.annotation), ("notes", .js p.notes),
    ("commandOfSupervised", .js (.num p.commandOfSupervised)),
    ("supervisedOfCommand", .js (.num p.supervisedOfCommand)),
    ("origin", .js (.str (originText p.origin)))]

def infoProperties (p : Point) : List (String × PropertyValue) :=
  [("_id", .js (.num p._id)), ("valueString", .js (.str p.valueString)),
    ("valueDefault", .js (.num p.valueDefault)), ("alarmed", .js (.bool p.alarmed))] ++
  analogProperties p ++ [("alarmDisabled", .js p.alarmDisabled)] ++ describedProperties p ++
  [("beepType", .js p.beepType.toJs), ("beepGroup1List", .groups p.beepGroup1List),
    ("type", .js (.str (typeText p.type)))]

def filteredProperties (p : Point) : List (String × PropertyValue) :=
  [("_id", .js (.num p._id)), ("valueString", .js (.str p.valueString)),
    ("valueDefault", .js (.num p.valueDefault)), ("alarmed", .js (.bool p.alarmed))] ++
  analogProperties p ++
  [("alarmDisabled", .js p.alarmDisabled), ("alarmState", .js (.num p.alarmState)),
    ("isEvent", .js (p.isEvent.elim .undefined .bool))] ++ describedProperties p ++
  [("timeTagAlarm", .date p.timeTagAlarm), ("priority", .js (.num p.priority)),
    ("type", .js (.str (typeText p.type)))]

def tagId (p : Point) : NodeId := ⟨.num (.fin opcIdTypeString), some (.str p.tag)⟩

/-- The result for a point found under the node that asks for it. -/
def pointResult (h : Host) (req : ReadRequest) (p : Point) : Result :=
  { statusCode := .Good
    nodeId := tagId p
    value := some (pointValue p (parseFloat (numToString p.value)))
    _Properties :=
      if req.info h then infoProperties p
      else briefProperties (if req.contentFilter.isSome then p.notes else .undefined) p
    sourceTimestamp := p.timeTag }

/-- The result for a point found by a filter alone. -/
def filteredResult (p : Point) : Result :=
  { statusCode := .Good
    nodeId := tagId p
    value := some (pointValue p p.value)
    _Properties := filteredProperties p
    sourceTimestamp := p.timeTagAtSource.elim .null .val
    serverTimestamp := p.timeTag }

/-- The system points anyone may read. -/
def exempt (p : Point) : Bool := [beepPointKey, cntUpdatesPointKey].contains p._id

/-- `node.NodeId.Id` is the tag or the key of the point. -/
def isNode (nodeId : NodeId) (p : Point) : Bool :=
  let id := nodeId.id.getD .undefined
  id.strictEq (.str p.tag) || id.strictEq (.num p._id)

/-- The result of a node among the documents found. -/
def nodeResult (h : Host) (s : Session) (req : ReadRequest) (found : List Point)
    (nodeId : NodeId) : Result :=
  match found.find? (isNode nodeId) with
  | none => { statusCode := .BadNotFound, nodeId := nodeId }
  | some p =>
    if !exempt p && !s.inGroup p.group1 then
      { statusCode := .BadUserAccessDenied, nodeId := nodeId }
    else pointResult h req p

/-- What is told of a command in the queue. -/
structure CommandAck where
  clientHandle : String
  value : Number
  statusCode : StatusCode
  sourceTimestamp : Option Date := none
  serverTimestamp : Option Date := none
  tag : String
  cancelReason : Option String := none
  deriving DecidableEq

inductive ReadReply where
  | status (serviceResult : StatusCode)
  | commandAck (answer : CommandAck)
  | results (list : List Result)
  | thrown
  deriving DecidableEq

def commandAck (s : Session) (clientHandle : String) (data : Command) : CommandAck :=
  let answer : CommandAck :=
    { clientHandle := clientHandle, value := data.value, statusCode := .BadWaitingForResponse
      tag := data.tag, cancelReason := data.cancelReason }
  if data.ack.isSome || data.cancelReason.isSome then
    { answer with
      statusCode := if data.ack = some true then .Good else .Bad
      sourceTimestamp := some data.timeTag
      serverTimestamp := some (data.ackTimeTag.getD s.now) }
  else answer

/-- Look for the acknowledge of a command: only the first handle counts. -/
def readAck (h : Host) (s : Session) (db : Db) (handle : JsVal) : ReadReply :=
  match handle with
  | .str clientHandle =>
    if codeUnits clientHandle < 24 then .status .BadRequestNotAllowed
    else match h.objectId handle with
      | none => .thrown
      | some _id => match db.commandsQueue.find? fun c => c._id = _id with
        | none => .thrown
        | some data => .commandAck (commandAck s clientHandle data)
  | _ => .status .BadRequestNotAllowed

/-- The answer from the documents found. -/
def answer (h : Host) (s : Session) (req : ReadRequest) (found : List Point) : ReadReply :=
  if found = [] then .status .GoodNoData
  else match req.nodesToRead with
    | some nodes => match nodes.mapM ReadNode.nodeId with
      -- reading the identifier of a node without NodeId throws
      | none => .status .BadInvalidState
      | some nodeIds => .results (nodeIds.map (nodeResult h s req found))
    | none => .results ((found.filter fun p => s.inGroup p.group1).map filteredResult)

def readRequest (h : Host) (s : Session) (db : Db) (req : ReadRequest) : ReadReply :=
  if req.ids = [] && req.contentFilter = none then .status .GoodNoData
  else match req.cmdHandles h with
    | handle :: _ => readAck h s db handle
    | [] => match search h req with
      | none => .thrown
      | some (query, sort) => match results db query sort with
        | none => .status .BadInvalidState
        | some found => answer h s req found

end Answer

end JsonScada.Server.Read
