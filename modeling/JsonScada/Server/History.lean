/- path: JsonScada/Server/History
   source: src/server_realtime_auth/index.js, HISTORY READ SERVICE
   digest: History read requests: the events of soeData, and the values of the historian. -/

import JsonScada.Server.Database
import Mathlib.Data.Prod.Lex
import Mathlib.Data.String.Basic

set_option autoImplicit false
set_option relaxedAutoImplicit false

namespace JsonScada.Server.History

open JsonScada.Lib.Binary64 JsonScada.Lib.EcmaScript JsonScada.Lib.Collection
open JsonScada.Model.Documents JsonScada.Server.Request JsonScada.Server.Database

structure ParameterData where
  startTime : Option JsVal := none
  endTime : Option JsVal := none
  numValuesPerNode : Option JsVal := none
  isReadModified : Option JsVal := none
  deriving DecidableEq

structure HistoryReadDetails where
  parameterTypeId : Option JsVal
  parameterData : Option ParameterData := none
  deriving DecidableEq

structure HistoryReadRequest where
  historyReadDetails : Option HistoryReadDetails
  timestampsToReturn : Option JsVal := none
  nodesToRead : Option (List ReadNode) := none
  contentFilter : Option (List ContentFilter) := none
  «namespace» : Option JsVal := none
  /-- `AggregateType` of an AggregateFilter that is not null -/
  aggregateType : Option JsVal := none
  deriving DecidableEq

namespace HistoryReadRequest

variable (h : Host) (s : Session) (req : HistoryReadRequest)

def parameterData : ParameterData := (req.historyReadDetails.bind (·.parameterData)).getD {}

def asksTimestamps (which : ℚ) : Bool := req.timestampsToReturn = some (.num (.fin which))

def returnServerTimestamp : Bool :=
  !req.asksTimestamps TimestampsToReturn.Source && !req.asksTimestamps TimestampsToReturn.Neither

def returnSourceTimestamp : Bool :=
  !req.asksTimestamps TimestampsToReturn.Server && !req.asksTimestamps TimestampsToReturn.Neither

/-- The identifier of a node that asks for a value by tag. -/
def valueId (n : ReadNode) : Option JsVal :=
  if n.attributeId.any (h.looseEq · AttributeId.Value) then
    n.nodeId.bind fun nodeId =>
      if nodeId.idType = .num (.fin opcIdTypeString) then nodeId.id else none
  else none

/-- The variable `tags`: identifiers between quotes. -/
def tags : List (List Char) :=
  (req.nodesToRead.getD []).filterMap fun n =>
    (valueId h n).map fun id => '\'' :: (h.text id ++ ['\''])

/-- Default read is last hour. -/
def startDateTime : JsVal :=
  req.parameterData.startTime.getD (.str (String.ofList (toISOString (h.hourAgo s.now))))

def endDateTime : JsVal :=
  req.parameterData.endTime.getD (.str (String.ofList (toISOString s.now)))

/-- The response that is sent before any database is asked. -/
def refused : Option StatusCode :=
  if req.historyReadDetails.bind (·.parameterTypeId) ≠
      some (.num (.fin ServiceCode.ReadRawModifiedDetails)) then some .BadHistoryOperationInvalid
  else if req.nodesToRead = none && req.contentFilter = none then some .GoodNoData
  else if req.nodesToRead.isSome && req.tags h = [] then some .GoodNoData
  else if req.parameterData.isReadModified = some (.bool true) then
    some .BadHistoryOperationUnsupported
  else none

def isCount : Bool := req.aggregateType = some (.str "Count")

end HistoryReadRequest

section Events

/-- The variables group1Filter and filterPriority. -/
structure Filtering where
  group1Filter : List String := []
  priority : Option JsVal := none
  deriving DecidableEq

/-- A literal text among the operands; an operand that is null has no properties to read. -/
def literalGroup (e : FilterOperand) : Option (List String) := do
  let (kind, value) ← FilterOperand.read (some e)
  match value with
  | .str group1 => if kind = .num (.fin Operand.Literal) then some [group1] else some []
  | _ => some []

/-- The priority filter takes the operand itself, the group filter the values of all. -/
def filterStep (st : Filtering) (f : ContentFilter) : Option Filtering :=
  if f.filterOperator = .num (.fin FilterOperator.LessThanOrEqual) then do
    let operands ← f.filterOperands
    some { st with priority := some ((operands[0]?.map FilterOperand.toJs).getD .undefined) }
  else if f.filterOperator = .num (.fin FilterOperator.InList) then do
    let groups ← (← f.filterOperands).mapM literalGroup
    some { st with group1Filter := st.group1Filter ++ groups.flatten }
  else some st

def filtering (req : HistoryReadRequest) : Option Filtering :=
  (req.contentFilter.getD []).foldlM filterStep ({} : Filtering)

variable (h : Host) (s : Session) (req : HistoryReadRequest)

/-- A bound on the time: none for null. -/
def bound (given : Option JsVal) (default : Date) : Option Date :=
  match given with
  | none => some default
  | some .null => none
  | some v => some (h.date v)

def startBound : Option Date := bound h req.parameterData.startTime (h.hourAgo s.now)

def endBound : Option Date := bound h req.parameterData.endTime s.now

/-- The time the dates of the request are about, and the other one. -/
def times (e : SoeEvent) : Option Date × Option Date :=
  if req.returnServerTimestamp then (some e.timeTag, e.timeTagAtSource)
  else (e.timeTagAtSource, some e.timeTag)

/-- Whether a date is not before (`$gte`) or not after (`$lte`) a bound, if there is one. -/
def inTime (t : Option Date) (first last : Option Date) : Bool :=
  first.all (fun b => t.any fun t => b ≤ t) && last.all fun b => t.any fun t => t ≤ b

def inPriority (v : JsVal) (e : SoeEvent) : Bool := match v with
  | .num x => e.priority.le x
  | _ => false

def accepts (st : Filtering) (e : SoeEvent) : Bool :=
  inTime (times req e).1 (startBound h s req) (endBound h s req) &&
    (st.group1Filter = [] || st.group1Filter.contains e.group1 ||
      (req.tags h).contains e.tag.toList) &&
    st.priority.all (inPriority · e) &&
    -- when realtime query, filter out eliminated events
    e.ack ≤ (if !req.isCount && (endBound h s req).isSome then 2 else 1)

def sortKey (r : SoeDoc × ℕ) : WithBot Date ×ₗ WithBot Date ×ₗ String :=
  let t := times req r.1.event
  toLex (dateKey t.1, toLex (dateKey t.2, r.1.event.tag))

/-- The order of the answer: the oldest first when both bounds are given. -/
def sortRows (rows : List (SoeDoc × ℕ)) : List (SoeDoc × ℕ) :=
  if (startBound h s req).isSome && (endBound h s req).isSome then sortBy (sortKey req) rows
  else sortBy (fun r => OrderDual.toDual (sortKey req r)) rows

/-- The events asked for with their counts, before the limit. -/
def rows (db : Db) (st : Filtering) : List (SoeDoc × ℕ) :=
  let docs := db.soeData.filter fun d => accepts h s req st d.event
  sortRows h s req (if req.isCount then lastByKey (fun d => d.event.tag) docs
    else docs.map fun d => (d, 1))

/-- What the limit lets through. -/
inductive Limit where
  | rejected
  | all
  | first (n : ℕ)
  deriving DecidableEq

def Limit.apply {α : Type} : Limit → List α → List α
  | rejected, _ => []
  | all, l => l
  | first n, l => l.take n

/-- A find takes zero for no limit and the absolute value of the others, a stage of an
aggregation takes only a positive one. -/
def limitValues : Limit :=
  match req.parameterData.numValuesPerNode.elim (some 10000) h.limit with
  | none => .rejected
  | some n =>
    if req.isCount then if 0 < n then .first n.natAbs else .rejected
    else if n = 0 then .all else .first n.natAbs

/-- One of the results of procArrayResults. -/
structure EventResult where
  tag : String
  eventText : String
  quality : StatusCode
  count : ℕ
  serverTimestamp : Date
  sourceTimestamp : Option Date
  sourceTimestampOk : Option Bool
  acknowledge : ℕ
  group1 : String
  description : String
  priority : Number
  pointKey : Number
  event_id : String
  deriving DecidableEq

def eventResult (r : SoeDoc × ℕ) : EventResult :=
  let e := r.1.event
  { tag := e.tag, eventText := e.eventText, quality := if e.invalid then .Bad else .Good
    count := r.2, serverTimestamp := e.timeTag, sourceTimestamp := e.timeTagAtSource
    sourceTimestampOk := e.timeTagAtSourceOk, acknowledge := e.ack, group1 := e.group1
    description := e.description, priority := e.priority, pointKey := e.pointKey
    event_id := r.1._id }

end Events

section Values

/-- A row of the hist table. -/
structure HistRow where
  tag : String
  value : Number
  flags : String
  time_tag : Date
  time_tag_at_source : Option Date
  deriving DecidableEq

/-- An element of HistoryData; a time that is not returned is missing. -/
structure HistoryData where
  type : ℚ
  body : JsVal
  quality : StatusCode
  sourceTimestamp : Option (Option Date)
  serverTimestamp : Option Date
  deriving DecidableEq

structure HistoryReadResult where
  statusCode : StatusCode := .BadNotFound
  nodeId : Option NodeId := none
  historyData : List HistoryData := []
  deriving DecidableEq

variable (h : Host) (s : Session) (req : HistoryReadRequest)

def histQuery : List Char :=
  let tags := List.intercalate [','] (req.tags h)
  let start := h.text (req.startDateTime h s)
  let stop := h.text (req.endDateTime s)
  if (req.startDateTime h s).strictEq (req.endDateTime s) then
    ("SELECT tag as tag, last(value, time_tag) as value, last(flags, time_tag) as flags, " ++
      "last(time_tag, time_tag) as time_tag, " ++
      "last(time_tag_at_source, time_tag) as time_tag_at_source from hist where time_tag<='").toList
      ++ start ++ "' and time_tag> (TIMESTAMP '".toList ++ start ++
      "' - INTERVAL '0.5 day') and tag in (".toList ++ tags ++ ") group by tag".toList
  else
    ("SELECT tag, value, flags, time_tag, time_tag_at_source FROM hist " ++
      "WHERE time_tag>='").toList ++ start ++ "' AND time_tag<='".toList ++ stop ++
      "' AND tag IN (".toList ++ tags ++ ") ORDER BY tag asc, time_tag ASC".toList

def flag (row : HistRow) (i : ℕ) : Option Char := row.flags.toList[i]?

def historyData (row : HistRow) : HistoryData :=
  let isDigital : Bool := flag row 2 = some '0'
  { type := if isDigital then DataType.Boolean else DataType.Double
    body := if isDigital then .bool (row.value ≠ .fin 0) else .num row.value
    quality := if flag row 0 = some '0' then .Good else .Bad
    sourceTimestamp := if req.returnSourceTimestamp then some row.time_tag_at_source else none
    serverTimestamp := if req.returnServerTimestamp then some row.time_tag else none }

/-- The rows of a node: those with its tag. Only a node with an attribute has a result. -/
def historyReadResult (rows : List HistRow) (n : ReadNode) : HistoryReadResult :=
  match HistoryReadRequest.valueId h n with
  | none => {}
  | some id =>
    let own := rows.filter fun row => id.strictEq (.str row.tag)
    { statusCode := if own = [] then .BadNotFound else .Good
      nodeId := n.nodeId
      historyData := own.map (historyData req) }

end Values

inductive HistoryReply where
  | status (serviceResult : StatusCode)
  | events (list : List EventResult)
  | values (list : List HistoryReadResult)
  | thrown
  deriving DecidableEq

section Request

variable (h : Host) (s : Session)

/-- The answer from the events found: those of other groups are passed over. -/
def procArrayResults (found : List (SoeDoc × ℕ)) : HistoryReply :=
  if found = [] then .status .GoodNoData
  else .events ((found.filter fun r => s.inGroup r.1.event.group1).map eventResult)

/-- Events: a query of the soeData collection. -/
def readEvents (db : Db) (req : HistoryReadRequest) : HistoryReply :=
  match filtering req with
  | none => .thrown
  | some st => procArrayResults s ((limitValues h req).apply (rows h s req db st))

/-- Values: a query of the historian, where `query` gives its rows unless it fails. -/
def readValues (query : List Char → Option (List HistRow)) (req : HistoryReadRequest) :
    HistoryReply :=
  match query (histQuery h s req), req.nodesToRead with
  | none, _ => .status .BadServerNotConnected
  | some _, none => .thrown
  | some rows, some nodes =>
    .values ((nodes.filter fun n => n.attributeId.isSome).map (historyReadResult h req rows))

def historyRead (db : Db) (query : List Char → Option (List HistRow))
    (req : HistoryReadRequest) : HistoryReply :=
  match req.refused h with
  | some code => .status code
  | none =>
    if req.namespace = some (.num (.fin NamespaceMongodb)) then readEvents h s db req
    else readValues h s query req

end Request

end JsonScada.Server.History
