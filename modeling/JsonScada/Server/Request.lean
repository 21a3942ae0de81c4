/- path: JsonScada/Server/Request
   source: src/server_realtime_auth/index.js, opc_codes.js, app/middlewares/authJwt.js
   digest: Sessions, rights, and the nodes of a write request. -/

import JsonScada.Model.Documents

set_option autoImplicit false
set_option relaxedAutoImplicit false

namespace JsonScada.Server.Request

open JsonScada.Lib.Binary64 JsonScada.Lib.EcmaScript JsonScada.Model.Documents

inductive StatusCode where
  | Good
  | GoodNoData
  | Bad
  | BadUnexpectedError
  | BadUserAccessDenied
  | BadNodeIdInvalid
  | BadNodeIdUnknown
  | BadNodeAttributesInvalid
  | BadNotFound
  | BadRequestNotAllowed
  | BadInvalidState
  | BadWaitingForResponse
  | BadServerNotConnected
  | BadHistoryOperationInvalid
  | BadHistoryOperationUnsupported
  deriving DecidableEq

namespace AttributeId

def Description : ℚ := 5
def EventNotifier : ℚ := 12
def Value : ℚ := 13
def ExtendedAlarmEventsAck : ℚ := 100000004

end AttributeId

namespace DataType

def Boolean : ℚ := 1
def Double : ℚ := 11
def String : ℚ := 12

end DataType

namespace Operand

def Attribute : ℚ := 598
def Literal : ℚ := 595

end Operand

namespace FilterOperator

def Equals : ℚ := 0
def LessThanOrEqual : ℚ := 5
def InList : ℚ := 9

end FilterOperator

namespace TimestampsToReturn

def Source : ℚ := 0
set_option linter.dupNamespace false in
def Server : ℚ := 1
def Neither : ℚ := 3

end TimestampsToReturn

namespace ServiceCode

def ReadRawModifiedDetails : ℚ := 647

end ServiceCode

def NamespaceMongodb : ℚ := 2

def opcIdTypeNumber : ℚ := 0
def opcIdTypeString : ℚ := 1

/-- What the language and the database driver make of values a client is free to send. -/
structure Host where
  /-- `String(v)` of an object or an array -/
  objectText : String → List Char
  /-- an object in the place of a text in a filter, or `none` when the driver rejects it -/
  objectFilter : String → Option (String → Bool)
  /-- `new ObjectId(v)`, or `none` when it throws -/
  objectId : JsVal → Option String
  /-- a value the driver rejects in the list of an `$in` -/
  inRejected : JsVal → Bool
  /-- whether a document is in the filter that sets one field or operator to a value -/
  fieldMatch : String → JsVal → Point → Bool
  /-- the driver or the database rejects such a filter -/
  fieldRejected : String → JsVal → Bool
  /-- the instant the driver sends for `new Date(v)` -/
  date : JsVal → Date
  /-- `setHours(getHours() - 1)` in the zone of the server -/
  hourAgo : Date → Date
  /-- the integer the driver sends for a limit, or `none` when it is rejected -/
  limit : JsVal → Option ℤ
  /-- `acknowledged` in the result of a write -/
  acknowledged : Bool
  /-- the key the driver gives to the next document of a collection of some size -/
  freshId : ℕ → String

namespace Host

/-- A host for plain values: objects have no text of their own and are no filters, times
are numbers, and filters are on the groups. -/
def plain : Host :=
  { objectText := fun _ => "[object Object]".toList
    objectFilter := fun _ => none
    inRejected := fun _ => false
    fieldMatch := fun name v p =>
      if name = "group1" then v = .str p.group1
      else if name = "group2" then v = .str p.group2
      else false
    fieldRejected := fun _ _ => false
    date := fun v => match v with
      | .num (.fin q) => truncate q
      | _ => 0
    hourAgo := fun t => t - 3600000
    limit := fun v => match v with
      | .num (.fin q) => some (truncate q)
      | _ => none
    objectId := fun v => match v with
      | .str s => if s.length = 24 then some s else none
      | _ => none
    acknowledged := true
    freshId := fun n => toString n }

variable (h : Host)

def text : JsVal → List Char
  | .undefined => "undefined".toList
  | .null => "null".toList
  | .bool b => (if b then "true" else "false").toList
  | .num x => numToString x
  | .str s => s.toList
  | .obj j => h.objectText j

def number : JsVal → Number
  | .obj j => stringToNumber (h.objectText j)
  | v => v.toNumber

/-- `v == t` for a text `t` that is not a number. -/
def looseEqText (v : JsVal) (t : String) : Bool := match v with
  | .str s => s = t
  | .obj j => h.objectText j = t.toList
  | _ => false

/-- `v == n` for a number `n`. -/
def looseEq (v : JsVal) (n : ℚ) : Bool :=
  match v with
  | .undefined | .null => false
  | v => (h.number v).eqv (.fin n)

def parseInt (v : JsVal) : Number := Lib.EcmaScript.parseInt (h.text v)

/-- `v & mask` is not zero. -/
def hasBit (v : JsVal) (mask : ℕ) : Bool := toUint32 (h.number v) &&& mask ≠ 0

end Host

/-- The rights in the user's token. -/
structure Rights where
  group1List : List String
  ackEvents : Bool
  ackAlarms : Bool
  disableAlarms : Bool
  enterAnnotations : Bool
  enterLimits : Bool
  enterNotes : Bool
  substituteValues : Bool
  deriving DecidableEq

/-- What the command checks read of a role of the user in the database. -/
structure Role where
  sendCommands : Bool
  group1CommandList : List String
  deriving DecidableEq

/-- A request whose token was accepted, with the clock reading while it is served. -/
structure Session where
  authentication : Bool
  username : String
  rights : Rights
  roles : List Role
  originatorIpAddress : String
  now : Date
  deriving DecidableEq

namespace Session

/-- The `group1` condition of a filter: none without authentication or with an empty list. -/
def inGroup (s : Session) (group1 : String) : Bool :=
  !s.authentication || s.rights.group1List = [] || s.rights.group1List.contains group1

/-- Rights are not tested without authentication. -/
def may (s : Session) (right : Rights → Bool) : Bool := !s.authentication || right s.rights

def canSendCommands (s : Session) : Bool := s.roles.any fun r => r.sendCommands

/-- The loop over the roles: a list denies in principle, a list with the group allows. -/
def canSendLoop (group1 : String) : Bool → List Role → Bool
  | canCmd, [] => canCmd
  | canCmd, r :: rs =>
    let canCmd := if r.group1CommandList.length > 0 then false else canCmd
    if r.group1CommandList.contains group1 then true else canSendLoop group1 canCmd rs

def canSendCommandTo (s : Session) (group1 : String) : Bool :=
  if s.roles = [] then false else canSendLoop group1 true s.roles

theorem inGroup_eq_true {s : Session} (ha : s.authentication = true)
    (hg : s.rights.group1List ≠ []) {group1 : String} :
    s.inGroup group1 = true ↔ group1 ∈ s.rights.group1List := by
  simp [inGroup, ha, hg]

end Session

/-- `NodeId` of a node; a missing `Id` is no value at all. -/
structure NodeId where
  idType : JsVal
  id : Option JsVal
  deriving DecidableEq

/-- `_Properties` of a written value. A property that is not there reads as undefined,
but the code asks of two of them whether they are there. -/
structure Properties where
  alarmDisabled : JsVal := .undefined
  annotation : JsVal := .undefined
  loLimit : JsVal := .undefined
  hiLimit : JsVal := .undefined
  hysteresis : JsVal := .undefined
  notes : JsVal := .undefined
  hasSubstituted : Bool := false
  newValue : Option JsVal := none
  deriving DecidableEq

/-- `Value` of a node. -/
structure WriteValue where
  type : JsVal := .undefined
  body : JsVal := .undefined
  properties : Option Properties := none
  deriving DecidableEq

/-- One of NodesToWrite; `event_id` is read from the `_Properties` of the node itself. -/
structure Node where
  attributeId : Option JsVal
  nodeId : Option NodeId := none
  value : Option WriteValue := none
  event_id : Option JsVal := none
  deriving DecidableEq

/-- One of NodesToRead. -/
structure ReadNode where
  attributeId : Option JsVal := none
  clientHandle : Option JsVal := none
  nodeId : Option NodeId := none
  deriving DecidableEq

/-- One of FilterOperands: an object with `FilterOperand` and `Value`, or another value. -/
inductive FilterOperand where
  | object (filterOperand value : JsVal)
  | other (v : JsVal)
  deriving DecidableEq

namespace FilterOperand

/-- `FilterOperand` and `Value` of an operand: an exception where there is no operand, and
no values where it is not an object. -/
def read : Option FilterOperand → Option (JsVal × JsVal)
  | none | some (other .undefined) | some (other .null) => none
  | some (other _) => some (.undefined, .undefined)
  | some (object filterOperand value) => some (filterOperand, value)

/-- The operand itself as a value; it equals no other one when it is an object. -/
def toJs : FilterOperand → JsVal
  | object _ _ => .obj ""
  | other v => v

end FilterOperand

/-- One of ContentFilter. -/
structure ContentFilter where
  filterOperator : JsVal
  filterOperands : Option (List FilterOperand)
  deriving DecidableEq

/-- A filter variable: null, a filter the driver rejects, or one it evaluates. -/
inductive Find where
  | null
  | rejected
  | filter (q : Point → Bool)

namespace Host

variable (h : Host)

/-- The condition on a text field that a value stands for in a filter. -/
def textFilter (v : JsVal) : Option (String → Bool) :=
  match v with
  | .str s => some fun t => t = s
  | .obj j => h.objectFilter j
  | _ => some fun _ => false

/-- The variable findPoint: the filter on the key or the tag that a NodeId stands for. It
stays null for another IdType. -/
def findPoint (n : NodeId) : Find :=
  let id := n.id.getD .undefined
  if n.idType = .num (.fin opcIdTypeNumber) then .filter fun p => p._id = h.parseInt id
  else if n.idType = .num (.fin opcIdTypeString) then
    match h.textFilter id with
    | some q => .filter fun p => q p.tag
    | none => .rejected
  else .null

end Host

/-- What becomes of the request after a node: the next node, with what is pushed to the
results, a response sent at once, or an exception. -/
inductive Flow where
  | next (results : List StatusCode)
  | reply (serviceResult : StatusCode)
  | thrown
  deriving DecidableEq

end JsonScada.Server.Request
