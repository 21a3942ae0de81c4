/- path: JsonScada/OpcUaServer/Startup
   source: src/OPC-UA-Server/index.js
   digest: The servers of an instance: the find, the variables and the change streams. -/

import JsonScada.Lib.Machine
import JsonScada.OpcUaServer.Convert

set_option autoImplicit false
set_option relaxedAutoImplicit false

namespace JsonScada.OpcUaServer.Startup

open JsonScada.Lib.Binary64
open JsonScada.Model.Documents (Date)
open JsonScada.OpcUaServer.Convert

structure Connection where
  protocolConnectionNumber : Number
  name : String
  commandsEnabled : Bool
  topics : List String
  deriving DecidableEq

/-- The documents of the initial find. -/
def query (connection : Connection) (doc : RtData) : Bool :=
  doc.protocolSourceConnectionNumber ≠ connection.protocolConnectionNumber &&
    (connection.topics = [] || doc.group1.any fun g => connection.topics.contains g) &&
    (connection.commandsEnabled || doc.origin ≠ "command") && Number.lt (.fin 0) doc._id

inductive Status where
  | good
  | bad
  deriving DecidableEq

/-- What `setValueFromSource` is given, and the variable holds. -/
structure Held where
  variant : Conversion
  status : Status
  sourceTimestamp : Date

section Variables

variable (host : Host)

/-- A conversion without a data type makes no variable, and is no value for one. -/
def heldOf (doc : RtData) : Option Held :=
  ((convertValueVariant host doc).filter fun v => v.dataType.isSome).map fun v =>
    ⟨v, if doc.invalid then .bad else .good, doc.timeTagAtSource.getD 0⟩

/-- The variable that is created of a document that is no command. -/
def variableOf (doc : RtData) : Option Held :=
  if doc.origin = "command" then none else heldOf host doc

/-- A change sets the variable of its tag, if there is one. -/
def setValue (doc : RtData) (metrics : String → Option Held) : String → Option Held :=
  match metrics doc.tag, heldOf host doc with
  | some _, some h => Function.update metrics doc.tag (some h)
  | _, _ => metrics

variable {host} {doc : RtData} {metrics : String → Option Held}

theorem setValue_self {h : Held} (hheld : heldOf host doc = some h) :
    setValue host doc metrics doc.tag = (metrics doc.tag).map fun _ => h := by
  cases hm : metrics doc.tag with
  | none => simp [setValue, hm]
  | some old => simp [setValue, hm, hheld]

theorem setValue_of_ne {tag : String} (htag : tag ≠ doc.tag) :
    setValue host doc metrics tag = metrics tag := by
  cases hm : metrics doc.tag with
  | none => simp [setValue, hm]
  | some old => cases hheld : heldOf host doc <;> simp [setValue, hm, hheld, htag]

end Variables

section Streams

/-- `csFilterGroup1`: the groups of the filter; `none` asks that there is a group. -/
abbrev Filter := Option (List String)

def filterOf (allGroups1ToFilterCS : List String) : Filter :=
  if 0 < allGroups1ToFilterCS.length then some allGroups1ToFilterCS else none

def Filter.admits (filter : Filter) (doc : RtData) : Bool :=
  (match filter with
    | none => doc.group1.isSome
    | some groups => doc.group1.any fun g => groups.contains g) &&
    doc._id ≠ .fin (-2) && doc._id ≠ .fin (-1)

/-- How far the start of a server has come: before and after its topics are added to the shared
list, with the result of its find, with its variables, and with its stream open. The events of a
stream that are not delivered yet carry their documents. -/
inductive Phase where
  | starting
  | finding
  | found (res : String → Option RtData)
  | created (filter : Filter)
  | watching (filter : Filter) (queue : List RtData)

/-- A stream that is open records the updates its filter admits. -/
def Phase.record (doc : RtData) : Phase → Phase
  | .watching filter queue =>
    .watching filter (if filter.admits doc then queue ++ [doc] else queue)
  | phase => phase

end Streams

section Running

variable {ι : Type} [DecidableEq ι]

/-- The documents by their tags, and the servers by their connections. -/
structure State (ι : Type) where
  realtimeData : String → Option RtData
  allGroups1ToFilterCS : List String := []
  phase : ι → Phase := fun _ => .starting
  metrics : ι → String → Option Held := fun _ _ => none

inductive Event (ι : Type) where
  /-- an update of the value fields of a document -/
  | update (doc : RtData)
  | register (i : ι)
  | find (i : ι)
  | create (i : ι)
  | watch (i : ι)
  /-- the document of an event is looked up, while it waits at a place of the stream -/
  | lookup (i : ι) (place : ℕ)
  | deliver (i : ι)

/-- Only value fields differ. -/
def IsValueUpdate (old doc : RtData) : Prop :=
  doc._id = old._id ∧ doc.tag = old.tag ∧ doc.type = old.type ∧ doc.group1 = old.group1 ∧
    doc.origin = old.origin ∧
    doc.protocolSourceConnectionNumber = old.protocolSourceConnectionNumber

instance (old doc : RtData) : Decidable (IsValueUpdate old doc) :=
  inferInstanceAs (Decidable (_ ∧ _ ∧ _ ∧ _ ∧ _ ∧ _))

/-- One step of the servers and of the database. -/
def step (host : Host) (connection : ι → Connection) (s : State ι) : Event ι → Option (State ι)
  | .update doc =>
    match s.realtimeData doc.tag with
    | none => none
    | some old =>
      if IsValueUpdate old doc then
        some { s with
          realtimeData := Function.update s.realtimeData doc.tag (some doc)
          phase := fun i => (s.phase i).record doc }
      else none
  | .register i =>
    match s.phase i with
    | .starting => some { s with
        allGroups1ToFilterCS := s.allGroups1ToFilterCS ++ (connection i).topics
        phase := Function.update s.phase i .finding }
    | _ => none
  | .find i =>
    match s.phase i with
    | .finding => some { s with
        phase := Function.update s.phase i
          (.found fun tag => (s.realtimeData tag).filter (query (connection i))) }
    | _ => none
  | .create i =>
    match s.phase i with
    | .found res => some { s with
        phase := Function.update s.phase i (.created (filterOf s.allGroups1ToFilterCS))
        metrics := Function.update s.metrics i fun tag => (res tag).bind (variableOf host) }
    | _ => none
  | .watch i =>
    match s.phase i with
    | .created filter => some { s with
        phase := Function.update s.phase i (.watching filter []) }
    | _ => none
  | .lookup i place =>
    match s.phase i with
    | .watching filter queue => some { s with
        phase := Function.update s.phase i (.watching filter
          (queue.modify place fun doc => (s.realtimeData doc.tag).getD doc)) }
    | _ => none
  | .deliver i =>
    match s.phase i with
    | .watching filter (doc :: queue) => some { s with
        phase := Function.update s.phase i (.watching filter queue)
        metrics := fun j => setValue host doc (s.metrics j) }
    | _ => none

/-- The state before the servers are started. -/
def started (realtimeData : List RtData) : State ι where
  realtimeData := fun tag => realtimeData.find? fun doc => doc.tag = tag

end Running

end JsonScada.OpcUaServer.Startup
