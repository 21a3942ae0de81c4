/- path: JsonScada/IccpServer/Sessions
   source: src/iccp/iccp-server/main.go
   digest: The running server: its clients, the changes pending for them, and what they are given. -/

import JsonScada.IccpServer.Server
import JsonScada.Lib.Coalescing
import JsonScada.Lib.Machine
import Mathlib.Data.List.Sort
import Mathlib.Data.String.Basic

set_option autoImplicit false
set_option relaxedAutoImplicit false

namespace JsonScada.IccpServer.Sessions

open JsonScada.Lib.Golang
open JsonScada.Lib.Coalescing (applyAll)
open JsonScada.Lib.Collection (findLast?)
open JsonScada.Model.Documents (Date)
open JsonScada.IccpServer.Points JsonScada.IccpServer.Server

section DataSets

/-- The keys of `domain.IndicationPoints`. -/
def DataModel.indicationNames (m : DataModel) (domain : String) : List String :=
  ((m.points.filter fun p => p.kind ≠ .control && p.ref.domain = domain).map
    fun p => p.ref.item).dedup

structure DatasetDef where
  name : String
  items : List ObjectRef
  deriving DecidableEq

/-- `fmt.Sprintf("%04d", n)` -/
def pad4 (n : ℕ) : String :=
  let digits := Nat.toDigits 10 n
  String.ofList (List.replicate (4 - digits.length) '0' ++ digits)

def maxDatasetItems : ℕ := 50000

/-- The data sets of a domain, of the names of its points as a loop over the map gives them. -/
def datasetsOf (datasetChunkSize : ℤ) (domain : String) (names : List String) : List DatasetDef :=
  let dsPrefix := domain ++ "/" ++ sanitizePointName domain ++ "_DataSet"
  if 0 < datasetChunkSize ∧ datasetChunkSize < names.length then
    ((names.insertionSort (· ≤ ·)).toChunks datasetChunkSize.toNat).zipIdx.map fun (chunk, i) =>
      ⟨dsPrefix ++ "_" ++ pad4 (i + 1), chunk.map (⟨domain, ·⟩)⟩
  else
    -- the members over the limit are cut before the sort
    let items := ((names.take maxDatasetItems).insertionSort (· ≤ ·)).map (ObjectRef.mk domain)
    if items = [] then [] else [⟨dsPrefix, items⟩]

/-- The members of a data set are points of its domain. -/
theorem domain_of_mem_items {datasetChunkSize : ℤ} {domain : String} {names : List String}
    {ds : DatasetDef} (hds : ds ∈ datasetsOf datasetChunkSize domain names) {item : ObjectRef}
    (hitem : item ∈ ds.items) : item.domain = domain := by
  rw [datasetsOf] at hds
  dsimp only at hds
  split_ifs at hds
  · obtain ⟨chunk, -, rfl⟩ := List.mem_map.mp hds
    obtain ⟨name, -, rfl⟩ := List.mem_map.mp hitem
    rfl
  · cases hds
  · obtain rfl := List.mem_singleton.mp hds
    obtain ⟨name, -, rfl⟩ := List.mem_map.mp hitem
    rfl

end DataSets

section Starting

/-- What the driver starts with, and what the tase2 package makes of a request. -/
structure Setup where
  host : Host
  start : Date
  connections : List ProtocolConnection
  realtimeData : List RtData
  datasetChunkSize : ℤ
  /-- the order in which a loop over a map takes its keys -/
  keyOrder : List String → List String
  keyOrder_perm : ∀ names, (keyOrder names).Perm names
  /-- a client's write under a name is given to the write handler -/
  reachesHandler : ObjectRef → Bool

def Setup.allTags (setup : Setup) : List RtData := load setup.connections setup.realtimeData

def Setup.dataModel (setup : Setup) : DataModel :=
  build setup.host setup.start setup.connections setup.allTags

def Setup.datasetDefs (setup : Setup) : List DatasetDef :=
  setup.dataModel.domains.flatMap fun domain => datasetsOf setup.datasetChunkSize domain
    (setup.keyOrder (DataModel.indicationNames setup.dataModel domain))

end Starting

section Running

/-- The server of an associated client, by its identity. -/
structure Client where
  id : ℕ
  connection : ProtocolConnection
  deriving DecidableEq

/-- A change of a point that is pending for a client. -/
structure Pending where
  client : Client
  ip : Point
  value : DataValue
  deriving DecidableEq

/-- The map of maps of the pending changes has it at this key. -/
def Pending.key (u : Pending) : Client × Point := (u.client, u.ip)

/-- What leaves the driver. -/
inductive Output where
  /-- the domains and data sets an associated client has access to -/
  | access (client : Client) (domains : List String) (dataSets : List DatasetDef)
  | value (client : Client) (ref : ObjectRef) (value : DataValue)
  | report (client : Client) (ip : Point) (value : DataValue)
  /-- a command inserted for a client, and the document of its tag at that moment -/
  | command (client : Client) (command : Command) (stored : Option RtData)

structure State where
  realtimeData : Map String RtData
  entries : List Client := []
  pending : List Pending := []
  /-- the values of the points of the data model -/
  held : Point → DataValue := Point.value
  outputs : List Output := []

inductive Event where
  /-- a document of `realtimeData` is written or deleted -/
  | store (doc : RtData)
  | delete (tag : String)
  /-- the change stream gives a document to the driver -/
  | deliver (now : Date) (doc : RtData)
  /-- `flushPendingChanges`, taking the pending changes in an order -/
  | flush (order : List Pending)
  | associate (client : Client)
  | disconnect (client : Client)
  | read (client : Client) (ref : ObjectRef)
  | write (client : Client) (now : Date) (ref : ObjectRef) (value : DataValue)

/-- The domains in the bilateral table of a client; without a table it has access to all. -/
def accessDomains (m : DataModel) (conn : ProtocolConnection) : List String :=
  let bilateralTable := if conn.remoteApTitle ≠ "" then some m.domains else none
  bilateralTable.getD m.domains

/-- The topics of a connection let the group pass. -/
def admits (conn : ProtocolConnection) (group1 : String) : Bool :=
  conn.topics = [] || contains conn.topics group1

/-- The change becomes the one pending for each client whose topics let it pass. -/
def bufferChange (entries : List Client) (group1 : String) (ip : Point) (value : DataValue)
    (pending : List Pending) : List Pending :=
  (entries.filter fun client => admits client.connection group1).foldl
    (fun pending client => assign Pending.key ⟨client, ip, value⟩ pending) pending

/-- An order the two loops of a flush can take: client by client. -/
def IsOrder (pending order : List Pending) : Prop :=
  order.Perm pending ∧
    order = (order.map Pending.client).dedup.flatMap fun c => order.filter fun u => u.client = c

instance (pending order : List Pending) : Decidable (IsOrder pending order) :=
  inferInstanceAs (Decidable (_ ∧ _))

/-- `UpdateOnlineValue` for each pending change. -/
def applyUpdates (held : Point → DataValue) (order : List Pending) : Point → DataValue :=
  applyAll Pending.ip Pending.value held order

/-- The identity of a server that is not in use, nor kept by a pending change. -/
def IsNew (s : State) (client : Client) : Prop :=
  client ∉ s.entries ∧ ∀ u ∈ s.pending, u.client ≠ client

instance (s : State) (client : Client) : Decidable (IsNew s client) :=
  inferInstanceAs (Decidable (_ ∧ _))

/-- The documents the change stream is filtered to. -/
def streamed (connections : List ProtocolConnection) (doc : RtData) : Bool :=
  topicList connections = [] || (topicList connections).contains doc.group1

/-- One step of the driver and its surroundings. -/
def step (setup : Setup) (s : State) : Event → Option State
  | .store doc => some { s with realtimeData := s.realtimeData.set doc.tag doc }
  | .delete tag => some { s with realtimeData := Function.update s.realtimeData tag none }
  | .deliver now doc =>
    if streamed setup.connections doc then
      match onChange setup.host now setup.connections setup.dataModel doc with
      | .skip => some s
      | .writeValue ref value =>
        some { s with held := fun p =>
          if s.entries ≠ [] ∧ p.kind = .control ∧ p.ref = ref then value else s.held p }
      | .update ip value =>
        some { s with pending := bufferChange s.entries doc.group1 ip value s.pending }
    else none
  | .flush order =>
    if IsOrder s.pending order then
      some { s with
        pending := []
        held := applyUpdates s.held order
        outputs := s.outputs ++ order.map fun u => .report u.client u.ip u.value }
    else none
  | .associate client =>
    if client.connection ∈ setup.connections ∧ IsNew s client then
      some { s with
        entries := s.entries ++ [client]
        outputs := s.outputs ++ [.access client (accessDomains setup.dataModel client.connection)
          setup.datasetDefs] }
    else none
  | .disconnect client => some { s with entries := s.entries.filter (· ≠ client) }
  | .read client ref =>
    if client ∈ s.entries ∧ ref.domain ∈ accessDomains setup.dataModel client.connection then
      match findLast? (fun p => p.ref = ref) setup.dataModel.points with
      | none => none
      | some p => some { s with outputs := s.outputs ++ [.value client ref (s.held p)] }
    else none
  | .write client now ref value =>
    if client ∈ s.entries ∧ setup.reachesHandler ref = true then
      if client.connection.commandsEnabled then
        match writeData setup.host now setup.allTags client.connection ref value with
        | none => some s
        | some command => some { s with
            outputs := s.outputs ++ [.command client command (s.realtimeData command.tag)] }
      else some s
    else none

theorem step_associate {setup : Setup} {s : State} {client : Client}
    (hconn : client.connection ∈ setup.connections) (hnew : IsNew s client) :
    step setup s (.associate client) = some { s with
      entries := s.entries ++ [client]
      outputs := s.outputs ++ [.access client (accessDomains setup.dataModel client.connection)
        setup.datasetDefs] } := by
  rw [step, if_pos ⟨hconn, hnew⟩]

/-- The state when the servers are started. -/
def started (setup : Setup) : State where
  realtimeData := Map.ofEntries (setup.realtimeData.map fun t => (t.tag, t))

theorem accessDomains_eq (m : DataModel) (conn : ProtocolConnection) :
    accessDomains m conn = m.domains := by
  rw [accessDomains]
  split_ifs <;> rfl

theorem mem_foldl_assign {clients : List Client} {ip : Point} {value : DataValue}
    {pending : List Pending} {u : Pending} :
    u ∈ clients.foldl (fun pending client =>
        assign Pending.key (Pending.mk client ip value) pending) pending ↔
      u.client ∈ clients ∧ u.ip = ip ∧ u.value = value ∨
      u ∈ pending ∧ ¬ (u.client ∈ clients ∧ u.ip = ip) := by
  induction clients using List.reverseRecOn with
  | nil => simp
  | append_singleton clients client ih =>
    rw [List.foldl_append, List.foldl_cons, List.foldl_nil, mem_assign, ih]
    obtain ⟨c, q, v⟩ := u
    simp only [Pending.key, Pending.mk.injEq, List.mem_append, List.mem_singleton, Prod.mk.injEq, ne_eq]
    by_cases hc : c = client
    · subst hc
      by_cases hq : q = ip
      · simp [hq]
      · simp [hq]
    · simp [hc]

/-- What is pending after a change: the change for each client that is there and lets it pass,
and all that was pending before for other clients or points. -/
theorem mem_bufferChange {entries : List Client} {group1 : String} {ip : Point}
    {value : DataValue} {pending : List Pending} {u : Pending} :
    u ∈ bufferChange entries group1 ip value pending ↔
      (u.client ∈ entries ∧ admits u.client.connection group1 = true) ∧ u.ip = ip ∧
        u.value = value ∨
      u ∈ pending ∧ ¬ ((u.client ∈ entries ∧ admits u.client.connection group1 = true) ∧
        u.ip = ip) := by
  rw [bufferChange, mem_foldl_assign, List.mem_filter]

theorem nodup_bufferChange {entries : List Client} {group1 : String} {ip : Point}
    {value : DataValue} {pending : List Pending} (h : (pending.map Pending.key).Nodup) :
    ((bufferChange entries group1 ip value pending).map Pending.key).Nodup := by
  rw [bufferChange]
  induction entries.filter (fun client => admits client.connection group1)
      using List.reverseRecOn with
  | nil => exact h
  | append_singleton clients client ih =>
    rw [List.foldl_append, List.foldl_cons, List.foldl_nil]
    exact nodup_assign ih

end Running

end JsonScada.IccpServer.Sessions
