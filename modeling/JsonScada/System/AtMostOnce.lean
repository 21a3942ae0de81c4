/- path: JsonScada/System/AtMostOnce
   source: src/plc4x-client/plc4x-client.go
   digest: The commands of an instance whose nodes all read the same change stream. -/

import JsonScada.Lib.Machine
import JsonScada.System.WriteRead
import JsonScada.Plc4xClient.Commands

set_option autoImplicit false
set_option relaxedAutoImplicit false

namespace JsonScada.System.AtMostOnce

open JsonScada.Lib.Endian JsonScada.Lib.Machine JsonScada.Plc4xClient.Values
open JsonScada.Plc4xClient.Commands

/-- A goroutine that reads a change stream, with its connections. -/
structure Stream where
  protConns : List ProtocolConnection
  pending : List (Option InsertChange) := []
  deriving DecidableEq

/-- A node has a stream for each time it has connected to the database. -/
structure Node where
  IsActive : Bool
  alive : Bool := true
  streams : List Stream
  deriving DecidableEq

/-- A write to the PLC, and whether the node was active. -/
structure Sent where
  ID : ℕ
  active : Bool
  deriving DecidableEq

structure State where
  nodes : List Node
  commands : List CommandDoc := []
  sent : List Sent := []
  handled : List (ℕ × Outcome) := []
  deriving DecidableEq

/-- A command is inserted, or a document that does not decode; the redundancy loop of a node
sets its flag; a node connects to the database again; a connection changes; or a stream takes
up its next document. -/
inductive Label where
  | insert (doc : Option CommandQueueEntry)
  | poll (n : ℕ) (active : Bool)
  | restart (n : ℕ) (numbers : List ℤ)
  | link (n k i : ℕ) (e : LinkEvent)
  | receive (n k : ℕ) (now : ℤ) (build execute : Option String)
  deriving DecidableEq

def Stream.push (doc : Option InsertChange) (st : Stream) : Stream :=
  { st with pending := st.pending ++ [doc] }

def Node.push (doc : Option InsertChange) (node : Node) : Node :=
  { node with streams := node.streams.map (Stream.push doc) }

/-- The living node with a number. -/
def State.node (s : State) (n : ℕ) : Option Node := s.nodes[n]?.filter (·.alive)

def State.setNode (s : State) (n : ℕ) (node : Node) : State :=
  { s with nodes := s.nodes.set n node }

/-- A stream of a node with its next document. -/
structure Turn where
  node : Node
  stream : Stream
  doc : Option InsertChange
  deriving DecidableEq

def turn (s : State) (n k : ℕ) : Option Turn := do
  let node ← s.node n
  let stream ← node.streams[k]?
  let doc ← stream.pending.head?
  return ⟨node, stream, doc⟩

variable (host : Host)

/-- The turn is done: the document has left the stream, and what was done is on record. -/
def done (s : State) (n k : ℕ) (t : Turn) (now : ℤ) (build execute : Option String) : State :=
  let o := iterate host t.stream.protConns now build execute t.doc
  let node := { t.node with
    alive := o ≠ .nilDereference
    streams := t.node.streams.set k { t.stream with pending := t.stream.pending.tail } }
  match t.doc with
  | none => s.setNode n node
  | some insDoc =>
    let ID := insDoc.FullDocument.ID
    { s.setNode n node with
      commands := s.commands.map fun c => if c.entry.ID = ID then o.update now c else c
      sent := if o.isExecuted then s.sent ++ [⟨ID, t.node.IsActive⟩] else s.sent
      handled := s.handled ++ [(ID, o)] }

def insertChange (d : CommandQueueEntry) : InsertChange :=
  { FullDocument := d, OperationType := "insert" }

def step (s : State) : Label → Option State
  | .insert none => some { s with nodes := s.nodes.map (Node.push none) }
  | .insert (some d) =>
    if d.ID ∈ s.commands.map (·.entry.ID) then none
    else some { s with
      nodes := s.nodes.map (Node.push (some (insertChange d)))
      commands := s.commands ++ [{ entry := d }] }
  | .poll n active => (s.node n).map fun node => s.setNode n { node with IsActive := active }
  | .restart n numbers =>
    (s.node n).map fun node =>
      s.setNode n { node with
        streams := node.streams ++ [{ protConns := numbers.map fun c => { ProtocolConnectionNumber := c } }] }
  | .link n k i e => do
    let node ← s.node n
    let stream ← node.streams[k]?
    let conn ← stream.protConns[i]?
    let conn ← conn.after node.IsActive e
    return s.setNode n { node with
      streams := node.streams.set k { stream with protConns := stream.protConns.set i conn } }
  | .receive n k now build execute =>
    (turn s n k).map fun t => done host s n k t now build execute

/-- Commands are written by active nodes only, and once; no process ended; and every command
that was not sent is cancelled with a reason. -/
structure Safe (s : State) : Prop where
  active : ∀ w ∈ s.sent, w.active = true
  once : (s.sent.map (·.ID)).Nodup
  alive : ∀ node ∈ s.nodes, node.alive = true
  cancelled : ∀ x ∈ s.handled, x.2.unsent = true →
    ∀ c ∈ s.commands, c.entry.ID = x.1 → c.cancelReason ≠ none

/-- The condition on a turn: a command in time finds its connection open, and where a write
request is built for it the node is active, and no other stream has sent the command. -/
def ProperTurn (s : State) (now : ℤ) (build : Option String) (t : Turn) : Prop :=
  ∀ insDoc ∈ t.doc, ∀ c ∈ connectionOf t.stream.protConns insDoc,
    now - insDoc.FullDocument.TimeTag ≤ tooOld →
      c.PlcConn ≠ none ∧
        (build = none → t.node.IsActive = true ∧ insDoc.FullDocument.ID ∉ s.sent.map (·.ID))

def Proper (s : State) : Label → Prop
  | .receive n k now build _ => ∀ t ∈ turn s n k, ProperTurn s now build t
  | _ => True

/-- Nothing has been inserted yet. -/
structure Fresh (s : State) : Prop where
  alive : ∀ node ∈ s.nodes, node.alive = true
  pending : ∀ node ∈ s.nodes, ∀ st ∈ node.streams, st.pending = []
  commands : s.commands = []
  sent : s.sent = []
  handled : s.handled = []

instance (s : State) (now : ℤ) (build : Option String) (t : Turn) :
    Decidable (ProperTurn s now build t) := by
  unfold ProperTurn
  infer_instance

instance (s : State) (a : Label) : Decidable (Proper s a) := by
  cases a <;> unfold Proper <;> infer_instance

/-- What was handled, or will be, is in the collection. -/
structure Known (s : State) : Prop where
  handled : ∀ x ∈ s.handled, x.1 ∈ s.commands.map (·.entry.ID)
  pending : ∀ node ∈ s.nodes, ∀ st ∈ node.streams, ∀ insDoc, some insDoc ∈ st.pending →
    insDoc.FullDocument.ID ∈ s.commands.map (·.entry.ID)

variable {host} {s t : State}

/-- Steps that change the nodes only, and end none. -/
theorem Safe.of_nodes (h : Safe s) (hcommands : t.commands = s.commands) (hsent : t.sent = s.sent)
    (hhandled : t.handled = s.handled) (halive : ∀ node ∈ t.nodes, node.alive = true) : Safe t where
  active := by rw [hsent]; exact h.active
  once := by rw [hsent]; exact h.once
  alive := halive
  cancelled := by rw [hhandled, hcommands]; exact h.cancelled

theorem Known.of_nodes (h : Known s) (hcommands : t.commands = s.commands)
    (hhandled : t.handled = s.handled)
    (hpending : ∀ node ∈ t.nodes, ∀ st ∈ node.streams, ∀ insDoc, some insDoc ∈ st.pending →
      ∃ node' ∈ s.nodes, ∃ st' ∈ node'.streams, some insDoc ∈ st'.pending) : Known t where
  handled := by rw [hhandled, hcommands]; exact h.handled
  pending := by
    intro node hnode st hst insDoc hdoc
    obtain ⟨node', hnode', st', hst', hdoc'⟩ := hpending node hnode st hst insDoc hdoc
    rw [hcommands]
    exact h.pending node' hnode' st' hst' insDoc hdoc'

theorem mem_of_node {n : ℕ} {node : Node} (h : s.node n = some node) :
    node ∈ s.nodes ∧ node.alive = true := by
  obtain ⟨hget, halive⟩ := Option.filter_eq_some_iff.mp h
  exact ⟨List.mem_of_getElem? hget, halive⟩

/-- A node set in the place of a living one. -/
theorem alive_setNode {n : ℕ} {node : Node} (h : Safe s) (halive : node.alive = true) :
    ∀ node' ∈ (s.setNode n node).nodes, node'.alive = true := by
  intro node' hmem
  rcases List.mem_or_eq_of_mem_set hmem with hold | rfl
  · exact h.alive node' hold
  · exact halive

theorem alive_push (h : Safe s) (doc : Option InsertChange) :
    ∀ node ∈ s.nodes.map (Node.push doc), node.alive = true := by
  intro node hmem
  obtain ⟨old, hold, rfl⟩ := List.mem_map.mp hmem
  exact h.alive old hold

theorem pending_push {doc : Option InsertChange} {node : Node} {st : Stream}
    {insDoc : InsertChange} (hnode : node ∈ s.nodes.map (Node.push doc)) (hst : st ∈ node.streams)
    (hdoc : some insDoc ∈ st.pending) :
    some insDoc = doc ∨ ∃ node' ∈ s.nodes, ∃ st' ∈ node'.streams, some insDoc ∈ st'.pending := by
  obtain ⟨old, hold, rfl⟩ := List.mem_map.mp hnode
  obtain ⟨before, hbefore, rfl⟩ := List.mem_map.mp hst
  rcases List.mem_append.mp hdoc with hin | hin
  · exact .inr ⟨old, hold, before, hbefore, hin⟩
  · exact .inl (List.mem_singleton.mp hin)

/-- The streams of a node set in the place of another wait for no more than those of that. -/
theorem pending_setNode {n : ℕ} {node : Node}
    (hsub : ∀ st ∈ node.streams, ∀ insDoc, some insDoc ∈ st.pending →
      ∃ node' ∈ s.nodes, ∃ st' ∈ node'.streams, some insDoc ∈ st'.pending) :
    ∀ node' ∈ (s.setNode n node).nodes, ∀ st ∈ node'.streams, ∀ insDoc, some insDoc ∈ st.pending →
      ∃ old ∈ s.nodes, ∃ st' ∈ old.streams, some insDoc ∈ st'.pending := by
  intro node' hmem st hst insDoc hdoc
  rcases List.mem_or_eq_of_mem_set hmem with hold | rfl
  · exact ⟨node', hold, st, hst, hdoc⟩
  · exact hsub st hst insDoc hdoc

/-- The same for one stream of a node set in the place of another. -/
theorem pending_setStream {node : Node} {k : ℕ} {stream stream' : Stream} (hnode : node ∈ s.nodes)
    (hstream : node.streams[k]? = some stream)
    (hsub : ∀ insDoc, some insDoc ∈ stream'.pending → some insDoc ∈ stream.pending) :
    ∀ st ∈ node.streams.set k stream', ∀ insDoc, some insDoc ∈ st.pending →
      ∃ node' ∈ s.nodes, ∃ st' ∈ node'.streams, some insDoc ∈ st'.pending := by
  intro st hst insDoc hdoc
  rcases List.mem_or_eq_of_mem_set hst with hold | rfl
  · exact ⟨node, hnode, st, hold, hdoc⟩
  · exact ⟨node, hnode, stream, List.mem_of_getElem? hstream, hsub insDoc hdoc⟩

theorem turn_eq_some {n k : ℕ} {u : Turn} (h : turn s n k = some u) :
    s.node n = some u.node ∧ u.node.streams[k]? = some u.stream ∧
      u.stream.pending.head? = some u.doc := by
  simp only [turn, bind, Option.bind_eq_some_iff, pure, Option.some.injEq] at h
  obtain ⟨node, hnode, stream, hstream, doc, hdoc, rfl⟩ := h
  exact ⟨hnode, hstream, hdoc⟩

/-- The documents of the collection keep their entries. -/
theorem update_if_entry (c : CommandDoc) (ID : ℕ) (o : Outcome) (now : ℤ) :
    (if c.entry.ID = ID then o.update now c else c).entry = c.entry := by
  split
  · exact update_entry now o c
  · rfl

theorem ids_update (cs : List CommandDoc) (ID : ℕ) (o : Outcome) (now : ℤ) :
    (cs.map fun c => if c.entry.ID = ID then o.update now c else c).map (·.entry.ID) =
      cs.map (·.entry.ID) := by
  rw [List.map_map]
  apply List.map_congr_left
  intro c _
  exact congrArg CommandQueueEntry.ID (update_if_entry c ID o now)

theorem known_done {n k : ℕ} {u : Turn} {now : ℤ} {build execute : Option String}
    (h : Known s) (hu : turn s n k = some u) : Known (done host s n k u now build execute) := by
  obtain ⟨hnode, hstream, hhead⟩ := turn_eq_some hu
  have hmem := (mem_of_node hnode).1
  have htail : ∀ insDoc, some insDoc ∈ u.stream.pending.tail → some insDoc ∈ u.stream.pending :=
    fun _ hin => List.mem_of_mem_tail hin
  have hstreams := @pending_setStream s u.node k u.stream
    { u.stream with pending := u.stream.pending.tail } hmem hstream htail
  unfold done
  cases hdoc : u.doc with
  | none => exact h.of_nodes rfl rfl (pending_setNode hstreams)
  | some insDoc =>
    have hID : insDoc.FullDocument.ID ∈ s.commands.map (·.entry.ID) := by
      rw [hdoc] at hhead
      exact h.pending u.node hmem u.stream (List.mem_of_getElem? hstream) insDoc
        (List.mem_of_head? hhead)
    constructor
    · show ∀ x ∈ s.handled ++ _, _
      rw [ids_update]
      intro x hx
      rcases List.mem_append.mp hx with hold | hnew
      · exact h.handled x hold
      · rw [List.mem_singleton.mp hnew]
        exact hID
    · rw [ids_update]
      intro node hin st hst d hd
      obtain ⟨old, hold, st', hst', hd'⟩ := pending_setNode hstreams node hin st hst d hd
      exact h.pending old hold st' hst' d hd'

theorem known_step {a : Label} (h : Known s) (hs : step host s a = some t) : Known t := by
  cases a with
  | insert doc =>
    cases doc with
    | none =>
      cases hs
      refine h.of_nodes rfl rfl ?_
      intro node hnode st hst insDoc hdoc
      rcases pending_push hnode hst hdoc with hnew | hold
      · cases hnew
      · exact hold
    | some d =>
      simp only [step] at hs
      split at hs
      · cases hs
      · cases hs
        constructor
        · intro x hx
          rw [List.map_append]
          exact List.mem_append_left _ (h.handled x hx)
        · intro node hnode st hst insDoc hdoc
          rw [List.map_append]
          rcases pending_push hnode hst hdoc with hnew | ⟨old, hold, st', hst', hdoc'⟩
          · cases hnew
            exact List.mem_append_right _ (List.mem_singleton.mpr rfl)
          · exact List.mem_append_left _ (h.pending old hold st' hst' insDoc hdoc')
  | poll n active =>
    obtain ⟨node, hnode, rfl⟩ := Option.map_eq_some_iff.mp hs
    refine h.of_nodes rfl rfl (pending_setNode ?_)
    exact fun st hst _ hdoc => ⟨node, (mem_of_node hnode).1, st, hst, hdoc⟩
  | restart n numbers =>
    obtain ⟨node, hnode, rfl⟩ := Option.map_eq_some_iff.mp hs
    refine h.of_nodes rfl rfl (pending_setNode ?_)
    intro st hst insDoc hdoc
    rcases List.mem_append.mp hst with hold | hnew
    · exact ⟨node, (mem_of_node hnode).1, st, hold, hdoc⟩
    · rw [List.mem_singleton.mp hnew] at hdoc
      cases hdoc
  | link n k i e =>
    simp only [step, bind, Option.bind_eq_some_iff, pure, Option.some.injEq] at hs
    obtain ⟨node, hnode, stream, hstream, conn, -, conn', -, rfl⟩ := hs
    refine h.of_nodes rfl rfl (pending_setNode ?_)
    exact pending_setStream (mem_of_node hnode).1 hstream fun _ hdoc => hdoc
  | receive n k now build execute =>
    obtain ⟨u, hu, rfl⟩ := Option.map_eq_some_iff.mp hs
    exact known_done h hu

/-- What a turn has to do to keep the state safe. -/
def Spares (s : State) (u : Turn) (o : Outcome) : Prop :=
  o ≠ .nilDereference ∧ ∀ insDoc ∈ u.doc, o.isExecuted = true →
    u.node.IsActive = true ∧ insDoc.FullDocument.ID ∉ s.sent.map (·.ID)

section Turn

variable {n k : ℕ} {u : Turn} {now : ℤ} {build execute : Option String} {insDoc : InsertChange}
  {o : Outcome}

theorem done_commands (hdoc : u.doc = some insDoc)
    (ho : iterate host u.stream.protConns now build execute u.doc = o) :
    (done host s n k u now build execute).commands = s.commands.map fun c =>
      if c.entry.ID = insDoc.FullDocument.ID then o.update now c else c := by
  unfold done
  rw [ho, hdoc]

theorem done_sent (hdoc : u.doc = some insDoc)
    (ho : iterate host u.stream.protConns now build execute u.doc = o) :
    (done host s n k u now build execute).sent =
      if o.isExecuted then s.sent ++ [⟨insDoc.FullDocument.ID, u.node.IsActive⟩] else s.sent := by
  unfold done
  rw [ho, hdoc]

theorem done_handled (hdoc : u.doc = some insDoc)
    (ho : iterate host u.stream.protConns now build execute u.doc = o) :
    (done host s n k u now build execute).handled =
      s.handled ++ [(insDoc.FullDocument.ID, o)] := by
  unfold done
  rw [ho, hdoc]

/-- The node of the turn is set, and lives unless the connection was missing. -/
theorem done_nodes (ho : iterate host u.stream.protConns now build execute u.doc = o) :
    (done host s n k u now build execute).nodes = s.nodes.set n { u.node with
      alive := o ≠ .nilDereference
      streams := u.node.streams.set k { u.stream with pending := u.stream.pending.tail } } := by
  unfold done
  rw [ho]
  cases u.doc <;> rfl

theorem cancelled_done (h : Safe s) (hdoc : u.doc = some insDoc)
    (ho : iterate host u.stream.protConns now build execute u.doc = o)
    (hpanic : o ≠ .nilDereference) :
    ∀ x ∈ (done host s n k u now build execute).handled, x.2.unsent = true →
      ∀ c ∈ (done host s n k u now build execute).commands, c.entry.ID = x.1 →
        c.cancelReason ≠ none := by
  rw [done_commands hdoc ho, done_handled hdoc ho]
  intro x hx hunsent c hc hID
  obtain ⟨old, hold, rfl⟩ := List.mem_map.mp hc
  rw [update_if_entry] at hID
  rcases List.mem_append.mp hx with hbefore | hnow
  · have hcancelled := h.cancelled x hbefore hunsent old hold hID
    split
    · exact cancelReason_update now _ hcancelled
    · exact hcancelled
  · obtain rfl := List.mem_singleton.mp hnow
    rw [if_pos hID]
    exact cancelReason_of_unsent now old hunsent hpanic

theorem sent_done_iff (h : Safe s) (hdoc : u.doc = some insDoc)
    (ho : iterate host u.stream.protConns now build execute u.doc = o) :
    ((∀ w ∈ (done host s n k u now build execute).sent, w.active = true) ∧
        ((done host s n k u now build execute).sent.map (·.ID)).Nodup) ↔
      (o.isExecuted = true → u.node.IsActive = true ∧
        insDoc.FullDocument.ID ∉ s.sent.map (·.ID)) := by
  rw [done_sent hdoc ho]
  cases o.isExecuted with
  | false =>
    rw [if_neg Bool.false_ne_true]
    exact iff_of_true ⟨h.active, h.once⟩ fun hfalse => absurd hfalse Bool.false_ne_true
  | true =>
    rw [if_pos rfl, List.map_append, List.map_singleton]
    constructor
    · rintro ⟨hactive, honce⟩ -
      refine ⟨hactive _ (List.mem_append_right _ (List.mem_singleton.mpr rfl)), fun hin => ?_⟩
      exact List.disjoint_of_nodup_append honce hin (List.mem_singleton.mpr rfl)
    · intro hsend
      obtain ⟨hactive, hnew⟩ := hsend rfl
      constructor
      · intro w hw
        rcases List.mem_append.mp hw with hold | hlast
        · exact h.active w hold
        · rw [List.mem_singleton.mp hlast]
          exact hactive
      · exact List.nodup_append.mpr ⟨h.once, List.nodup_singleton _, by
          intro a ha b hb heq
          have hID : a = insDoc.FullDocument.ID := heq.trans (List.mem_singleton.mp hb)
          rw [hID] at ha
          exact hnew ha⟩

theorem safe_done_iff (h : Safe s) (hu : turn s n k = some u) :
    Safe (done host s n k u now build execute) ↔
      Spares s u (iterate host u.stream.protConns now build execute u.doc) := by
  obtain ⟨hnode, -, -⟩ := turn_eq_some hu
  obtain ⟨hget, -⟩ := Option.filter_eq_some_iff.mp hnode
  have hbound : n < s.nodes.length := (List.getElem?_eq_some_iff.mp hget).1
  generalize ho : iterate host u.stream.protConns now build execute u.doc = o
  have halive : (∀ node ∈ (done host s n k u now build execute).nodes, node.alive = true) ↔
      o ≠ .nilDereference := by
    rw [done_nodes ho]
    constructor
    · intro hall
      exact of_decide_eq_true (hall _ (List.mem_set hbound _))
    · intro hpanic node hmem
      rcases List.mem_or_eq_of_mem_set hmem with hold | rfl
      · exact h.alive node hold
      · exact decide_eq_true hpanic
  cases hdoc : u.doc with
  | none =>
    have hignored : o = .ignored := by
      rw [← ho, hdoc]
      rfl
    have hrest : (done host s n k u now build execute).commands = s.commands ∧
        (done host s n k u now build execute).sent = s.sent ∧
        (done host s n k u now build execute).handled = s.handled := by
      unfold done
      rw [hdoc]
      exact ⟨rfl, rfl, rfl⟩
    have hpanic : o ≠ .nilDereference := by
      rw [hignored]
      exact Outcome.noConfusion
    refine iff_of_true (h.of_nodes hrest.1 hrest.2.1 hrest.2.2 (halive.mpr hpanic)) ⟨hpanic, ?_⟩
    intro insDoc hin
    rw [hdoc] at hin
    cases hin
  | some insDoc =>
    have hsent := @sent_done_iff host s n k u now build execute insDoc o h hdoc ho
    constructor
    · intro hsafe
      refine ⟨halive.mp hsafe.alive, fun d hd => ?_⟩
      rw [hdoc] at hd
      cases hd
      exact hsent.mp ⟨hsafe.active, hsafe.once⟩
    · rintro ⟨hpanic, hsend⟩
      obtain ⟨hactive, honce⟩ := hsent.mpr (hsend insDoc (hdoc ▸ rfl))
      exact ⟨hactive, honce, halive.mpr hpanic, cancelled_done h hdoc ho hpanic⟩

/-- The condition on the turn says what the turn has to do. -/
theorem properTurn_iff :
    ProperTurn s now build u ↔ Spares s u (iterate host u.stream.protConns now build execute u.doc) := by
  unfold ProperTurn Spares iterate
  cases u.doc with
  | none => simp
  | some insDoc =>
    cases hconn : connectionOf u.stream.protConns insDoc with
    | none => simp [hconn, Outcome.isExecuted]
    | some c =>
      simp only [Option.mem_def, Option.some.injEq, forall_eq', hconn]
      by_cases hold : now - insDoc.FullDocument.TimeTag > tooOld
      · rw [if_pos hold]
        simp [Outcome.isExecuted, not_le.mpr hold]
      · rw [if_neg hold]
        by_cases hnil : c.PlcConn = none
        · rw [if_pos hnil]
          simp [hnil, not_lt.mp hold]
        · rw [if_neg hnil]
          cases build with
          | none => simp [hnil, not_lt.mp hold, Outcome.isExecuted]
          | some err => simp [hnil, Outcome.isExecuted]

end Turn

theorem safe_step_iff {a : Label} (hk : Known s) (h : Safe s) (hs : step host s a = some t) :
    Safe t ↔ Proper s a := by
  cases a with
  | insert doc =>
    cases doc with
    | none =>
      cases hs
      exact iff_of_true (h.of_nodes rfl rfl rfl (alive_push h none)) trivial
    | some d =>
      simp only [step] at hs
      split at hs
      · cases hs
      · next hfresh =>
        cases hs
        refine iff_of_true ⟨h.active, h.once, alive_push h _, ?_⟩ trivial
        intro x hx hunsent c hc hID
        rcases List.mem_append.mp hc with hold | hnew
        · exact h.cancelled x hx hunsent c hold hID
        · rw [List.mem_singleton.mp hnew] at hID
          have hknown := hk.handled x hx
          rw [← hID] at hknown
          exact absurd hknown hfresh
  | poll n active =>
    obtain ⟨node, hnode, rfl⟩ := Option.map_eq_some_iff.mp hs
    exact iff_of_true (h.of_nodes rfl rfl rfl (alive_setNode h (mem_of_node hnode).2)) trivial
  | restart n numbers =>
    obtain ⟨node, hnode, rfl⟩ := Option.map_eq_some_iff.mp hs
    exact iff_of_true (h.of_nodes rfl rfl rfl (alive_setNode h (mem_of_node hnode).2)) trivial
  | link n k i e =>
    simp only [step, bind, Option.bind_eq_some_iff, pure, Option.some.injEq] at hs
    obtain ⟨node, hnode, stream, -, conn, -, conn', -, rfl⟩ := hs
    exact iff_of_true (h.of_nodes rfl rfl rfl (alive_setNode h (mem_of_node hnode).2)) trivial
  | receive n k now build execute =>
    obtain ⟨u, hu, rfl⟩ := Option.map_eq_some_iff.mp hs
    rw [safe_done_iff h hu, ← properTurn_iff]
    constructor
    · intro hproper v hv
      rw [Option.mem_def, hu] at hv
      cases hv
      exact hproper
    · exact fun hproper => hproper u hu

theorem proper_of_stuck {a : Label} (hs : step host s a = none) : Proper s a := by
  cases a with
  | receive n k now build execute =>
    have hturn : turn s n k = none := Option.map_eq_none_iff.mp hs
    intro u hu
    rw [Option.mem_def, hturn] at hu
    cases hu
  | _ => trivial

theorem Fresh.safe (h : Fresh s) : Safe s where
  active := by rw [h.sent]; exact fun w hw => absurd hw List.not_mem_nil
  once := by rw [h.sent]; exact List.nodup_nil
  alive := h.alive
  cancelled := by rw [h.handled]; exact fun x hx => absurd hx List.not_mem_nil

theorem Fresh.known (h : Fresh s) : Known s where
  handled := by rw [h.handled]; exact fun x hx => absurd hx List.not_mem_nil
  pending := by
    intro node hnode st hst insDoc hdoc
    rw [h.pending node hnode st hst] at hdoc
    cases hdoc

/-- Over a whole run, commands are sent once and by active nodes, no process ends and what is
not sent is cancelled, exactly where every turn is proper. -/
theorem safe_iff_proper (hs : Fresh s) (as : List Label) :
    (∀ t, Visits (step host) s as t → Safe t) ↔ Every (step host) Proper s as := by
  refine visits_iff_every (A := fun _ _ => True) (J := Known) ?_ (fun s a _ => proper_of_stuck) ?_
    hs.known hs.safe
  · exact fun s a t _ hk hstep => ⟨known_step hk hstep, fun h => safe_step_iff hk h hstep⟩
  · exact every_of_forall_mem fun _ _ => trivial

/-- An active node with an open connection, and a node that is on standby, with a connection
or without. -/
def pair (standby : Option PlcConnection) : State where
  nodes :=
    [{ IsActive := true, streams := [{ protConns := [⟨1001, some .connected, ":"⟩] }] },
      { IsActive := false, streams := [{ protConns := [⟨1001, standby, ":"⟩] }] }]

def command : CommandQueueEntry :=
  { ID := 1, ProtocolSourceConnectionNumber := 1001,
    ProtocolSourceObjectAddress := "coil:1:BOOL", ProtocolSourceASDU := "", TimeTag := 0,
    Value := .fin 1, ValueString := "" }

theorem pair_fresh (standby : Option PlcConnection) : Fresh (pair standby) where
  alive := by simp [pair]
  pending := by simp [pair]
  commands := rfl
  sent := rfl
  handled := rfl

/-- The standby node lags behind until the command has expired. -/
def lateStandby : List Label :=
  [.insert (some command), .receive 0 0 1000 none none, .receive 1 0 20000000000 none none]

theorem late_standby_safe :
    ∃ t, run (step (WriteRead.hostOf .little)) (pair none) lateStandby = some t ∧ Safe t := by
  obtain ⟨t, ht⟩ : ∃ t, run (step (WriteRead.hostOf .little)) (pair none) lateStandby = some t :=
    Option.isSome_iff_exists.mp (by decide)
  have hproper : Every (step (WriteRead.hostOf .little)) Proper (pair none) lateStandby := by
    decide
  have hsafe := (safe_iff_proper (pair_fresh none) lateStandby).mpr hproper
  exact ⟨t, ht, hsafe t ⟨_, List.prefix_refl _, ht⟩⟩

/-- A standby node sends the command once more where it has kept its connection, and ends
where it has none. -/
theorem standby_sends_or_ends :
    ¬ (∀ t, Visits (step (WriteRead.hostOf .little)) (pair (some .connected))
      [.insert (some command), .receive 0 0 1000 none none, .receive 1 0 1000 none none] t →
        (t.sent.map (·.ID)).Nodup) ∧
    ¬ (∀ t, Visits (step (WriteRead.hostOf .little)) (pair none)
      [.insert (some command), .receive 0 0 1000 none none, .receive 1 0 1000 none none] t →
        ∀ node ∈ t.nodes, node.alive = true) := by
  constructor
  · intro h
    have hlast := h _ ⟨_, List.prefix_refl _, rfl⟩
    exact absurd hlast (by decide)
  · intro h
    have hlast := h _ ⟨_, List.prefix_refl _, rfl⟩
    exact absurd hlast (by decide)

end JsonScada.System.AtMostOnce
