/- path: JsonScada/Server/Write
   source: src/server_realtime_auth/index.js, WRITE SERVICE
   digest: The loop over the nodes of a write request. -/

import JsonScada.Lib.Machine
import JsonScada.Server.Command
import JsonScada.Server.EventAck
import JsonScada.Server.Properties

set_option autoImplicit false
set_option relaxedAutoImplicit false

namespace JsonScada.Server.Write

open JsonScada.Lib.Binary64 JsonScada.Lib.EcmaScript JsonScada.Lib.Machine
open JsonScada.Model.Documents JsonScada.Server.Request JsonScada.Server.Database
open JsonScada.Server.Command JsonScada.Server.EventAck JsonScada.Server.Properties

/-- A request being served: the database, the results so far, and how it ended, if it has. -/
structure Serving where
  db : Db
  results : List StatusCode := []
  ended : Option Flow := none
  deriving DecidableEq

variable (h : Host) (s : Session)

/-- One node: the attribute tells the kind of write. -/
def writeNode (db : Db) (n : Node) : Db × Flow :=
  match n.attributeId with
  | none => (db, .next [])
  | some attributeId =>
    if h.looseEq attributeId AttributeId.ExtendedAlarmEventsAck then writeAck h s db n
    else if h.looseEq attributeId AttributeId.Value then
      let r := writeCommand h s db.realtimeData n
      (applyEffects h r.1 db, r.2)
    else if h.looseEq attributeId AttributeId.Description then writeProperties h s db n
    else (db, .next [])

/-- Serve the next node, unless a response was sent or an exception was thrown. -/
def step (st : Serving) (n : Node) : Option Serving :=
  match st.ended with
  | some _ => some st
  | none =>
    let r := writeNode h s st.db n
    some (match r.2 with
      | .next results => { db := r.1, results := st.results ++ results }
      | flow => { db := r.1, results := st.results, ended := some flow })

/-- The request when every node is served. -/
def writeRequest (db : Db) (nodes : List Node) : Option Serving := run (step h s) { db := db } nodes

theorem step_isSome (st : Serving) (n : Node) : ∃ t, step h s st n = some t := by
  unfold step
  cases st.ended with
  | some flow => exact ⟨_, rfl⟩
  | none => exact ⟨_, rfl⟩

theorem writeRequest_isSome (db : Db) (nodes : List Node) :
    ∃ st, writeRequest h s db nodes = some st := by
  unfold writeRequest
  generalize ({ db := db } : Serving) = st
  induction nodes generalizing st with
  | nil => exact ⟨st, rfl⟩
  | cons n ns ih =>
    obtain ⟨t, ht⟩ := step_isSome h s st n
    obtain ⟨r, hr⟩ := ih t
    exact ⟨r, run_cons_eq_some.mpr ⟨t, ht, hr⟩⟩

/-- What a step does to the database: nothing once the request has ended, else what the
node does. -/
theorem step_db {st t : Serving} {n : Node} (ht : step h s st n = some t) :
    (st.ended.isSome = true ∧ t = st) ∨
      (st.ended = none ∧ t.db = (writeNode h s st.db n).1) := by
  unfold step at ht
  cases he : st.ended with
  | some flow =>
    rw [he] at ht
    cases ht
    exact .inl ⟨rfl, rfl⟩
  | none =>
    rw [he] at ht
    refine .inr ⟨rfl, ?_⟩
    simp only [Option.some.injEq] at ht
    subst ht
    cases (writeNode h s st.db n).2 <;> rfl

end JsonScada.Server.Write
