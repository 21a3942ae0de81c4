/- path: JsonScada/System/WriteAnswers
   source: src/server_realtime_auth/index.js, WRITE SERVICE
   digest: Which nodes of a write request are answered, over the whole request. -/

import JsonScada.Server.Write

set_option autoImplicit false
set_option relaxedAutoImplicit false

namespace JsonScada.System.WriteAnswers

open JsonScada.Lib.Binary64 JsonScada.Lib.EcmaScript JsonScada.Lib.Machine
open JsonScada.Model.Documents JsonScada.Server.Request JsonScada.Server.Database
open JsonScada.Server.Command JsonScada.Server.EventAck JsonScada.Server.Properties
open JsonScada.Server.Write

variable (h : Host) (s : Session)

section Answer

/-- The database after some nodes, each served once and in order. -/
def after (db : Db) (nodes : List Node) : Db := nodes.foldl (fun db n => (writeNode h s db n).1) db

/-- What the node number `i` makes of the request, when those before it are served. -/
def outcome (db : Db) (nodes : List Node) (i : ℕ) : Option Flow :=
  nodes[i]?.map fun n => (writeNode h s (after h s db (nodes.take i)) n).2

def IsError (serviceResult : StatusCode) : Prop := serviceResult ∉ [.Good, .GoodNoData]

instance : DecidablePred IsError := fun serviceResult =>
  inferInstanceAs (Decidable (serviceResult ∉ [.Good, .GoodNoData]))

/-- Every result is that of the node in its place. A request that is served to its end has a
result for every node; one that ends early ends with an error of the first node without a result,
and no later node has an effect. -/
structure Answered (db : Db) (nodes : List Node) (st : Serving) : Prop where
  own : ∀ i r, st.results[i]? = some r → outcome h s db nodes i = some (.next [r])
  complete : st.ended = none → st.results.length = nodes.length ∧ st.db = after h s db nodes
  early : ∀ flow, st.ended = some flow → (∃ c, flow = .reply c ∧ IsError c) ∧
    outcome h s db nodes st.results.length = some flow ∧
    st.db = after h s db (nodes.take (st.results.length + 1))

end Answer

section Condition

/-- An acknowledge node that is denied. -/
def AckRefused (n : Node) : Prop := ∃ v, n.value = some v ∧ ackDenied h s v.body = true

/-- A command of a user without the right, or one with an identifier and, when its value is
valid, with a key or a tag; the special tags only as long as the database refuses them. -/
def CommandComplete (n : Node) : Prop :=
  (s.authentication && !s.canSendCommands) = true ∨
    ∃ id, n.nodeId.bind NodeId.id = some id ∧
      (n.value.bind (commandValue h) = none ∨ (h.parseInt id).isNaN = false ∨
        ∃ tag, id = .str tag ∧ (isSpecial tag = true → h.acknowledged = false))

/-- The events of the properties written can be made: an annotation is a text, and a value is
that of a digital point. -/
def EventsMade (p : Point) (props : Properties) : Prop :=
  (∀ a, PropertySet.annotation (propertySet h s (some p) props) = some a → ∃ text, a = .str text) ∧
    ((propertySet h s (some p) props).value.isSome = true → p.type = .digital)

/-- Properties with a node whose type of identifier is known, and which finds a point whose
events can be made. -/
def PropertiesComplete (db : Db) (n : Node) : Prop :=
  ∃ nodeId, n.nodeId = some nodeId ∧ ∀ id, nodeId.id = some id →
    match h.findPoint nodeId with
    | .null => True
    | .rejected => False
    | .filter q => ∃ props, n.value.bind WriteValue.properties = some props ∧
        (h.acknowledged = true → ∃ p, db.realtimeData.find? q = some p ∧ EventsMade h s p props)

/-- The node is of one of the three kinds and complete for its kind. -/
def Complete (db : Db) (n : Node) : Prop :=
  ∃ attributeId, n.attributeId = some attributeId ∧
    if h.looseEq attributeId AttributeId.ExtendedAlarmEventsAck then AckRefused h s n
    else if h.looseEq attributeId AttributeId.Value then CommandComplete h s n
    else h.looseEq attributeId AttributeId.Description = true ∧ PropertiesComplete h s db n

end Condition

section Node

/-- The node has one result, or it ends the request with an error. -/
def Answers : Flow → Prop
  | .next results => ∃ r, results = [r]
  | .reply serviceResult => IsError serviceResult
  | .thrown => False

/-- A node that is passed over has no result. -/
theorem not_answers_skipped : ¬ Answers (.next []) := by
  rintro ⟨r, hr⟩
  cases hr

variable {h s} {db : Db} {n : Node}

theorem answers_writeAck : Answers (writeAck h s db n).2 ↔ AckRefused h s n := by
  rw [writeAck, AckRefused]
  cases hv : n.value with
  | none =>
    refine iff_of_false id ?_
    rintro ⟨v, hv', -⟩
    cases hv'
  | some v =>
    dsimp only
    by_cases hdenied : ackDenied h s v.body = true
    · refine iff_of_true ?_ ⟨v, rfl, hdenied⟩
      rw [if_pos hdenied]
      exact (by decide : IsError .BadUserAccessDenied)
    · refine iff_of_false ?_ ?_
      · rw [if_neg hdenied]
        cases n.nodeId with
        | none => exact id
        | some nodeId =>
          dsimp only
          cases eventStage h s v.body (nodeId.id.getD .undefined) n.event_id db with
          | none => exact id
          | some db₁ =>
            dsimp only
            cases alarmStage h s v.body nodeId db₁ with
            | none => exact id
            | some db₂ => exact fun herror => herror (List.mem_cons_of_mem _ List.mem_cons_self)
      · rintro ⟨v', hv', hdenied'⟩
        cases hv'
        exact hdenied hdenied'

/-- A command that is looked up is always answered. -/
theorem answers_sendCommand (points : List Point) (query : Point → Bool) (id cmd_val str : JsVal) :
    Answers (sendCommand h s points query id cmd_val str).2 := by
  rw [sendCommand]
  cases points.find? query with
  | none => exact (by decide : IsError .BadNodeIdUnknown)
  | some data =>
    dsimp only
    by_cases hrefused : (s.authentication && !s.canSendCommandTo data.group1) = true
    · rw [if_pos hrefused]
      exact (by decide : IsError .BadUserAccessDenied)
    · rw [if_neg hrefused]
      cases h.acknowledged with
      | false => exact (by decide : IsError .BadUnexpectedError)
      | true => exact ⟨.Good, rfl⟩

theorem answers_sendSpecial (tag : String) (cmd_val str : JsVal) :
    Answers (sendSpecial h s tag cmd_val str).2 ↔ h.acknowledged = false := by
  rw [sendSpecial]
  cases h.acknowledged with
  | false =>
    exact iff_of_true (by decide : IsError .BadUnexpectedError) rfl
  | true => exact iff_of_false (fun herror => herror List.mem_cons_self) (Bool.noConfusion)

theorem answers_writeCommand (points : List Point) :
    Answers (writeCommand h s points n).2 ↔ CommandComplete h s n := by
  rw [writeCommand, CommandComplete]
  by_cases hdenied : (s.authentication && !s.canSendCommands) = true
  · rw [if_pos hdenied]
    exact iff_of_true (by decide : IsError .BadUserAccessDenied)
      (Or.inl hdenied)
  · rw [if_neg hdenied, or_iff_right hdenied]
    cases hid : n.nodeId.bind NodeId.id with
    | none =>
      refine iff_of_false not_answers_skipped ?_
      rintro ⟨id, hsome, -⟩
      cases hsome
    | some id =>
      simp only [Option.some.injEq, exists_eq_left']
      cases hv : n.value.bind (commandValue h) with
      | none =>
        exact iff_of_true (by decide : IsError .BadNodeAttributesInvalid)
          (Or.inl rfl)
      | some value =>
        obtain ⟨cmd_val, str⟩ := value
        dsimp only
        cases hnan : (h.parseInt id).isNaN with
        | false =>
          exact iff_of_true (answers_sendCommand ..) (Or.inr (Or.inl rfl))
        | true =>
          cases id with
          | str tag =>
            cases hspecial : isSpecial tag with
            | false =>
              dsimp only
              rw [hspecial, if_neg Bool.false_ne_true]
              refine iff_of_true (answers_sendCommand ..) (Or.inr (Or.inr ⟨tag, rfl, ?_⟩))
              intro habsurd
              rw [hspecial] at habsurd
              cases habsurd
            | true =>
              dsimp only
              rw [if_pos rfl, hspecial, if_pos rfl, answers_sendSpecial]
              constructor
              · exact fun hack => Or.inr (Or.inr ⟨tag, rfl, fun _ => hack⟩)
              · rintro (hnone | hnum | ⟨tag', htag, hack⟩)
                · cases hnone
                · cases hnum
                · cases htag
                  exact hack hspecial
          | _ =>
            refine iff_of_false id ?_
            rintro (hnone | hnum | ⟨tag, htag, -⟩)
            · cases hnone
            · cases hnum
            · cases htag

theorem annotationStage_isSome (p : Point) (set : PropertySet) :
    (annotationStage h s p set db).isSome = true ↔ ∀ a ∈ set.annotation, ∃ text, a = .str text := by
  rw [annotationStage]
  cases set.annotation with
  | none => exact iff_of_true rfl fun a ha => (Option.not_mem_none a ha).elim
  | some a =>
    simp only [Option.mem_some_iff, forall_eq']
    cases a with
    | str text => exact iff_of_true rfl ⟨text, rfl⟩
    | _ =>
      refine iff_of_false Bool.false_ne_true ?_
      rintro ⟨text, htext⟩
      cases htext

theorem valueStage_isSome (p : Point) (set : PropertySet) :
    (valueStage h s p set db).isSome = true ↔ (set.value.isSome = true → p.type = .digital) := by
  rw [valueStage]
  cases set.value with
  | none => exact iff_of_true rfl fun habsurd => absurd habsurd Bool.false_ne_true
  | some v =>
    dsimp only
    by_cases hdigital : p.type = .digital
    · rw [if_pos hdigital]
      exact iff_of_true rfl fun _ => hdigital
    · rw [if_neg hdigital]
      exact iff_of_false Bool.false_ne_true fun hall => hdigital (hall rfl)

/-- Two stages, the second on what the first leaves: a result exactly when both succeed. -/
theorem answers_stages {first : Option Db} {second : Db → Option Db} {P Q : Prop} (db : Db)
    (hfirst : first.isSome = true ↔ P) (hsecond : ∀ db, (second db).isSome = true ↔ Q) :
    Answers (match first with
      | none => (db, Flow.thrown)
      | some db₁ => match second db₁ with
        | none => (db₁, Flow.thrown)
        | some db₂ => (db₂, Flow.next [.Good])).2 ↔ P ∧ Q := by
  cases first with
  | none => exact iff_of_false id fun hboth => absurd (hfirst.mpr hboth.1) Bool.false_ne_true
  | some db₁ =>
    have hQ := hsecond db₁
    dsimp only
    cases hdb : second db₁ with
    | none =>
      rw [hdb] at hQ
      exact iff_of_false id fun hboth => absurd (hQ.mpr hboth.2) Bool.false_ne_true
    | some db₂ =>
      rw [hdb] at hQ
      exact iff_of_true ⟨_, rfl⟩ ⟨hfirst.mp rfl, hQ.mp rfl⟩

theorem answers_setProperties (q : Point → Bool) (id : JsVal) (props : Properties) :
    Answers (setProperties h s q id props db).2 ↔
      (h.acknowledged = true → ∃ p, db.realtimeData.find? q = some p ∧ EventsMade h s p props) := by
  rw [setProperties]
  cases h.acknowledged with
  | false => exact iff_of_true ⟨_, rfl⟩ fun habsurd => Bool.noConfusion habsurd
  | true =>
    rw [forall_prop_of_true rfl]
    cases hp : db.realtimeData.find? q with
    | none =>
      refine iff_of_false (fun habsurd => habsurd) ?_
      rintro ⟨p, hsome, -⟩
      cases hsome
    | some p =>
      simp only [Option.some.injEq, exists_eq_left']
      exact answers_stages _ (annotationStage_isSome p _) fun db => valueStage_isSome p _

theorem answers_writeProperties :
    Answers (writeProperties h s db n).2 ↔ PropertiesComplete h s db n := by
  rw [writeProperties, PropertiesComplete]
  cases n.nodeId with
  | none =>
    refine iff_of_false not_answers_skipped ?_
    rintro ⟨nodeId, hsome, -⟩
    cases hsome
  | some nodeId =>
    simp only [Option.some.injEq, exists_eq_left']
    cases nodeId.id with
    | none =>
      refine iff_of_true ⟨_, rfl⟩ ?_
      intro id hid
      cases hid
    | some id =>
      simp only [Option.some.injEq, forall_eq']
      cases h.findPoint nodeId with
      | null => exact iff_of_true (by decide : IsError .BadNodeIdInvalid) trivial
      | rejected => exact Iff.rfl
      | filter q =>
        dsimp only
        cases n.value.bind WriteValue.properties with
        | none =>
          refine iff_of_false (fun habsurd => habsurd) ?_
          rintro ⟨props, hsome, -⟩
          cases hsome
        | some props =>
          simp only [Option.some.injEq, exists_eq_left']
          exact answers_setProperties q id props

theorem answers_writeNode : Answers (writeNode h s db n).2 ↔ Complete h s db n := by
  rw [writeNode, Complete]
  cases n.attributeId with
  | none =>
    refine iff_of_false not_answers_skipped ?_
    rintro ⟨attributeId, hsome, -⟩
    cases hsome
  | some attributeId =>
    simp only [Option.some.injEq, exists_eq_left']
    by_cases hack : h.looseEq attributeId AttributeId.ExtendedAlarmEventsAck = true
    · rw [if_pos hack, if_pos hack]
      exact answers_writeAck
    · rw [if_neg hack, if_neg hack]
      by_cases hvalue : h.looseEq attributeId AttributeId.Value = true
      · rw [if_pos hvalue, if_pos hvalue]
        exact answers_writeCommand db.realtimeData
      · rw [if_neg hvalue, if_neg hvalue]
        by_cases hprops : h.looseEq attributeId AttributeId.Description = true
        · rw [if_pos hprops, and_iff_right hprops]
          exact answers_writeProperties
        · rw [if_neg hprops]
          exact iff_of_false not_answers_skipped fun hboth => hprops hboth.1

end Node

section Run

variable {h s} {db : Db} {n : Node} {nodes : List Node} {st : Serving}

/-- A request that goes on from some results. -/
def since (results : List StatusCode) (st : Serving) : Serving :=
  { st with results := results ++ st.results }

theorem step_since (results : List StatusCode) (st : Serving) (n : Node) :
    step h s (since results st) n = (step h s st n).map (since results) := by
  rw [step, step, since]
  cases hended : st.ended with
  | some flow =>
    dsimp only
    rw [Option.map_some, since, hended]
  | none =>
    dsimp only
    rw [Option.map_some]
    cases (writeNode h s st.db n).2 with
    | next rs =>
      dsimp only [since]
      rw [List.append_assoc]
    | _ => rfl

theorem run_since (results : List StatusCode) (st : Serving) (nodes : List Node) :
    run (step h s) (since results st) nodes = (run (step h s) st nodes).map (since results) := by
  induction nodes generalizing st with
  | nil => rfl
  | cons n ns ih =>
    rw [run, run, step_since]
    cases step h s st n with
    | none => rfl
    | some t => exact ih t

theorem run_ended {flow : Flow} (hended : st.ended = some flow) (nodes : List Node) :
    run (step h s) st nodes = some st := by
  induction nodes with
  | nil => rfl
  | cons n ns ih =>
    have hstep : step h s st n = some st := by rw [step, hended]
    rw [run, hstep, Option.bind_some, ih]

theorem step_next {results : List StatusCode} (hnext : (writeNode h s db n).2 = .next results) :
    step h s { db := db } n = some (since results { db := (writeNode h s db n).1 }) := by
  simp only [step, hnext, since, List.nil_append, List.append_nil]

theorem step_ends {flow : Flow} (hflow : (writeNode h s db n).2 = flow)
    (hends : ∀ results, flow ≠ .next results) :
    step h s { db := db } n = some { db := (writeNode h s db n).1, ended := some flow } := by
  rw [step]
  dsimp only
  rw [hflow]
  cases flow with
  | next results => exact absurd rfl (hends results)
  | _ => rfl

theorem writeRequest_next {results : List StatusCode}
    (hnext : (writeNode h s db n).2 = .next results) :
    writeRequest h s db (n :: nodes) =
      (writeRequest h s (writeNode h s db n).1 nodes).map (since results) := by
  rw [writeRequest, run, step_next hnext, Option.bind_some, run_since, writeRequest]

theorem writeRequest_ends {flow : Flow} (hflow : (writeNode h s db n).2 = flow)
    (hends : ∀ results, flow ≠ .next results) :
    writeRequest h s db (n :: nodes) =
      some { db := (writeNode h s db n).1, ended := some flow } := by
  rw [writeRequest, run, step_ends hflow hends, Option.bind_some, run_ended rfl]

/-- The first node without a result, or with one that is not its own, is never made good. -/
theorem outcome_zero (hanswered : Answered h s db (n :: nodes) st) :
    (∃ r rs, st.results = r :: rs ∧ (writeNode h s db n).2 = .next [r]) ∨
      (st.results = [] ∧ ∃ c, IsError c ∧ (writeNode h s db n).2 = .reply c) := by
  cases hresults : st.results with
  | cons r rs =>
    have hown := hanswered.own 0 r (by rw [hresults]; rfl)
    exact Or.inl ⟨r, rs, rfl, Option.some.inj hown⟩
  | nil =>
    refine Or.inr ⟨rfl, ?_⟩
    cases hended : st.ended with
    | none =>
      have hlength := (hanswered.complete hended).1
      rw [hresults] at hlength
      cases hlength
    | some flow =>
      obtain ⟨⟨c, rfl, hc⟩, hflow, -⟩ := hanswered.early flow hended
      rw [hresults] at hflow
      exact ⟨c, hc, Option.some.inj hflow⟩

theorem answers_of_answered (hanswered : Answered h s db (n :: nodes) st) :
    Answers (writeNode h s db n).2 := by
  obtain ⟨r, rs, -, hnext⟩ | ⟨-, c, hc, hreply⟩ := outcome_zero hanswered
  · rw [hnext]
    exact ⟨r, rfl⟩
  · rw [hreply]
    exact hc

/-- With one result of its own, a node leaves the answers to the rest of the request. -/
theorem answered_cons {r : StatusCode} (hnext : (writeNode h s db n).2 = .next [r]) :
    Answered h s db (n :: nodes) (since [r] st) ↔
      Answered h s (writeNode h s db n).1 nodes st := by
  constructor
  · intro hall
    refine ⟨fun i r' hi => hall.own (i + 1) r' hi, fun hended => ?_, fun flow hended => ?_⟩
    · obtain ⟨hlength, hdb⟩ := hall.complete hended
      exact ⟨Nat.succ.inj hlength, hdb⟩
    · exact hall.early flow hended
  · intro hrest
    refine ⟨fun i r' hi => ?_, fun hended => ?_, fun flow hended => hrest.early flow hended⟩
    · cases i with
      | zero =>
        obtain rfl : r = r' := Option.some.inj hi
        exact congrArg some hnext
      | succ i => exact hrest.own i r' hi
    · obtain ⟨hlength, hdb⟩ := hrest.complete hended
      exact ⟨congrArg Nat.succ hlength, hdb⟩

theorem answered_error {c : StatusCode} (hc : IsError c)
    (hreply : (writeNode h s db n).2 = .reply c) :
    Answered h s db (n :: nodes)
      { db := (writeNode h s db n).1, ended := some (.reply c) } := by
  refine ⟨fun i r hi => (by cases hi), fun hended => (by cases hended), ?_⟩
  rintro flow ⟨⟩
  exact ⟨⟨c, rfl, hc⟩, congrArg some hreply, rfl⟩

/-- The request serves no node that is not complete. -/
def Served (h : Host) (s : Session) (st : Serving) (n : Node) : Prop :=
  st.ended = none → Complete h s st.db n

theorem every_since (results : List StatusCode) (st : Serving) (nodes : List Node) :
    Every (step h s) (Served h s) (since results st) nodes ↔
      Every (step h s) (Served h s) st nodes := by
  induction nodes generalizing st with
  | nil => exact Iff.rfl
  | cons n ns ih =>
    rw [Every, Every, step_since]
    refine and_congr Iff.rfl ⟨fun hall t ht => ?_, fun hall t ht => ?_⟩
    · exact (ih t).mp (hall _ (by rw [ht, Option.map_some]))
    · obtain ⟨u, hu, rfl⟩ := Option.map_eq_some_iff.mp ht
      exact (ih u).mpr (hall u hu)

theorem every_ended {flow : Flow} (hended : st.ended = some flow) (nodes : List Node) :
    Every (step h s) (Served h s) st nodes := by
  induction nodes with
  | nil => trivial
  | cons n ns ih =>
    refine ⟨fun hnone => ?_, fun t ht => ?_⟩
    · rw [hended] at hnone
      cases hnone
    · rw [step, hended] at ht
      cases ht
      exact ih

theorem every_next {results : List StatusCode} (hnext : (writeNode h s db n).2 = .next results) :
    Every (step h s) (Served h s) { db := db } (n :: nodes) ↔
      Complete h s db n ∧
        Every (step h s) (Served h s) { db := (writeNode h s db n).1 } nodes := by
  rw [Every, step_next hnext, ← every_since results]
  simp only [Option.some.injEq, forall_eq', Served, forall_prop_of_true]

end Run

section Example

/-- A command without the node it is for. -/
def nowhere : Node :=
  { attributeId := some (.num (.fin 13))
    value := some { type := .num (.fin 11), body := .num (.fin 1) } }

def switchOn : Node := { nowhere with nodeId := some ⟨.num (.fin 1), some (.str "PUMP")⟩ }

end Example

end JsonScada.System.WriteAnswers
