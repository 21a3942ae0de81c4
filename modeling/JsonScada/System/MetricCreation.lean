/- path: JsonScada/System/MetricCreation
   source: processMongoUpdates and AutoCreateTag of src/mqtt-sparkplug
   digest: A client that creates the documents of new metrics, on redundant nodes. -/

import JsonScada.Lib.Machine
import JsonScada.MqttSparkplug.AutoTag

set_option autoImplicit false
set_option relaxedAutoImplicit false

namespace JsonScada.System.MetricCreation

open JsonScada.Lib.Machine JsonScada.Lib.Collection JsonScada.Lib.Binary64
open JsonScada.Lib.EcmaScript
open JsonScada.Model.Documents JsonScada.Model.AutoKeys JsonScada.MqttSparkplug.AutoTag

/-- The memory of a process: the tags listed as created, the last key given out, and the
document being inserted with the address it is of. -/
structure Node where
  started : Bool := false
  ListCreatedTags : List String := []
  AutoKeyId : Number := .fin 0
  inserting : Option (String × Point) := none

/-- The collection and the nodes; for the trace, the addresses the active node has taken
values of and the documents created. -/
structure State (ι : Type) where
  collection : List Point
  node : ι → Node
  active : Option ι := none
  received : List String := []
  created : List Point := []

def start {ι : Type} (docs : List Point) : State ι :=
  { collection := docs, node := fun _ => {} }

/-- A process starts, or connects to the database again; a node becomes the active one; the
active node takes a value from its queue; the insert a node waits for is done, or fails
with the connection to the database; another connection inserts. -/
inductive Label (ι : Type) where
  | restart (m : ι)
  | reconnect (m : ι)
  | activate (m : ι)
  | value (data : Data)
  | insert (m : ι)
  | abort (m : ι)
  | other (p : Point)

variable {ι : Type} (connectionNumber : ℤ)

def Node.list (n : Node) (tag : String) : Node :=
  { n with ListCreatedTags := n.ListCreatedTags ++ [tag] }

def Node.done (n : Node) : Node := { n with inserting := none }

/-- A new document, with the key after the last one. -/
def Node.new (n : Node) (data : Data) : Node :=
  let key := n.AutoKeyId.add (.fin 1)
  { n with
    AutoKeyId := key
    inserting := some (data.protocolSourceObjectAddress,
      newTag (setGroups data) connectionNumber key) }

def State.receive (s : State ι) (address : String) : State ι :=
  { s with received := s.received ++ [address] }

def State.add (s : State ι) (p : Point) : State ι :=
  { s with collection := s.collection ++ [p], created := s.created ++ [p] }

/-- The address has a document in the collection. -/
abbrev HasTag (docs : List Point) (address : String) : Prop :=
  Occurs (ofAddress connectionNumber address) docs

/-- An address whose tag the process lists as created has a document. -/
def Node.Lists (docs : List Point) (n : Node) (address : String) : Prop :=
  tagOf connectionNumber address ∈ n.ListCreatedTags → HasTag connectionNumber docs address

/-- The address has at most one document, and one where its tag is listed as created; a
node that does not list it creates it with a later value. -/
structure Settled (s : State ι) (address : String) : Prop where
  unique : (s.collection.filter (ofAddress connectionNumber address)).length ≤ 1
  listed : ∀ m, (s.node m).Lists connectionNumber s.collection address

/-- Automatic creation is complete and unique. -/
structure Created (s : State ι) : Prop where
  tags : ∀ address ∈ s.received, Settled connectionNumber s address
  partition : ∀ p ∈ s.created, InPartition connectionNumber p._id
  keys : Keyed s.created s.collection

/-- The received addresses with the tag of this one have documents. -/
def TagShared (s : State ι) (address : String) : Prop :=
  ∀ b ∈ s.received, tagOf connectionNumber b = tagOf connectionNumber address → b ≠ address →
    HasTag connectionNumber s.collection b

/-- A document the indexes take has a key of the partition, and other addresses with its tag
have documents. -/
def Fits (s : State ι) (x : String × Point) : Prop :=
  accepts s.collection x.2 = true → InPartition connectionNumber x.2._id ∧
    TagShared connectionNumber s x.1

/-- Where the look-up finds the document of a value, other addresses with its tag have
documents too. -/
def Found (s : State ι) (m : ι) (address : String) : Prop :=
  tagOf connectionNumber address ∉ (s.node m).ListCreatedTags →
    HasTag connectionNumber s.collection address → TagShared connectionNumber s address

/-- The condition on the steps of a run. -/
def Condition (s : State ι) : Label ι → Prop
  | .value data => ∀ m ∈ s.active, (s.node m).inserting = none →
    Settled connectionNumber s data.protocolSourceObjectAddress ∧
      Found connectionNumber s m data.protocolSourceObjectAddress
  | .insert m => ∀ x ∈ (s.node m).inserting, Fits connectionNumber s x
  | _ => True

/-- The document being inserted is of its address, and where another of the address has
been inserted since the look-up, that has its tag. -/
structure Inserting (docs : List Point) (x : String × Point) : Prop where
  address : ofAddress connectionNumber x.1 x.2 = true
  tag : x.2.tag = tagOf connectionNumber x.1
  first : HasTag connectionNumber docs x.1 → ∃ q ∈ docs, q.tag = x.2.tag

structure Inv (s : State ι) : Prop where
  inserting : ∀ m, ∀ x ∈ (s.node m).inserting, Inserting connectionNumber s.collection x
  keys : Keyed s.created s.collection

/-- The unique tag keeps an address from a second document. -/
theorem Inserting.not_hasTag {docs : List Point} {x : String × Point}
    (h : Inserting connectionNumber docs x) (hacc : accepts docs x.2 = true) :
    ¬ HasTag connectionNumber docs x.1 := by
  intro htag
  obtain ⟨q, hq, heq⟩ := h.first htag
  have hany : docs.any (fun q => hasKey x.2._id q || q.tag = x.2.tag) = true :=
    List.any_eq_true.mpr ⟨q, hq, by simp [heq]⟩
  unfold accepts at hacc
  rw [hany] at hacc
  cases hacc

theorem Inserting.append {docs : List Point} {x : String × Point} {p : Point}
    (h : Inserting connectionNumber docs x)
    (hp : ofAddress connectionNumber x.1 p = true → p.tag = x.2.tag) :
    Inserting connectionNumber (docs ++ [p]) x := by
  refine ⟨h.address, h.tag, fun htag => ?_⟩
  rcases occurs_append.mp htag with hold | hnew
  · obtain ⟨q, hq, heq⟩ := h.first hold
    exact ⟨q, List.mem_append_left _ hq, heq⟩
  · exact ⟨p, List.mem_append_right _ (List.mem_singleton_self p), hp hnew⟩

/-- A document of another connection is of no address of this one. -/
theorem ofAddress_other {p : Point} (hp : p.protocolSourceConnectionNumber ≠ .fin connectionNumber)
    (a : String) : ¬ ofAddress connectionNumber a p = true := by
  intro ha
  simp only [ofAddress, Bool.and_eq_true, decide_eq_true_eq] at ha
  exact hp ha.1

theorem settled_receive {s : State ι} {a b : String} :
    Settled connectionNumber (s.receive a) b ↔ Settled connectionNumber s b :=
  ⟨fun h => ⟨h.unique, h.listed⟩, fun h => ⟨h.unique, h.listed⟩⟩

theorem created_receive {s : State ι} {a : String} :
    Created connectionNumber (s.receive a) ↔
      Created connectionNumber s ∧ Settled connectionNumber s a := by
  constructor
  · intro h
    have htags : ∀ b ∈ s.received ++ [a], Settled connectionNumber s b :=
      fun b hb => (settled_receive connectionNumber).mp (h.tags b hb)
    exact ⟨⟨fun b hb => htags b (List.mem_append_left _ hb), h.partition, h.keys⟩,
      htags a (List.mem_append_right _ (List.mem_singleton_self a))⟩
  · rintro ⟨h, ha⟩
    refine ⟨fun b hb => ?_, h.partition, h.keys⟩
    rw [settled_receive]
    rcases List.mem_append.mp hb with hb | hb
    · exact h.tags b hb
    · obtain rfl := List.mem_singleton.mp hb
      exact ha

theorem created_active {s : State ι} {active : Option ι} :
    Created connectionNumber { s with active := active } ↔ Created connectionNumber s := by
  constructor
  · intro h
    exact ⟨fun a ha => ⟨(h.tags a ha).unique, (h.tags a ha).listed⟩, h.partition, h.keys⟩
  · intro h
    exact ⟨fun a ha => ⟨(h.tags a ha).unique, (h.tags a ha).listed⟩, h.partition, h.keys⟩

theorem created_other {s : State ι} {p : Point} (hs : Created connectionNumber s)
    (hacc : accepts s.collection p = true)
    (hp : p.protocolSourceConnectionNumber ≠ .fin connectionNumber) :
    Created connectionNumber { s with collection := s.collection ++ [p] } := by
  have htag := ofAddress_other connectionNumber hp
  refine ⟨fun a ha => ⟨?_, fun m hm => ?_⟩, hs.partition, hs.keys.other hacc⟩
  · exact (length_filter_append_le_one (hs.tags a ha).unique).mpr fun h => absurd h (htag a)
  · exact occurs_append.mpr (.inl ((hs.tags a ha).listed m hm))

theorem list_lists {s : State ι} {m : ι} {a b : String} (hs : Created connectionNumber s)
    (hb : b ∈ s.received) : ((s.node m).list (tagOf connectionNumber a)).Lists
        connectionNumber s.collection b ↔
      (tagOf connectionNumber b = tagOf connectionNumber a →
        HasTag connectionNumber s.collection b) := by
  constructor
  · intro h heq
    exact h (List.mem_append_right _ (List.mem_singleton.mpr heq))
  · intro h hlist
    rcases List.mem_append.mp hlist with hold | hnew
    · exact (hs.tags b hb).listed m hold
    · exact h (List.mem_singleton.mp hnew)

theorem created_start (docs : List Point) :
    Created connectionNumber (start docs : State ι) where
  tags := by intro a ha; cases ha
  partition := by intro p hp; cases hp
  keys := keyed_nil docs

theorem inv_start (docs : List Point) : Inv connectionNumber (start docs : State ι) where
  inserting := by intro m x hx; cases hx
  keys := keyed_nil docs

section Steps

variable [DecidableEq ι]

def State.setNode (s : State ι) (m : ι) (n : Node) : State ι :=
  { s with node := Function.update s.node m n }

@[simp] theorem setNode_same (s : State ι) (m : ι) (n : Node) : (s.setNode m n).node m = n := by
  show Function.update s.node m n m = n
  rw [Function.update_self]

theorem setNode_other (s : State ι) {m k : ι} (n : Node) (h : k ≠ m) :
    (s.setNode m n).node k = s.node k := by
  show Function.update s.node m n k = s.node k
  rw [Function.update_of_ne h]

def restart (s : State ι) (m : ι) : State ι :=
  { s.setNode m { started := true, AutoKeyId := GetAutoKeyInitialValue connectionNumber s.collection }
    with active := if s.active = some m then none else s.active }

/-- The look-up and what follows from it, up to the insert. -/
def value (s : State ι) (m : ι) (data : Data) : State ι :=
  let address := data.protocolSourceObjectAddress
  let tag := tagOf connectionNumber address
  if tag ∈ (s.node m).ListCreatedTags then s.receive address
  else if HasTag connectionNumber s.collection address then
    (s.receive address).setNode m ((s.node m).list tag)
  else (s.receive address).setNode m ((s.node m).new connectionNumber data)

def insert (s : State ι) (m : ι) (x : String × Point) : State ι :=
  if accepts s.collection x.2 then
    (s.setNode m ((s.node m).done.list x.2.tag)).add x.2
  else s.setNode m (s.node m).done

def step (s : State ι) : Label ι → Option (State ι)
  | .restart m => some (restart connectionNumber s m)
  | .reconnect m =>
    if (s.node m).started ∧ (s.node m).inserting = none then
      some (s.setNode m { s.node m with
        AutoKeyId := GetAutoKeyInitialValue connectionNumber s.collection })
    else none
  | .activate m => if (s.node m).started then some { s with active := some m } else none
  | .value data => s.active.bind fun m =>
    if (s.node m).inserting = none then some (value connectionNumber s m data) else none
  | .insert m => (s.node m).inserting.map (insert s m)
  | .abort m => some (s.setNode m (s.node m).done)
  | .other p =>
    if accepts s.collection p ∧ p.protocolSourceConnectionNumber ≠ .fin connectionNumber then
      some { s with collection := s.collection ++ [p] }
    else none

/-! ### The parts of a step -/

theorem Settled.setNode {s : State ι} {m : ι} {n : Node} {a : String}
    (h : Settled connectionNumber s a) (hn : n.Lists connectionNumber s.collection a) :
    Settled connectionNumber (s.setNode m n) a := by
  refine ⟨h.unique, fun k => ?_⟩
  by_cases hk : k = m
  · subst hk
    rw [setNode_same]
    exact hn
  · rw [setNode_other s n hk]
    exact h.listed k

theorem Settled.lists {s : State ι} {m : ι} {n : Node} {a : String}
    (h : Settled connectionNumber (s.setNode m n) a) :
    n.Lists connectionNumber s.collection a := by
  have hm := h.listed m
  rw [setNode_same] at hm
  exact hm

theorem created_setNode {s : State ι} {m : ι} {n : Node} (hs : Created connectionNumber s) :
    Created connectionNumber (s.setNode m n) ↔
      ∀ a ∈ s.received, n.Lists connectionNumber s.collection a := by
  constructor
  · intro h a ha
    exact (h.tags a ha).lists
  · intro h
    exact ⟨fun a ha => (hs.tags a ha).setNode connectionNumber (h a ha), hs.partition, hs.keys⟩

/-- The nodes list what they did. -/
theorem created_setNode_same {s : State ι} {m : ι} {n : Node} (hs : Created connectionNumber s)
    (hn : n.ListCreatedTags = (s.node m).ListCreatedTags ∨ n.ListCreatedTags = []) :
    Created connectionNumber (s.setNode m n) := by
  refine (created_setNode connectionNumber hs).mpr fun a ha hlist => ?_
  rcases hn with hn | hn
  · rw [hn] at hlist
    exact (hs.tags a ha).listed m hlist
  · rw [hn] at hlist
    cases hlist

theorem created_value {s : State ι} {m : ι} {data : Data} (hs : Created connectionNumber s) :
    Created connectionNumber (value connectionNumber s m data) ↔
      Settled connectionNumber s data.protocolSourceObjectAddress ∧
        Found connectionNumber s m data.protocolSourceObjectAddress := by
  unfold value Found
  simp only []
  split_ifs with hlisted htag
  · rw [created_receive, and_iff_right hs]
    exact (and_iff_left fun h => absurd hlisted h).symm
  · let a := data.protocolSourceObjectAddress
    let n := (s.node m).list (tagOf connectionNumber a)
    show Created connectionNumber ((s.setNode m n).receive a) ↔ _
    rw [created_receive, created_setNode connectionNumber hs]
    constructor
    · rintro ⟨hall, hset⟩
      refine ⟨⟨hset.unique, fun _ _ => htag⟩, fun _ _ b hb heq _ => ?_⟩
      exact (list_lists connectionNumber hs hb).mp (hall b hb) heq
    · rintro ⟨hset, hfound⟩
      refine ⟨fun b hb => (list_lists connectionNumber hs hb).mpr fun heq => ?_,
        hset.setNode connectionNumber fun _ => htag⟩
      by_cases hba : b = a
      · rw [hba]
        exact htag
      · exact hfound hlisted htag b hb heq hba
  · let a := data.protocolSourceObjectAddress
    let n := (s.node m).new connectionNumber data
    show Created connectionNumber ((s.setNode m n).receive a) ↔ _
    have hn : Created connectionNumber (s.setNode m n) :=
      created_setNode_same connectionNumber hs (.inl rfl)
    rw [created_receive, and_iff_right hn]
    constructor
    · intro h
      refine ⟨⟨h.unique, fun k => ?_⟩, fun _ h => absurd h htag⟩
      by_cases hk : k = m
      · rw [hk]
        exact fun h => absurd h hlisted
      · have hkn := h.listed k
        rw [setNode_other s n hk] at hkn
        exact hkn
    · rintro ⟨h, -⟩
      exact h.setNode connectionNumber (h.listed m)

theorem created_insert {s : State ι} {m : ι} {x : String × Point}
    (hi : Inv connectionNumber s) (hs : Created connectionNumber s)
    (hx : (s.node m).inserting = some x) :
    Created connectionNumber (insert s m x) ↔ Fits connectionNumber s x := by
  have hins := hi.inserting m x hx
  have htag := hins.address
  unfold insert Fits
  split_ifs with hacc
  · have hnone := hins.not_hasTag connectionNumber hacc
    rw [hins.tag, forall_prop_of_true hacc]
    constructor
    · intro h
      refine ⟨h.partition x.2 (List.mem_append_right _ (List.mem_singleton_self _)), ?_⟩
      intro b hb heq hne
      have hlists := (h.tags b hb).listed m
      have hnode : (((s.setNode m ((s.node m).done.list (tagOf connectionNumber x.1))).add
          x.2).node m) = (s.node m).done.list (tagOf connectionNumber x.1) :=
        setNode_same s m _
      rw [hnode] at hlists
      have hb' := hlists (List.mem_append_right _ (List.mem_singleton.mpr heq))
      exact (occurs_append.mp hb').resolve_right fun h => hne (ofAddress_inj h htag)
    · rintro ⟨hpart, hshared⟩
      refine ⟨fun b hb => ⟨?_, fun k hlist => ?_⟩, fun p hp => ?_, hs.keys.insert hacc⟩
      · refine (length_filter_append_le_one (hs.tags b hb).unique).mpr fun hbtag => ?_
        obtain rfl := ofAddress_inj hbtag htag
        exact hnone
      · refine occurs_append.mpr ?_
        by_cases hb1 : b = x.1
        · rw [hb1]
          exact .inr htag
        · left
          by_cases hk : k = m
          · have hnode : (((s.setNode m ((s.node m).done.list (tagOf connectionNumber x.1))).add
                x.2).node k) = (s.node m).done.list (tagOf connectionNumber x.1) := by
              rw [hk]
              exact setNode_same s m _
            rw [hnode] at hlist
            rcases List.mem_append.mp hlist with hold | hnew
            · exact (hs.tags b hb).listed m hold
            · exact hshared b hb (List.mem_singleton.mp hnew) hb1
          · have hnode : (((s.setNode m ((s.node m).done.list (tagOf connectionNumber x.1))).add
                x.2).node k) = s.node k := setNode_other s _ hk
            rw [hnode] at hlist
            exact (hs.tags b hb).listed k hlist
      · rcases List.mem_append.mp hp with hp | hp
        · exact hs.partition p hp
        · obtain rfl := List.mem_singleton.mp hp
          exact hpart
  · exact iff_of_true (created_setNode_same connectionNumber hs (.inl rfl))
      fun h => absurd h hacc

theorem inv_setNode {s : State ι} {m : ι} {n : Node} (hi : Inv connectionNumber s)
    (hn : ∀ x ∈ n.inserting, Inserting connectionNumber s.collection x) :
    Inv connectionNumber (s.setNode m n) := by
  refine ⟨fun k => ?_, hi.keys⟩
  by_cases hk : k = m
  · subst hk
    rw [setNode_same]
    exact hn
  · rw [setNode_other s n hk]
    exact hi.inserting k

theorem inv_value {s : State ι} {m : ι} {data : Data} (hi : Inv connectionNumber s) :
    Inv connectionNumber (value connectionNumber s m data) := by
  have hrec : Inv connectionNumber (s.receive data.protocolSourceObjectAddress) :=
    ⟨hi.inserting, hi.keys⟩
  unfold value
  simp only []
  split_ifs with _ htag
  · exact hrec
  · exact inv_setNode connectionNumber hrec (hi.inserting m)
  · refine inv_setNode connectionNumber hrec fun x hx => ?_
    obtain rfl := Option.some.inj hx
    exact ⟨ofAddress_newTag (setGroups data) connectionNumber _, rfl, fun h => absurd h htag⟩

theorem inv_insert {s : State ι} {m : ι} {x : String × Point} (hi : Inv connectionNumber s)
    (hx : (s.node m).inserting = some x) : Inv connectionNumber (insert s m x) := by
  have hins := hi.inserting m x hx
  have hdone : ∀ n : Node, n.inserting = none → Inv connectionNumber (s.setNode m n) := by
    intro n hn
    refine inv_setNode connectionNumber hi fun y hy => ?_
    rw [hn] at hy
    cases hy
  unfold insert
  split_ifs with hacc
  · refine ⟨fun k y hy => ?_, hi.keys.insert hacc⟩
    have hy' := (hdone ((s.node m).done.list x.2.tag) rfl).inserting k y hy
    refine hy'.append connectionNumber fun haddr => ?_
    rw [hy'.tag, hins.tag, ofAddress_inj haddr hins.address]
  · exact hdone _ rfl

/-! ### One step, and a run -/

theorem inv_step {s t : State ι} {l : Label ι} (hi : Inv connectionNumber s)
    (h : step connectionNumber s l = some t) : Inv connectionNumber t := by
  cases l with
  | restart m =>
    obtain rfl := Option.some.inj h
    have hnew : Inv connectionNumber (s.setNode m
        { started := true, AutoKeyId := GetAutoKeyInitialValue connectionNumber s.collection }) :=
      inv_setNode connectionNumber hi fun x hx => by cases hx
    exact ⟨hnew.inserting, hi.keys⟩
  | reconnect m =>
    simp only [step] at h
    split_ifs at h
    obtain rfl := Option.some.inj h
    exact inv_setNode connectionNumber hi (hi.inserting m)
  | activate m =>
    simp only [step] at h
    split_ifs at h
    obtain rfl := Option.some.inj h
    exact ⟨hi.inserting, hi.keys⟩
  | value data =>
    obtain ⟨m, -, h⟩ := Option.bind_eq_some_iff.mp h
    split_ifs at h
    obtain rfl := Option.some.inj h
    exact inv_value connectionNumber hi
  | insert m =>
    obtain ⟨x, hx, rfl⟩ := Option.map_eq_some_iff.mp h
    exact inv_insert connectionNumber hi hx
  | abort m =>
    obtain rfl := Option.some.inj h
    refine inv_setNode connectionNumber hi fun x hx => ?_
    cases hx
  | other p =>
    simp only [step] at h
    split_ifs at h with hp
    obtain rfl := Option.some.inj h
    refine ⟨fun m x hx => ?_, hi.keys.other hp.1⟩
    exact (hi.inserting m x hx).append connectionNumber fun h =>
      absurd h (ofAddress_other connectionNumber hp.2 x.1)

theorem created_step {s t : State ι} {l : Label ι} (hi : Inv connectionNumber s)
    (hs : Created connectionNumber s) (h : step connectionNumber s l = some t) :
    Created connectionNumber t ↔ Condition connectionNumber s l := by
  cases l with
  | restart m =>
    obtain rfl := Option.some.inj h
    refine iff_of_true ?_ trivial
    unfold restart
    rw [created_active]
    exact created_setNode_same connectionNumber hs (.inr rfl)
  | reconnect m =>
    simp only [step] at h
    split_ifs at h
    obtain rfl := Option.some.inj h
    exact iff_of_true (created_setNode_same connectionNumber hs (.inl rfl)) trivial
  | activate m =>
    simp only [step] at h
    split_ifs at h
    obtain rfl := Option.some.inj h
    rw [created_active]
    exact iff_of_true hs trivial
  | value data =>
    obtain ⟨m, hm, h⟩ := Option.bind_eq_some_iff.mp h
    split_ifs at h with hidle
    obtain rfl := Option.some.inj h
    rw [created_value connectionNumber hs]
    simp [Condition, hm, hidle]
  | insert m =>
    obtain ⟨x, hx, rfl⟩ := Option.map_eq_some_iff.mp h
    rw [created_insert connectionNumber hi hs hx]
    simp [Condition, hx]
  | abort m =>
    obtain rfl := Option.some.inj h
    exact iff_of_true (created_setNode_same connectionNumber hs (.inl rfl)) trivial
  | other p =>
    simp only [step] at h
    split_ifs at h with hp
    obtain rfl := Option.some.inj h
    exact iff_of_true (created_other connectionNumber hs hp.1 hp.2) trivial

theorem condition_of_stuck {s : State ι} {l : Label ι} (h : step connectionNumber s l = none) :
    Condition connectionNumber s l := by
  cases l with
  | value data =>
    intro m hm hidle
    have hnone := Option.bind_eq_none_iff.mp h m hm
    rw [if_pos hidle] at hnone
    cases hnone
  | insert m =>
    have hnone : (s.node m).inserting = none := Option.map_eq_none_iff.mp h
    intro x hx
    rw [hnone] at hx
    cases hx
  | restart m => trivial
  | reconnect m => trivial
  | activate m => trivial
  | abort m => trivial
  | other p => trivial

/-- Creation is complete and unique in a run just when its steps meet the condition. -/
theorem created_iff_every (docs : List Point) (labels : List (Label ι)) :
    (∀ s, Visits (step connectionNumber) (start docs) labels s → Created connectionNumber s) ↔
      Every (step connectionNumber) (Condition connectionNumber) (start docs) labels := by
  refine visits_iff_every (A := fun _ _ => True) ?_
    (fun _ _ _ => condition_of_stuck connectionNumber) (every_of_forall_mem fun _ _ => trivial)
    (inv_start connectionNumber docs) (created_start connectionNumber docs)
  intro s l t _ hi h
  exact ⟨inv_step connectionNumber hi h, fun hs => created_step connectionNumber hi hs h⟩

end Steps

end JsonScada.System.MetricCreation
