/- path: JsonScada/System/TagCreation
   source: ProcessMongo and the start of src/lib60870.netcore/iec104client and of
   src/dnp3/Dnp3ClientCpp
   digest: Client drivers that create the documents of new addresses, on redundant nodes. -/

import JsonScada.Lib.Machine
import JsonScada.Model.AutoKeys

set_option autoImplicit false
set_option relaxedAutoImplicit false

namespace JsonScada.System.TagCreation

open JsonScada.Lib.Machine JsonScada.Lib.Collection JsonScada.Lib.Binary64
open JsonScada.Lib.EcmaScript JsonScada.Model.Documents JsonScada.Model.AutoKeys

/-- A common address and an object address. -/
abbrev Address := ℤ × ℤ

/-- The document is that of the address at a connection. -/
def isTag (protocolConnectionNumber : ℤ) (a : Address) (p : Point) : Bool :=
  p.protocolSourceConnectionNumber = .fin protocolConnectionNumber &&
    p.protocolSourceCommonAddress = .num (.fin a.1) &&
    p.protocolSourceObjectAddress = .num (.fin a.2)

/-- What a connection of a driver does with its values: which of them come from an address
to be created, the addresses loaded at the start (`none` where loading throws), and the
documents made for a new address with the last key given out. Where `keepsBatch` is false,
a value that throws takes the documents of its batch with it. -/
structure Client (ν : Type) where
  protocolConnectionNumber : ℤ
  keepsBatch : Bool
  address : ν → Option Address
  load : List Point → Option (List Address)
  create : ν → Number → List Point → List (Address × Point) × Number
  created : ∀ v lastKey docs a, address v = some a → ∀ x ∈ (create v lastKey docs).1,
    isTag protocolConnectionNumber x.1 x.2 = true

/-- The memory of a process: the addresses known, the last key given out, and the documents
not yet inserted. -/
structure Node where
  started : Bool := false
  InsertedAddresses : List Address := []
  LastNewKeyCreated : Number := .fin 0
  insertDocs : List (Address × Point) := []

/-- The collection and the nodes; for the trace, the addresses the active node has received
values from and the documents created. -/
structure State (ι : Type) where
  collection : List Point
  node : ι → Node
  active : Option ι := none
  received : List Address := []
  created : List Point := []

def start {ι : Type} (docs : List Point) : State ι :=
  { collection := docs, node := fun _ => {} }

/-- A process starts; a node becomes the active one; the active node takes a value, or the
search for the key of its new document throws; an insert on its way is done; the inserts of
a batch are lost with the connection to the database; another connection inserts. -/
inductive Label (ι ν : Type) where
  | restart (m : ι)
  | activate (m : ι)
  | value (v : ν)
  | unkeyed (v : ν)
  | insert (m : ι) (i : ℕ)
  | abort (m : ι)
  | other (p : Point)

section Properties

variable {ι ν : Type} (c : Client ν)

def Node.create (n : Node) (docs : List (Address × Point)) (lastKey : Number) : Node :=
  { n with
    InsertedAddresses := n.InsertedAddresses ++ docs.map Prod.fst
    LastNewKeyCreated := lastKey
    insertDocs := n.insertDocs ++ docs }

def Node.drain (n : Node) : Node := { n with insertDocs := [] }

def Node.fail (n : Node) (a : Address) : Node :=
  { n with
    InsertedAddresses := n.InsertedAddresses ++ [a]
    insertDocs := if c.keepsBatch then n.insertDocs else [] }

def State.receive (s : State ι) (a : Address) : State ι := { s with received := s.received ++ [a] }

def State.add (s : State ι) (p : Point) : State ι :=
  { s with collection := s.collection ++ [p], created := s.created ++ [p] }

def Node.drop (n : Node) (i : ℕ) : Node := { n with insertDocs := n.insertDocs.eraseIdx i }

/-- A document of the address is in the collection. -/
abbrev HasTag (docs : List Point) (a : Address) : Prop :=
  Occurs (isTag c.protocolConnectionNumber a) docs

/-- An address the process knows has a document, or one on its way from there. -/
def Node.Expects (docs : List Point) (n : Node) (a : Address) : Prop :=
  a ∈ n.InsertedAddresses → HasTag c docs a ∨ a ∈ n.insertDocs.map Prod.fst

/-- The address has at most one document, and one or one on its way where it is known; a
node that does not know it creates it with a later value. -/
structure Settled (s : State ι) (a : Address) : Prop where
  unique : (s.collection.filter (isTag c.protocolConnectionNumber a)).length ≤ 1
  known : ∀ m, (s.node m).Expects c s.collection a

/-- Automatic creation is complete and unique. -/
structure Created (s : State ι) : Prop where
  tags : ∀ a ∈ s.received, Settled c s a
  partition : ∀ p ∈ s.created, InPartition c.protocolConnectionNumber p._id
  keys : Keyed s.created s.collection

/-- Documents on their way may be lost where their addresses have others. -/
def Spares (s : State ι) (m : ι) : Prop :=
  ∀ a ∈ s.received, a ∈ (s.node m).insertDocs.map Prod.fst → HasTag c s.collection a

/-- Documents on their way are of their addresses, which are known. -/
structure Inv (s : State ι) : Prop where
  docs : ∀ m, ∀ x ∈ (s.node m).insertDocs,
    isTag c.protocolConnectionNumber x.1 x.2 = true ∧ x.1 ∈ (s.node m).InsertedAddresses
  keys : Keyed s.created s.collection

theorem isTag_inj {n : ℤ} {a b : Address} {p : Point} (ha : isTag n a p = true)
    (hb : isTag n b p = true) : a = b := by
  simp only [isTag, Bool.and_eq_true, decide_eq_true_eq] at ha hb
  have h1 : (Number.fin a.1) = .fin b.1 := JsVal.num.inj (ha.1.2.symm.trans hb.1.2)
  have h2 : (Number.fin a.2) = .fin b.2 := JsVal.num.inj (ha.2.symm.trans hb.2)
  have hfst : a.1 = b.1 := Int.cast_injective (Number.fin.inj h1)
  have hsnd : a.2 = b.2 := Int.cast_injective (Number.fin.inj h2)
  exact Prod.ext hfst hsnd

theorem created_active {s : State ι} {active : Option ι} :
    Created c { s with active := active } ↔ Created c s := by
  constructor
  · intro h
    exact ⟨fun a ha => ⟨(h.tags a ha).unique, (h.tags a ha).known⟩, h.partition, h.keys⟩
  · intro h
    exact ⟨fun a ha => ⟨(h.tags a ha).unique, (h.tags a ha).known⟩, h.partition, h.keys⟩

theorem settled_receive {s : State ι} {a b : Address} :
    Settled c (s.receive a) b ↔ Settled c s b :=
  ⟨fun h => ⟨h.unique, h.known⟩, fun h => ⟨h.unique, h.known⟩⟩

theorem created_receive {s : State ι} {a : Address} :
    Created c (s.receive a) ↔ Created c s ∧ Settled c s a := by
  constructor
  · intro h
    have htags : ∀ b ∈ s.received ++ [a], Settled c s b :=
      fun b hb => (settled_receive c).mp (h.tags b hb)
    exact ⟨⟨fun b hb => htags b (List.mem_append_left _ hb), h.partition, h.keys⟩,
      htags a (List.mem_append_right _ (List.mem_singleton_self a))⟩
  · rintro ⟨h, ha⟩
    refine ⟨fun b hb => ?_, h.partition, h.keys⟩
    rw [settled_receive]
    rcases List.mem_append.mp hb with hb | hb
    · exact h.tags b hb
    · obtain rfl := List.mem_singleton.mp hb
      exact ha

/-- Dropping the documents on their way is harmless just where their addresses have others. -/
theorem drain_expects {s : State ι} {m : ι} {a : Address} (hi : Inv c s)
    (ha : (s.node m).Expects c s.collection a) :
    (s.node m).drain.Expects c s.collection a ↔
      (a ∈ (s.node m).insertDocs.map Prod.fst → HasTag c s.collection a) := by
  constructor
  · intro h hmem
    obtain ⟨x, hx, rfl⟩ := List.mem_map.mp hmem
    exact (h (hi.docs m x hx).2).resolve_right List.not_mem_nil
  · intro h hmem
    rcases ha hmem with htag | hpending
    · exact .inl htag
    · exact .inl (h hpending)

theorem Node.create_expects {docs : List Point} {n : Node} {new : List (Address × Point)}
    {lastKey : Number} {a : Address} (h : n.Expects c docs a) :
    (n.create new lastKey).Expects c docs a := by
  intro ha
  show HasTag c docs a ∨ a ∈ (n.insertDocs ++ new).map Prod.fst
  rw [List.map_append]
  rcases List.mem_append.mp ha with hold | hnew
  · rcases h hold with htag | hpending
    · exact .inl htag
    · exact .inr (List.mem_append_left _ hpending)
  · exact .inr (List.mem_append_right _ hnew)

theorem mem_docs_iff {n : Node} {i : ℕ} {x : Address × Point} {a : Address}
    (hx : n.insertDocs[i]? = some x) :
    a ∈ n.insertDocs.map Prod.fst ↔ a = x.1 ∨ a ∈ (n.drop i).insertDocs.map Prod.fst := by
  obtain ⟨hlt, rfl⟩ := List.getElem?_eq_some_iff.mp hx
  have hperm : (n.insertDocs[i] :: (n.drop i).insertDocs).Perm n.insertDocs :=
    List.getElem_cons_eraseIdx_perm hlt
  rw [← (hperm.map Prod.fst).mem_iff, List.map_cons, List.mem_cons]

theorem created_other {s : State ι} {p : Point} (hs : Created c s)
    (hacc : accepts s.collection p = true)
    (hp : p.protocolSourceConnectionNumber ≠ .fin c.protocolConnectionNumber) :
    Created c { s with collection := s.collection ++ [p] } := by
  have htag : ∀ a, ¬ isTag c.protocolConnectionNumber a p = true := by
    intro a ha
    simp only [isTag, Bool.and_eq_true, decide_eq_true_eq] at ha
    exact hp ha.1.1
  refine ⟨fun a ha => ⟨?_, fun m hm => ?_⟩, hs.partition, hs.keys.other hacc⟩
  · exact (length_filter_append_le_one (hs.tags a ha).unique).mpr fun h => absurd h (htag a)
  · rcases (hs.tags a ha).known m hm with h | h
    · exact .inl (occurs_append.mpr (.inl h))
    · exact .inr h

theorem created_start (docs : List Point) : Created c (start docs : State ι) where
  tags := by intro a ha; cases ha
  partition := by intro p hp; cases hp
  keys := keyed_nil docs

theorem inv_start (docs : List Point) : Inv c (start docs : State ι) where
  docs := by intro m x hx; cases hx
  keys := keyed_nil docs

end Properties

section Steps

variable {ι ν : Type} [DecidableEq ι] (c : Client ν)

def State.setNode (s : State ι) (m : ι) (n : Node) : State ι :=
  { s with node := Function.update s.node m n }

@[simp] theorem setNode_same (s : State ι) (m : ι) (n : Node) : (s.setNode m n).node m = n := by
  show Function.update s.node m n m = n
  rw [Function.update_self]

theorem setNode_other (s : State ι) {m k : ι} (n : Node) (h : k ≠ m) :
    (s.setNode m n).node k = s.node k := by
  show Function.update s.node m n k = s.node k
  rw [Function.update_of_ne h]

def restart (s : State ι) (m : ι) : State ι :=
  let known := c.load s.collection
  { s.setNode m { started := known.isSome, InsertedAddresses := known.getD [] } with
    active := if s.active = some m then none else s.active }

def value (s : State ι) (m : ι) (v : ν) (a : Address) : State ι :=
  if a ∈ (s.node m).InsertedAddresses then s.receive a
  else
    let new := c.create v (s.node m).LastNewKeyCreated s.collection
    (s.receive a).setNode m ((s.node m).create new.1 new.2)

/-- The key is searched for when none is given out yet. -/
def unkeyed (s : State ι) (m : ι) (a : Address) : Option (State ι) :=
  if a ∉ (s.node m).InsertedAddresses ∧ (s.node m).LastNewKeyCreated.eqv (.fin 0) = true then
    some ((s.receive a).setNode m ((s.node m).fail c a))
  else none

/-- An insert the indexes refuse is dropped. -/
def insert (s : State ι) (m : ι) (i : ℕ) (x : Address × Point) : State ι :=
  let s' := s.setNode m ((s.node m).drop i)
  if accepts s.collection x.2 then s'.add x.2 else s'

def step (s : State ι) : Label ι ν → Option (State ι)
  | .restart m => some (restart c s m)
  | .activate m => if (s.node m).started then some { s with active := some m } else none
  | .value v => s.active.map fun m => ((c.address v).map (value c s m v)).getD s
  | .unkeyed v => s.active.bind fun m => (c.address v).bind (unkeyed c s m)
  | .insert m i => (s.node m).insertDocs[i]?.map (insert s m i)
  | .abort m => some (s.setNode m (s.node m).drain)
  | .other p =>
    if accepts s.collection p ∧
        p.protocolSourceConnectionNumber ≠ .fin c.protocolConnectionNumber then
      some { s with collection := s.collection ++ [p] }
    else none

/-- An insert that the indexes take has a key of the partition, and no received address
gets a second document; one that they refuse is of an address with a document, or with
another on its way. -/
def Fits (s : State ι) (m : ι) (i : ℕ) (x : Address × Point) : Prop :=
  if accepts s.collection x.2 then
    InPartition c.protocolConnectionNumber x.2._id ∧
      (x.1 ∈ s.received → ¬ HasTag c s.collection x.1)
  else x.1 ∈ s.received → HasTag c s.collection x.1 ∨
    x.1 ∈ ((s.node m).drop i).insertDocs.map Prod.fst

/-- The condition on the steps of a run. -/
def Condition (s : State ι) : Label ι ν → Prop
  | .restart _ => ∀ a ∈ s.received, a ∈ (c.load s.collection).getD [] → HasTag c s.collection a
  | .activate _ => True
  | .value v => s.active.isSome → ∀ a ∈ c.address v, Settled c s a
  | .unkeyed v => ∀ m ∈ s.active, ∀ a ∈ c.address v, unkeyed c s m a ≠ none →
    Settled c s a ∧ HasTag c s.collection a ∧ (c.keepsBatch = false → Spares c s m)
  | .insert m i => ∀ x ∈ (s.node m).insertDocs[i]?, Fits c s m i x
  | .abort m => Spares c s m
  | .other _ => True

theorem Settled.setNode {s : State ι} {m : ι} {n : Node} {a : Address} (h : Settled c s a)
    (hn : n.Expects c s.collection a) : Settled c (s.setNode m n) a := by
  refine ⟨h.unique, fun k => ?_⟩
  by_cases hk : k = m
  · subst hk
    rw [setNode_same]
    exact hn
  · rw [setNode_other s n hk]
    exact h.known k

theorem Settled.expects {s : State ι} {m : ι} {n : Node} {a : Address}
    (h : Settled c (s.setNode m n) a) : n.Expects c s.collection a := by
  have hm := h.known m
  rw [setNode_same] at hm
  exact hm

/-- The node that is changed did not know the address. -/
theorem Settled.of_setNode {s : State ι} {m : ι} {n : Node} {a : Address}
    (h : Settled c (s.setNode m n) a) (ha : a ∉ (s.node m).InsertedAddresses) :
    Settled c s a := by
  refine ⟨h.unique, fun k => ?_⟩
  by_cases hk : k = m
  · subst hk
    exact fun hknown => absurd hknown ha
  · have hkn := h.known k
    rw [setNode_other s n hk] at hkn
    exact hkn

theorem created_setNode {s : State ι} {m : ι} {n : Node} (hs : Created c s) :
    Created c (s.setNode m n) ↔ ∀ a ∈ s.received, n.Expects c s.collection a := by
  constructor
  · intro h a ha
    exact (h.tags a ha).expects
  · intro h
    exact ⟨fun a ha => (hs.tags a ha).setNode c (h a ha), hs.partition, hs.keys⟩

theorem created_value {s : State ι} {m : ι} {v : ν} {a : Address} (hs : Created c s) :
    Created c (value c s m v a) ↔ Settled c s a := by
  unfold value
  split_ifs with hknown
  · rw [created_receive]
    exact and_iff_right hs
  · let new := c.create v (s.node m).LastNewKeyCreated s.collection
    let n := (s.node m).create new.1 new.2
    show Created c ((s.setNode m n).receive a) ↔ _
    have hn : Created c (s.setNode m n) :=
      (created_setNode c hs).mpr fun b hb => Node.create_expects c ((hs.tags b hb).known m)
    rw [created_receive, and_iff_right hn]
    constructor
    · intro h
      exact h.of_setNode c hknown
    · intro h
      exact h.setNode c (Node.create_expects c (h.known m))

theorem created_unkeyed {s t : State ι} {m : ι} {a : Address} (hi : Inv c s) (hs : Created c s)
    (h : unkeyed c s m a = some t) :
    Created c t ↔
      Settled c s a ∧ HasTag c s.collection a ∧ (c.keepsBatch = false → Spares c s m) := by
  unfold unkeyed at h
  split_ifs at h with hnew
  obtain ⟨hunknown, -⟩ := hnew
  obtain rfl := Option.some.inj h
  let n := (s.node m).fail c a
  show Created c ((s.setNode m n).receive a) ↔ _
  have hpending : a ∉ n.insertDocs.map Prod.fst := by
    intro ha
    obtain ⟨x, hx, rfl⟩ := List.mem_map.mp ha
    have hmem : x ∈ (s.node m).insertDocs := by
      have hx' : x ∈ if c.keepsBatch then (s.node m).insertDocs else [] := hx
      split_ifs at hx'
      · exact hx'
      · exact absurd hx' List.not_mem_nil
    exact hunknown (hi.docs m x hmem).2
  have ha : n.Expects c s.collection a ↔ HasTag c s.collection a := by
    constructor
    · intro h
      exact (h (List.mem_append_right _ (List.mem_singleton_self a))).resolve_right hpending
    · intro h _
      exact .inl h
  rw [created_receive, created_setNode c hs]
  constructor
  · rintro ⟨hall, hset⟩
    refine ⟨hset.of_setNode c hunknown, ha.mp hset.expects, fun hkeeps b hb hdocs => ?_⟩
    obtain ⟨x, hx, rfl⟩ := List.mem_map.mp hdocs
    have hor := hall x.1 hb (List.mem_append_left _ (hi.docs m x hx).2)
    have hnil : n.insertDocs = [] := by
      show (if c.keepsBatch then _ else _) = _
      rw [hkeeps]
      rfl
    rw [hnil] at hor
    exact hor.resolve_right List.not_mem_nil
  · rintro ⟨hset, htag, hspares⟩
    refine ⟨fun b hb hmem => ?_, hset.setNode c (ha.mpr htag)⟩
    rcases List.mem_append.mp hmem with hold | hlast
    · rcases (hs.tags b hb).known m hold with hbtag | hbdocs
      · exact .inl hbtag
      · show _ ∨ b ∈ (if c.keepsBatch then (s.node m).insertDocs else []).map Prod.fst
        cases hkeeps : c.keepsBatch with
        | true => exact .inr hbdocs
        | false => exact .inl (hspares hkeeps b hb hbdocs)
    · obtain rfl := List.mem_singleton.mp hlast
      exact .inl htag

theorem created_insert {s : State ι} {m : ι} {i : ℕ} {x : Address × Point} (hi : Inv c s)
    (hs : Created c s) (hx : (s.node m).insertDocs[i]? = some x) :
    Created c (insert s m i x) ↔ Fits c s m i x := by
  have hmem : x ∈ (s.node m).insertDocs := List.mem_of_getElem? hx
  obtain ⟨htag, hknown⟩ := hi.docs m x hmem
  unfold insert Fits
  simp only []
  split_ifs with hacc
  · have hexpects : ∀ b, Settled c s b → ∀ k,
        ((s.setNode m ((s.node m).drop i)).node k).Expects c (s.collection ++ [x.2]) b := by
      intro b hb k
      have hold := hb.known k
      by_cases hk : k = m
      · subst hk
        rw [setNode_same]
        intro hbk
        rcases hold hbk with hbtag | hbdocs
        · exact .inl (occurs_append.mpr (.inl hbtag))
        · rcases (mem_docs_iff hx).mp hbdocs with rfl | hrest
          · exact .inl (occurs_append.mpr (.inr htag))
          · exact .inr hrest
      · rw [setNode_other s _ hk]
        intro hbk
        rcases hold hbk with hbtag | hbdocs
        · exact .inl (occurs_append.mpr (.inl hbtag))
        · exact .inr hbdocs
    constructor
    · intro h
      refine ⟨h.partition x.2 (List.mem_append_right _ (List.mem_singleton_self _)), ?_⟩
      intro hrec
      exact (length_filter_append_le_one (hs.tags x.1 hrec).unique).mp (h.tags x.1 hrec).unique htag
    · rintro ⟨hpart, hnone⟩
      refine ⟨fun b hb => ⟨?_, hexpects b (hs.tags b hb)⟩, fun p hp => ?_, ?_⟩
      · refine (length_filter_append_le_one (hs.tags b hb).unique).mpr fun hbtag => ?_
        obtain rfl := isTag_inj hbtag htag
        exact hnone hb
      · rcases List.mem_append.mp hp with hp | hp
        · exact hs.partition p hp
        · obtain rfl := List.mem_singleton.mp hp
          exact hpart
      · exact hs.keys.insert hacc
  · rw [created_setNode c hs]
    constructor
    · intro h hrec
      exact h x.1 hrec hknown
    · intro h b hb hbk
      rcases (hs.tags b hb).known m hbk with hbtag | hbdocs
      · exact .inl hbtag
      · rcases (mem_docs_iff hx).mp hbdocs with rfl | hrest
        · exact h hb
        · exact .inr hrest

theorem created_restart {s : State ι} {m : ι} (hs : Created c s) :
    Created c (restart c s m) ↔
      ∀ a ∈ s.received, a ∈ (c.load s.collection).getD [] → HasTag c s.collection a := by
  unfold restart
  simp only []
  rw [created_active, created_setNode c hs]
  constructor
  · intro h a ha hload
    exact (h a ha hload).resolve_right List.not_mem_nil
  · intro h a ha hload
    exact .inl (h a ha hload)

theorem created_abort {s : State ι} {m : ι} (hi : Inv c s) (hs : Created c s) :
    Created c (s.setNode m (s.node m).drain) ↔ Spares c s m := by
  rw [created_setNode c hs]
  constructor
  · intro h a ha
    exact (drain_expects c hi ((hs.tags a ha).known m)).mp (h a ha)
  · intro h a ha
    exact (drain_expects c hi ((hs.tags a ha).known m)).mpr (h a ha)

/-! ### The invariant -/

theorem inv_setNode {s : State ι} {m : ι} {n : Node} (hi : Inv c s)
    (hn : ∀ x ∈ n.insertDocs, isTag c.protocolConnectionNumber x.1 x.2 = true ∧
      x.1 ∈ n.InsertedAddresses) : Inv c (s.setNode m n) := by
  refine ⟨fun k => ?_, hi.keys⟩
  by_cases hk : k = m
  · subst hk
    rw [setNode_same]
    exact hn
  · rw [setNode_other s n hk]
    exact hi.docs k

theorem inv_value {s : State ι} {m : ι} {v : ν} {a : Address} (hi : Inv c s)
    (hv : c.address v = some a) : Inv c (value c s m v a) := by
  unfold value
  split_ifs with hknown
  · exact ⟨hi.docs, hi.keys⟩
  · have hrec : Inv c (s.receive a) := ⟨hi.docs, hi.keys⟩
    refine inv_setNode c hrec fun x hx => ?_
    rcases List.mem_append.mp hx with hold | hnew
    · obtain ⟨htag, hmem⟩ := hi.docs m x hold
      exact ⟨htag, List.mem_append_left _ hmem⟩
    · exact ⟨c.created v _ _ a hv x hnew,
        List.mem_append_right _ (List.mem_map_of_mem hnew)⟩

theorem inv_unkeyed {s t : State ι} {m : ι} {a : Address} (hi : Inv c s)
    (h : unkeyed c s m a = some t) : Inv c t := by
  unfold unkeyed at h
  split_ifs at h
  obtain rfl := Option.some.inj h
  have hrec : Inv c (s.receive a) := ⟨hi.docs, hi.keys⟩
  refine inv_setNode c hrec fun x hx => ?_
  have hmem : x ∈ (s.node m).insertDocs := by
    have hx' : x ∈ if c.keepsBatch then (s.node m).insertDocs else [] := hx
    split_ifs at hx'
    · exact hx'
    · exact absurd hx' List.not_mem_nil
  obtain ⟨htag, hknown⟩ := hi.docs m x hmem
  exact ⟨htag, List.mem_append_left _ hknown⟩

theorem inv_insert {s : State ι} {m : ι} {i : ℕ} {x : Address × Point} (hi : Inv c s) :
    Inv c (insert s m i x) := by
  have hdrop : Inv c (s.setNode m ((s.node m).drop i)) :=
    inv_setNode c hi fun y hy => hi.docs m y (List.mem_of_mem_eraseIdx hy)
  unfold insert
  simp only []
  split_ifs with hacc
  · exact ⟨hdrop.docs, hi.keys.insert hacc⟩
  · exact hdrop

theorem inv_step {s t : State ι} {l : Label ι ν} (hi : Inv c s) (h : step c s l = some t) :
    Inv c t := by
  cases l with
  | restart m =>
    obtain rfl := Option.some.inj h
    have hnew : Inv c (s.setNode m { started := (c.load s.collection).isSome
                                     InsertedAddresses := (c.load s.collection).getD [] }) :=
      inv_setNode c hi fun x hx => absurd hx List.not_mem_nil
    exact ⟨hnew.docs, hnew.keys⟩
  | activate m =>
    simp only [step] at h
    split_ifs at h
    obtain rfl := Option.some.inj h
    exact ⟨hi.docs, hi.keys⟩
  | value v =>
    obtain ⟨m, -, rfl⟩ := Option.map_eq_some_iff.mp h
    cases hv : c.address v with
    | none => exact hi
    | some a => exact inv_value c hi hv
  | unkeyed v =>
    obtain ⟨m, -, h⟩ := Option.bind_eq_some_iff.mp h
    obtain ⟨a, -, h⟩ := Option.bind_eq_some_iff.mp h
    exact inv_unkeyed c hi h
  | insert m i =>
    obtain ⟨x, -, rfl⟩ := Option.map_eq_some_iff.mp h
    exact inv_insert c hi
  | abort m =>
    obtain rfl := Option.some.inj h
    exact inv_setNode c hi fun x hx => absurd hx List.not_mem_nil
  | other p =>
    simp only [step] at h
    split_ifs at h with hp
    obtain rfl := Option.some.inj h
    exact ⟨hi.docs, hi.keys.other hp.1⟩

/-! ### One step, and a run -/

theorem created_step {s t : State ι} {l : Label ι ν} (hi : Inv c s) (hs : Created c s)
    (h : step c s l = some t) : Created c t ↔ Condition c s l := by
  cases l with
  | restart m =>
    obtain rfl := Option.some.inj h
    exact created_restart c hs
  | activate m =>
    simp only [step] at h
    split_ifs at h
    obtain rfl := Option.some.inj h
    rw [created_active]
    exact iff_of_true hs trivial
  | value v =>
    obtain ⟨m, hm, rfl⟩ := Option.map_eq_some_iff.mp h
    have hsome : s.active.isSome = true := Option.isSome_of_eq_some hm
    cases hv : c.address v with
    | none => simp [Condition, hv, hs]
    | some a =>
      have hiff := created_value c (m := m) (v := v) (a := a) hs
      simpa [Condition, hv, hsome] using hiff
  | unkeyed v =>
    obtain ⟨m, hm, h⟩ := Option.bind_eq_some_iff.mp h
    obtain ⟨a, hv, h⟩ := Option.bind_eq_some_iff.mp h
    rw [created_unkeyed c hi hs h]
    simp [Condition, hm, hv, h]
  | insert m i =>
    obtain ⟨x, hx, rfl⟩ := Option.map_eq_some_iff.mp h
    rw [created_insert c hi hs hx]
    simp [Condition, hx]
  | abort m =>
    obtain rfl := Option.some.inj h
    exact created_abort c hi hs
  | other p =>
    simp only [step] at h
    split_ifs at h with hp
    obtain rfl := Option.some.inj h
    exact iff_of_true (created_other c hs hp.1 hp.2) trivial

theorem condition_of_stuck {s : State ι} {l : Label ι ν} (h : step c s l = none) :
    Condition c s l := by
  cases l with
  | restart m => cases h
  | activate m => trivial
  | value v =>
    have hnone : s.active = none := Option.map_eq_none_iff.mp h
    intro hsome
    rw [hnone] at hsome
    cases hsome
  | unkeyed v =>
    intro m hm a ha hne
    refine absurd ?_ hne
    have hbind := Option.bind_eq_none_iff.mp h m hm
    exact Option.bind_eq_none_iff.mp hbind a ha
  | insert m i =>
    have hnone : (s.node m).insertDocs[i]? = none := Option.map_eq_none_iff.mp h
    intro x hx
    rw [hnone] at hx
    cases hx
  | abort m => cases h
  | other p => trivial

/-- Creation is complete and unique in a run just when its steps meet the condition. -/
theorem created_iff_every (docs : List Point) (labels : List (Label ι ν)) :
    (∀ s, Visits (step c) (start docs) labels s → Created c s) ↔
      Every (step c) (Condition c) (start docs) labels := by
  refine visits_iff_every (A := fun _ _ => True) ?_ (fun _ _ _ => condition_of_stuck c)
    (every_of_forall_mem fun _ _ => trivial) (inv_start c docs) (created_start c docs)
  intro s l t _ hi h
  exact ⟨inv_step c hi h, fun hs => created_step c hi hs h⟩

end Steps

end JsonScada.System.TagCreation
