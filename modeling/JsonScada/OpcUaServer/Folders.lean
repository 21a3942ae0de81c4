/- path: JsonScada/OpcUaServer/Folders
   source: src/OPC-UA-Server/index.js
   digest: The folders made of the groups of the tags, and the one each variable is put in. -/

import Mathlib.Data.List.Basic
import Mathlib.Logic.Function.Basic

set_option autoImplicit false
set_option relaxedAutoImplicit false

namespace JsonScada.OpcUaServer.Folders

/-- What is read of a document of the initial find for its folder. -/
structure Tag where
  tag : String
  group1 : String := ""
  group2 : String := ""
  group3 : String := ""
  protocolSourceBrowsePath : Option String := none
  deriving DecidableEq

/-- A value of `_componentOf`. A node stands with what is above it; its number tells it from
the others of its parent. -/
inductive Component where
  | undefined
  | folderJsonScada
  | folder (parent : Component) (browseName : String) (id : ℕ)
  /-- A member that every object inherits, read of a list of folders. -/
  | inherited (name : String)
  deriving DecidableEq

/-- A document of `res`. -/
structure Element where
  doc : Tag
  _componentOf : Component := .undefined
  deriving DecidableEq

/-- The members of `Object.prototype`. -/
def objectPrototype : List String :=
  ["constructor", "__defineGetter__", "__defineSetter__", "hasOwnProperty", "__lookupGetter__",
    "__lookupSetter__", "isPrototypeOf", "propertyIsEnumerable", "toString", "valueOf",
    "__proto__", "toLocaleString"]

/-- `groupList[name]` where `name in groupList`. -/
def member (groupList : String → Option Component) (name : String) : Option Component :=
  match groupList name with
  | some folder => some folder
  | none => if name ∈ objectPrototype then some (.inherited name) else none

def Component.isNode : Component → Bool
  | .folderJsonScada => true
  | .folder _ _ _ => true
  | _ => false

/-- The loop at one document: its list of folders, and the number of nodes so far. -/
structure Tables where
  groupList : String → Option Component
  nodes : ℕ

section Passes

variable (accepts : Component → Bool)

/-- `namespace.addFolder`; whether it takes something for a parent that is no node is left open,
and `none` is an exception. -/
def addFolder (parent : Component) (browseName : String) (id : ℕ) : Option Component :=
  if parent.isNode || accepts parent then some (.folder parent browseName id) else none

variable (group : Tag → Option String) (parent : Component → Component)
  (otherwise : Tag → Component → Component)

/-- One of the three passes, for the name a document has at its level. -/
def folderPass : Tables → List Element → Option (ℕ × List Element)
  | s, [] => some (s.nodes, [])
  | s, e :: res =>
    match group e.doc with
    | none => (folderPass s res).map fun r =>
        (r.1, { e with _componentOf := otherwise e.doc e._componentOf } :: r.2)
    | some name =>
      match member s.groupList name with
      | some folder => (folderPass s res).map fun r =>
          (r.1, { e with _componentOf := folder } :: r.2)
      | none =>
        (addFolder accepts (parent e._componentOf) name s.nodes).bind fun folder =>
          (folderPass ⟨Function.update s.groupList name (some folder), s.nodes + 1⟩ res).map
            fun r => (r.1, { e with _componentOf := folder } :: r.2)

/-- The tag has a browse path of its own, and the passes leave it out. -/
def hasBrowsePath (t : Tag) : Bool := t.protocolSourceBrowsePath.any fun path => path ≠ ""

def group1Of (t : Tag) : Option String :=
  if hasBrowsePath t || t.group1 = "" then none else some t.group1

def group2Of (t : Tag) : Option String :=
  if hasBrowsePath t || t.group1 = "" || t.group2 = "" then none else some t.group2

def group3Of (t : Tag) : Option String :=
  if hasBrowsePath t || t.group1 = "" || t.group2 = "" || t.group3 = "" then none
  else some t.group3

/-- A document without a first group, in the first pass. -/
def rooted (t : Tag) (c : Component) : Component :=
  if hasBrowsePath t = false ∧ t.group1 = "" ∧ c = .undefined then .folderJsonScada else c

def group1Pass (nodes : ℕ) (res : List Element) : Option (ℕ × List Element) :=
  folderPass accepts group1Of (fun _ => .folderJsonScada) rooted ⟨fun _ => none, nodes⟩ res

def group2Pass (nodes : ℕ) (res : List Element) : Option (ℕ × List Element) :=
  folderPass accepts group2Of id (fun _ c => c) ⟨fun _ => none, nodes⟩ res

def group3Pass (nodes : ℕ) (res : List Element) : Option (ℕ × List Element) :=
  folderPass accepts group3Of id (fun _ c => c) ⟨fun _ => none, nodes⟩ res

/-- The three passes; the variable of a document is added with its `_componentOf`. -/
def folderTree (tags : List Tag) : Option (List Element) :=
  (group1Pass accepts 0 (tags.map fun t => ⟨t, .undefined⟩)).bind fun r =>
    (group2Pass accepts r.1 r.2).bind fun r =>
      (group3Pass accepts r.1 r.2).map Prod.snd

end Passes

section Lists

variable {accepts : Component → Bool} {group : Tag → Option String}
  {parent : Component → Component} {otherwise : Tag → Component → Component}

/-- What a pass finds in its list, or what is in place of it. -/
def look (groupList : String → Option Component) (name : String) : Component :=
  (member groupList name).getD .undefined

/-- The component of a document behind a pass, by the list at its end. -/
def next (group : Tag → Option String) (otherwise : Tag → Component → Component)
    (groupList : String → Option Component) (C : Tag → Component) (t : Tag) : Component :=
  match group t with
  | none => otherwise t (C t)
  | some name => look groupList name

theorem next_of_some {groupList : String → Option Component} {C : Tag → Component} {t : Tag}
    {name : String} (h : group t = some name) :
    next group otherwise groupList C t = look groupList name := by
  rw [next, h]

theorem next_of_none {groupList : String → Option Component} {C : Tag → Component} {t : Tag}
    (h : group t = none) : next group otherwise groupList C t = otherwise t (C t) := by
  rw [next, h]

/-- What a pass over `tags` makes of a list: entries stay, each new one is a folder under the
parent of the first document that has the name, and every name comes to one. -/
structure Made (group : Tag → Option String) (parentOf : Tag → Component) (tags : List Tag)
    (start groupList : String → Option Component) : Prop where
  stays : ∀ name c, start name = some c → groupList name = some c
  first : ∀ name c, groupList name = some c → start name = some c ∨
    name ∉ objectPrototype ∧ ∃ t id,
      tags.find? (fun t => group t = some name) = some t ∧ c = .folder (parentOf t) name id
  all : ∀ t ∈ tags, ∀ name, group t = some name → name ∉ objectPrototype →
    ∃ c, groupList name = some c

theorem member_of_some {groupList : String → Option Component} {name : String} {c : Component}
    (h : groupList name = some c) : member groupList name = some c := by
  simp [member, h]

theorem member_eq_some {groupList : String → Option Component} {name : String} {c : Component}
    (h : member groupList name = some c) :
    groupList name = some c ∨ name ∈ objectPrototype ∧ c = .inherited name := by
  unfold member at h
  cases hn : groupList name with
  | some d =>
    rw [hn] at h
    exact Or.inl h
  | none =>
    rw [hn] at h
    simp only [Option.ite_none_right_eq_some, Option.some.injEq] at h
    exact Or.inr ⟨h.1, h.2.symm⟩

theorem member_eq_none {groupList : String → Option Component} {name : String}
    (h : member groupList name = none) :
    groupList name = none ∧ name ∉ objectPrototype := by
  unfold member at h
  cases hn : groupList name with
  | some d => simp [hn] at h
  | none => simpa [hn] using h

namespace Made

variable {parentOf : Tag → Component} {tags : List Tag} {t : Tag} {name : String}
  {start groupList : String → Option Component}

theorem nil : Made group parentOf [] start start where
  stays := fun _ _ h => h
  first := fun _ _ h => Or.inl h
  all := fun _ h => absurd h List.not_mem_nil

/-- A document that has no name at the level. -/
theorem skip (h : Made group parentOf tags start groupList) (ht : group t = none) :
    Made group parentOf (t :: tags) start groupList where
  stays := h.stays
  first := fun m c hm => by
    obtain hs | ⟨hp, u, id, hu, hc⟩ := h.first m c hm
    · exact Or.inl hs
    · exact Or.inr ⟨hp, u, id, by simpa [List.find?_cons, ht] using hu, hc⟩
  all := fun u hu m hm hp => by
    obtain rfl | hu := List.mem_cons.mp hu
    · rw [ht] at hm
      cases hm
    · exact h.all u hu m hm hp

/-- A document whose name is in the list, or is one that every object has. -/
theorem hit {c : Component} (h : Made group parentOf tags start groupList)
    (ht : group t = some name) (hc : member start name = some c) :
    Made group parentOf (t :: tags) start groupList where
  stays := h.stays
  first := fun m d hm => by
    obtain hs | ⟨hp, u, id, hu, hd⟩ := h.first m d hm
    · exact Or.inl hs
    · by_cases hne : name = m
      · subst hne
        obtain hs | ⟨hp', -⟩ := member_eq_some hc
        · have hsame := (h.stays name c hs).symm.trans hm
          rw [hsame] at hs
          exact Or.inl hs
        · exact absurd hp' hp
      · exact Or.inr ⟨hp, u, id, by simpa [List.find?_cons, ht, hne] using hu, hd⟩
  all := fun u hu m hm hp => by
    obtain rfl | hu := List.mem_cons.mp hu
    · obtain rfl : name = m := Option.some.inj (ht.symm.trans hm)
      obtain hs | ⟨hp', -⟩ := member_eq_some hc
      · exact ⟨c, h.stays name c hs⟩
      · exact absurd hp' hp
    · exact h.all u hu m hm hp

/-- A document whose name is new. -/
theorem miss {id : ℕ}
    (h : Made group parentOf tags
      (Function.update start name (some (.folder (parentOf t) name id))) groupList)
    (ht : group t = some name) (hn : member start name = none) :
    Made group parentOf (t :: tags) start groupList where
  stays := fun m c hm => by
    refine h.stays m c ?_
    have hne : m ≠ name := by
      rintro rfl
      rw [(member_eq_none hn).1] at hm
      cases hm
    rwa [Function.update_of_ne hne]
  first := fun m c hm => by
    by_cases hne : m = name
    · subst hne
      have hown := h.stays m _ (Function.update_self m _ start)
      rw [hown] at hm
      exact Or.inr ⟨(member_eq_none hn).2, t, id, by simp [ht], (Option.some.inj hm).symm⟩
    · obtain hs | ⟨hp, u, i, hu, hc⟩ := h.first m c hm
      · rw [Function.update_of_ne hne] at hs
        exact Or.inl hs
      · have hne' : ¬name = m := fun e => hne e.symm
        exact Or.inr ⟨hp, u, i, by simpa [List.find?_cons, ht, hne'] using hu, hc⟩
  all := fun u hu m hm hp => by
    obtain rfl | hu := List.mem_cons.mp hu
    · obtain rfl : name = m := Option.some.inj (ht.symm.trans hm)
      exact ⟨_, h.stays name _ (Function.update_self name _ start)⟩
    · exact h.all u hu m hm hp

/-- A name that was in the list before the rest of the documents is found there behind them. -/
theorem look_eq {c : Component} (h : Made group parentOf tags start groupList)
    (hc : member start name = some c) : look groupList name = c := by
  obtain hs | ⟨hp, rfl⟩ := member_eq_some hc
  · rw [look, member_of_some (h.stays name c hs)]
    rfl
  · unfold look member
    cases hn : groupList name with
    | none => simp [hp]
    | some d =>
      obtain hs | ⟨hp', -⟩ := h.first name d hn
      · rw [member_of_some hs] at hc
        exact Option.some.inj hc
      · exact absurd hp hp'

end Made

/-- By induction on the documents: each finds its name in the list at the end. -/
theorem folderPass_eq {C : Tag → Component} {tags : List Tag} {s : Tables}
    {r : ℕ × List Element}
    (h : folderPass accepts group parent otherwise s (tags.map fun t => ⟨t, C t⟩) = some r) :
    ∃ groupList, Made group (fun t => parent (C t)) tags s.groupList groupList ∧
      r.2 = tags.map fun t => ⟨t, next group otherwise groupList C t⟩ := by
  induction tags generalizing s r with
  | nil =>
    simp only [List.map_nil, folderPass, Option.some.injEq] at h
    subst h
    exact ⟨s.groupList, Made.nil, rfl⟩
  | cons t tags ih =>
    rw [List.map_cons, folderPass] at h
    cases hg : group t with
    | none =>
      simp only [hg, Option.map_eq_some_iff] at h
      obtain ⟨r', hr', rfl⟩ := h
      obtain ⟨groupList, hmade, hres⟩ := ih hr'
      refine ⟨groupList, hmade.skip hg, ?_⟩
      rw [List.map_cons, hres, next_of_none hg]
    | some name =>
      simp only [hg] at h
      cases hm : member s.groupList name with
      | some folder =>
        simp only [hm, Option.map_eq_some_iff] at h
        obtain ⟨r', hr', rfl⟩ := h
        obtain ⟨groupList, hmade, hres⟩ := ih hr'
        refine ⟨groupList, hmade.hit hg hm, ?_⟩
        rw [List.map_cons, hres, next_of_some hg, hmade.look_eq hm]
      | none =>
        simp only [hm, Option.bind_eq_some_iff, Option.map_eq_some_iff] at h
        obtain ⟨folder, hadd, r', hr', rfl⟩ := h
        obtain ⟨groupList, hmade, hres⟩ := ih hr'
        unfold addFolder at hadd
        rw [Option.ite_none_right_eq_some] at hadd
        obtain ⟨-, hf⟩ := hadd
        obtain rfl := Option.some.inj hf
        have hown : member (Function.update s.groupList name
            (some (.folder (parent (C t)) name s.nodes))) name =
            some (.folder (parent (C t)) name s.nodes) :=
          member_of_some (Function.update_self ..)
        refine ⟨groupList, Made.miss hmade hg hm, ?_⟩
        rw [List.map_cons, hres, next_of_some hg, hmade.look_eq hown]

/-- A pass whose parents are nodes comes to its end. -/
theorem folderPass_isSome {C : Tag → Component} {tags : List Tag} {s : Tables}
    (h : ∀ t ∈ tags, group t ≠ none → (parent (C t)).isNode = true) :
    ∃ r, folderPass accepts group parent otherwise s (tags.map fun t => ⟨t, C t⟩) = some r := by
  induction tags generalizing s with
  | nil => exact ⟨_, rfl⟩
  | cons t tags ih =>
    have hrest := fun u hu => h u (List.mem_cons_of_mem t hu)
    rw [List.map_cons, folderPass]
    cases hg : group t with
    | none =>
      obtain ⟨r, hr⟩ := ih (s := s) hrest
      exact ⟨_, by simp only [hr, Option.map_some]; rfl⟩
    | some name =>
      cases hm : member s.groupList name with
      | some folder =>
        obtain ⟨r, hr⟩ := ih (s := s) hrest
        exact ⟨_, by simp only [hm, hr, Option.map_some]; rfl⟩
      | none =>
        have hnode := h t List.mem_cons_self (by simp [hg])
        obtain ⟨r, hr⟩ := ih hrest
          (s := ⟨Function.update s.groupList name (some (.folder (parent (C t)) name s.nodes)),
            s.nodes + 1⟩)
        exact ⟨_, by simp only [hm, addFolder, hnode, Bool.true_or, if_true, Option.bind_some,
          hr, Option.map_some]; rfl⟩

end Lists

end JsonScada.OpcUaServer.Folders
