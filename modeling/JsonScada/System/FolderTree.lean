/- path: JsonScada/System/FolderTree
   layer: OPC-UA server
   digest: The variables lie under their group paths exactly when no name is inherited and the
   names of a lower level have one parent each. -/

import JsonScada.OpcUaServer.Folders

set_option autoImplicit false
set_option relaxedAutoImplicit false

namespace JsonScada.System.FolderTree

open JsonScada.OpcUaServer.Folders

/-- The browse names from the top folder down to a node. -/
def path : Component → Option (List String)
  | .undefined => none
  | .folderJsonScada => some ["JsonScadaServer"]
  | .folder parent browseName _ => (path parent).map (· ++ [browseName])
  | .inherited _ => none

/-- `JsonScadaServer / group1 / group2 / group3`, cut at the first empty group. -/
def groupPath (t : Tag) : List String :=
  "JsonScadaServer" :: [t.group1, t.group2, t.group3].takeWhile (· ≠ "")

/-- Where the variables of the tags are to be. -/
structure Placed (tags : List Tag) (es : List Element) : Prop where
  docs : es.map Element.doc = tags
  under : ∀ e ∈ es, path e._componentOf = some (groupPath e.doc)
  shared : ∀ e ∈ es, ∀ d ∈ es, e._componentOf = d._componentOf ↔ groupPath e.doc = groupPath d.doc

/-- The groups that a list of folders kept by bare names tells apart. -/
structure Separate (tags : List Tag) : Prop where
  named : ∀ t ∈ tags, ∀ name ∈ groupPath t, name ∉ objectPrototype
  second : ∀ t ∈ tags, ∀ u ∈ tags, ∀ name, group2Of t = some name → group2Of u = some name →
    t.group1 = u.group1
  third : ∀ t ∈ tags, ∀ u ∈ tags, ∀ name, group3Of t = some name → group3Of u = some name →
    t.group2 = u.group2

section Levels

variable {group above : Tag → Option String} {parentOf C : Tag → Component} {tags : List Tag}
  {groupList upper : String → Option Component}

theorem isNode_of_path {c : Component} {p : List String} (h : path c = some p) :
    c.isNode = true := by
  cases c with
  | undefined => cases h
  | folderJsonScada => rfl
  | folder parent browseName id => rfl
  | inherited name => cases h

/-- What a pass finds that has a path is a folder it made. -/
theorem path_look (hmade : Made group parentOf tags (fun _ => none) groupList) {name : String}
    {p : List String} (h : path (look groupList name) = some p) :
    name ∉ objectPrototype ∧ ∃ t ∈ tags, group t = some name ∧
      ∃ q, path (parentOf t) = some q ∧ p = q ++ [name] := by
  cases hm : member groupList name with
  | none =>
    rw [look, hm] at h
    cases h
  | some c =>
    rw [look, hm, Option.getD_some] at h
    obtain hs | ⟨-, rfl⟩ := member_eq_some hm
    · obtain hn | ⟨hp, t, id, ht, rfl⟩ := hmade.first name c hs
      · cases hn
      · obtain ⟨q, hq, hqp⟩ := Option.map_eq_some_iff.mp h
        have hgroup := List.find?_some ht
        exact ⟨hp, t, List.mem_of_find?_eq_some ht, by simpa using hgroup, q, hq, hqp.symm⟩
    · cases h

/-- The folder of a name of a document, by the document that was the first to have it. -/
theorem path_of_name (hmade : Made group parentOf tags (fun _ => none) groupList) {t : Tag}
    (ht : t ∈ tags) {name : String} (hname : group t = some name)
    (hp : name ∉ objectPrototype) :
    ∃ u ∈ tags, group u = some name ∧
      path (look groupList name) = (path (parentOf u)).map (· ++ [name]) := by
  obtain ⟨c, hc⟩ := hmade.all t ht name hname hp
  obtain hn | ⟨-, u, id, hu, rfl⟩ := hmade.first name c hc
  · cases hn
  · have hgroup := List.find?_some hu
    refine ⟨u, List.mem_of_find?_eq_some hu, by simpa using hgroup, ?_⟩
    rw [look, member_of_some hc]
    rfl

/-- A folder at the end of a path is in one that is found by the name before. -/
theorem path_above (hmade : Made group parentOf tags (fun _ => none) groupList)
    (hupper : Made above C tags (fun _ => none) upper)
    (hparent : ∀ t ∈ tags, ∀ name, group t = some name →
      ∃ m, above t = some m ∧ parentOf t = look upper m)
    {q : List String} {first last : String}
    (h : path (look groupList last) = some (q ++ [first] ++ [last])) :
    path (look upper first) = some (q ++ [first]) := by
  obtain ⟨-, t, ht, hlast, r, hr, hqr⟩ := path_look hmade h
  obtain rfl : q ++ [first] = r := (List.append_left_inj [last]).mp hqr
  obtain ⟨m, -, hm⟩ := hparent t ht last hlast
  rw [hm] at hr
  obtain ⟨-, -, -, -, q', -, hq'⟩ := path_look hupper hr
  obtain ⟨-, hfirst⟩ := List.append_inj' hq' rfl
  obtain rfl : first = m := by simpa using hfirst
  exact hr

end Levels

section Groups

variable {t u : Tag} {name : String}

theorem group1Of_eq_some : group1Of t = some name ↔
    hasBrowsePath t = false ∧ t.group1 ≠ "" ∧ t.group1 = name := by
  unfold group1Of
  by_cases hb : hasBrowsePath t <;> by_cases h1 : t.group1 = "" <;> simp [hb, h1]

theorem group2Of_eq_some : group2Of t = some name ↔
    group1Of t = some t.group1 ∧ t.group2 ≠ "" ∧ t.group2 = name := by
  unfold group1Of group2Of
  by_cases hb : hasBrowsePath t <;> by_cases h1 : t.group1 = "" <;>
    by_cases h2 : t.group2 = "" <;> simp [hb, h1, h2]

theorem group3Of_eq_some : group3Of t = some name ↔
    group2Of t = some t.group2 ∧ t.group3 ≠ "" ∧ t.group3 = name := by
  unfold group2Of group3Of
  by_cases hb : hasBrowsePath t <;> by_cases h1 : t.group1 = "" <;>
    by_cases h2 : t.group2 = "" <;> by_cases h3 : t.group3 = "" <;> simp [hb, h1, h2, h3]

theorem group3Of_none (h : group2Of t = none) : group3Of t = none := by
  refine Option.eq_none_iff_forall_ne_some.mpr fun name hname => ?_
  rw [(group3Of_eq_some.mp hname).1] at h
  cases h

/-- The group path by the names a document has at the three levels. -/
theorem groupPath_eq (hb : hasBrowsePath t = false) :
    groupPath t = "JsonScadaServer" ::
      ((group1Of t).toList ++ (group2Of t).toList ++ (group3Of t).toList) := by
  unfold groupPath group1Of group2Of group3Of
  by_cases h1 : t.group1 = "" <;> by_cases h2 : t.group2 = "" <;>
    by_cases h3 : t.group3 = "" <;> simp [hb, h1, h2, h3]

/-- What stands at each level of the group path. -/
theorem getElem_groupPath (hb : hasBrowsePath t = false) : (groupPath t)[1]? = group1Of t ∧
    (groupPath t)[2]? = group2Of t ∧ (groupPath t)[3]? = group3Of t := by
  unfold groupPath group1Of group2Of group3Of
  by_cases h1 : t.group1 = "" <;> by_cases h2 : t.group2 = "" <;>
    by_cases h3 : t.group3 = "" <;> simp [hb, h1, h2, h3]

/-- Documents of one group path have the same name at each level, or none. -/
theorem names_of_groupPath (ht : hasBrowsePath t = false) (hu : hasBrowsePath u = false)
    (h : groupPath t = groupPath u) :
    group1Of t = group1Of u ∧ group2Of t = group2Of u ∧ group3Of t = group3Of u := by
  obtain ⟨ht1, ht2, ht3⟩ := getElem_groupPath ht
  obtain ⟨hu1, hu2, hu3⟩ := getElem_groupPath hu
  rw [h] at ht1 ht2 ht3
  exact ⟨ht1.symm.trans hu1, ht2.symm.trans hu2, ht3.symm.trans hu3⟩

end Groups

section Components

variable (first second third : String → Option Component)

/-- `_componentOf` behind the first pass, by the list it made. -/
def component1 : Tag → Component := next group1Of rooted first fun _ => .undefined

def component2 : Tag → Component := next group2Of (fun _ c => c) second (component1 first)

def component3 : Tag → Component := next group3Of (fun _ c => c) third (component2 first second)

/-- The lists of the three passes. -/
structure Lists (tags : List Tag) : Prop where
  group1List : Made group1Of (fun _ => .folderJsonScada) tags (fun _ => none) first
  group2List : Made group2Of (component1 first) tags (fun _ => none) second
  group3List : Made group3Of (component2 first second) tags (fun _ => none) third

end Components

section Tree

variable {accepts : Component → Bool} {tags : List Tag}
  {first second third : String → Option Component} {t : Tag} {name : String}

theorem component1_eq (h : group1Of t = some name) : component1 first t = look first name :=
  next_of_some h

theorem component2_eq (h : group2Of t = some name) :
    component2 first second t = look second name :=
  next_of_some h

theorem component3_eq (h : group3Of t = some name) :
    component3 first second third t = look third name :=
  next_of_some h

theorem component2_of_none (h : group2Of t = none) :
    component2 first second t = component1 first t :=
  next_of_none h

theorem component3_of_none (h : group3Of t = none) :
    component3 first second third t = component2 first second t :=
  next_of_none h

theorem component1_of_none (hb : hasBrowsePath t = false) (h : group1Of t = none) :
    component1 first t = .folderJsonScada := by
  have h1 : t.group1 = "" := by
    by_contra h1
    rw [group1Of_eq_some.mpr ⟨hb, h1, rfl⟩] at h
    cases h
  rw [component1, next_of_none h]
  simp [rooted, hb, h1]

/-- The documents are left with what the three lists hold. -/
theorem folderTree_eq {es : List Element} (h : folderTree accepts tags = some es) :
    ∃ first second third, Lists first second third tags ∧
      es = tags.map fun t => ⟨t, component3 first second third t⟩ := by
  unfold folderTree at h
  simp only [Option.bind_eq_some_iff, Option.map_eq_some_iff] at h
  obtain ⟨⟨n1, res1⟩, h1, ⟨n2, res2⟩, h2, ⟨n3, res3⟩, h3, rfl⟩ := h
  obtain ⟨first, hfirst, he1⟩ := folderPass_eq h1
  simp only at he1
  subst he1
  obtain ⟨second, hsecond, he2⟩ := folderPass_eq h2
  simp only at he2
  subst he2
  obtain ⟨third, hthird, he3⟩ := folderPass_eq h3
  exact ⟨first, second, third, ⟨hfirst, hsecond, hthird⟩, he3⟩

/-- What is placed under its path has a parent at each level that is its own group: from the
last level up, since a name is looked up in one list whatever is above it. -/
theorem separate_of_under (hlists : Lists first second third tags)
    (hpath : ∀ t ∈ tags, hasBrowsePath t = false)
    (hunder : ∀ t ∈ tags, path (component3 first second third t) = some (groupPath t)) :
    Separate tags := by
  have hthird : ∀ t ∈ tags, ∀ name, group3Of t = some name →
      path (look third name) = some ["JsonScadaServer", t.group1, t.group2, name] := by
    intro t ht name h3
    obtain ⟨h2, -, -⟩ := group3Of_eq_some.mp h3
    have hp := hunder t ht
    rw [component3_eq h3, groupPath_eq (hpath t ht), (group2Of_eq_some.mp h2).1, h2, h3] at hp
    exact hp
  have hsecond : ∀ t ∈ tags, ∀ name, group2Of t = some name →
      path (look second name) = some ["JsonScadaServer", t.group1, name] := by
    intro t ht name h2
    obtain ⟨h1, -, hname⟩ := group2Of_eq_some.mp h2
    cases h3 : group3Of t with
    | none =>
      have hp := hunder t ht
      rw [component3_of_none h3, component2_eq h2, groupPath_eq (hpath t ht), h1, h2, h3] at hp
      exact hp
    | some last =>
      subst hname
      refine path_above (q := ["JsonScadaServer", t.group1]) hlists.group3List hlists.group2List
        (fun u _ m hm => ?_) (hthird t ht last h3)
      have hu := (group3Of_eq_some.mp hm).1
      exact ⟨u.group2, hu, component2_eq hu⟩
  have hfirst : ∀ t ∈ tags, ∀ name, group1Of t = some name →
      path (look first name) = some ["JsonScadaServer", name] := by
    intro t ht name h1
    cases h2 : group2Of t with
    | none =>
      have h3 := group3Of_none h2
      have hp := hunder t ht
      rw [component3_of_none h3, component2_of_none h2, component1_eq h1,
        groupPath_eq (hpath t ht), h1, h2, h3] at hp
      exact hp
    | some last =>
      obtain rfl := (group1Of_eq_some.mp h1).2.2
      refine path_above (q := ["JsonScadaServer"]) hlists.group2List hlists.group1List
        (fun u _ m hm => ?_) (hsecond t ht last h2)
      have hu := (group2Of_eq_some.mp hm).1
      exact ⟨u.group1, hu, component1_eq hu⟩
  constructor
  · intro t ht name hname
    rw [groupPath_eq (hpath t ht)] at hname
    simp only [List.mem_cons, List.mem_append, Option.mem_toList] at hname
    obtain rfl | (h1 | h2) | h3 := hname
    · decide
    · exact (path_look hlists.group1List (hfirst t ht name h1)).1
    · exact (path_look hlists.group2List (hsecond t ht name h2)).1
    · exact (path_look hlists.group3List (hthird t ht name h3)).1
  · intro t ht u hu name h2 h2'
    have hsame := (hsecond t ht name h2).symm.trans (hsecond u hu name h2')
    simpa using hsame
  · intro t ht u hu name h3 h3'
    have hsame := (hthird t ht name h3).symm.trans (hthird u hu name h3')
    simp only [Option.some.injEq, List.cons.injEq] at hsame
    exact hsame.2.2.1

section Kept

variable (hseparate : Separate tags) (hpath : ∀ t ∈ tags, hasBrowsePath t = false)
include hseparate hpath

theorem name_of_level (ht : t ∈ tags)
    (h : group1Of t = some name ∨ group2Of t = some name ∨ group3Of t = some name) :
    name ∉ objectPrototype := by
  refine hseparate.named t ht name ?_
  rw [groupPath_eq (hpath t ht)]
  obtain h | h | h := h <;> simp [h]

theorem path_first (hmade : Made group1Of (fun _ => .folderJsonScada) tags (fun _ => none) first)
    (ht : t ∈ tags) (h : group1Of t = some name) :
    path (look first name) = some ["JsonScadaServer", name] := by
  have hp := name_of_level hseparate hpath ht (Or.inl h)
  obtain ⟨-, -, -, hlook⟩ := path_of_name hmade ht h hp
  rw [hlook]
  rfl

/-- The first document that has the name of the second level is in the same first group. -/
theorem path_second
    (hfirst : Made group1Of (fun _ => .folderJsonScada) tags (fun _ => none) first)
    (hmade : Made group2Of (component1 first) tags (fun _ => none) second)
    (ht : t ∈ tags) (h : group2Of t = some name) :
    path (look second name) = some ["JsonScadaServer", t.group1, name] := by
  have hp := name_of_level hseparate hpath ht (Or.inr (Or.inl h))
  obtain ⟨u, hu, hname, hlook⟩ := path_of_name hmade ht h hp
  have hu1 := (group2Of_eq_some.mp hname).1
  rw [hlook, component1_eq hu1, path_first hseparate hpath hfirst hu hu1,
    hseparate.second t ht u hu name h hname]
  rfl

theorem path_third (hlists : Lists first second third tags) (ht : t ∈ tags)
    (h : group3Of t = some name) :
    path (look third name) = some ["JsonScadaServer", t.group1, t.group2, name] := by
  have hp := name_of_level hseparate hpath ht (Or.inr (Or.inr h))
  obtain ⟨u, hu, hname, hlook⟩ := path_of_name hlists.group3List ht h hp
  have hu2 := (group3Of_eq_some.mp hname).1
  have ht2 := (group3Of_eq_some.mp h).1
  have hsame := hseparate.third t ht u hu name h hname
  rw [← hsame] at hu2
  rw [hlook, component2_eq hu2,
    path_second hseparate hpath hlists.group1List hlists.group2List ht ht2]
  rfl

/-- A document is under the folder of the last name it has. -/
theorem under_of_separate (hlists : Lists first second third tags) (ht : t ∈ tags) :
    path (component3 first second third t) = some (groupPath t) := by
  rw [groupPath_eq (hpath t ht)]
  cases h3 : group3Of t with
  | some last =>
    obtain ⟨h2, -, -⟩ := group3Of_eq_some.mp h3
    rw [component3_eq h3, path_third hseparate hpath hlists ht h3, h2,
      (group2Of_eq_some.mp h2).1]
    rfl
  | none =>
    rw [component3_of_none h3]
    cases h2 : group2Of t with
    | some last =>
      rw [component2_eq h2,
        path_second hseparate hpath hlists.group1List hlists.group2List ht h2,
        (group2Of_eq_some.mp h2).1]
      rfl
    | none =>
      rw [component2_of_none h2]
      cases h1 : group1Of t with
      | some last =>
        rw [component1_eq h1, path_first hseparate hpath hlists.group1List ht h1]
        rfl
      | none =>
        rw [component1_of_none (hpath t ht) h1]
        rfl

/-- No pass stops: what a folder is added to is one that the pass before made. -/
theorem folderTree_isSome : ∃ es, folderTree accepts tags = some es := by
  have hpass1 : ∃ r, group1Pass accepts 0 (tags.map fun t => ⟨t, .undefined⟩) = some r :=
    folderPass_isSome fun _ _ _ => rfl
  obtain ⟨⟨n1, res1⟩, h1⟩ := hpass1
  obtain ⟨first, hfirst, he1⟩ := folderPass_eq h1
  simp only at he1
  subst he1
  have hpass2 : ∃ r, group2Pass accepts n1 (tags.map fun t => ⟨t, component1 first t⟩) =
      some r := by
    refine folderPass_isSome fun t ht hname => ?_
    obtain ⟨name, hname⟩ := Option.ne_none_iff_exists'.mp hname
    have ht1 := (group2Of_eq_some.mp hname).1
    have hp := path_first hseparate hpath hfirst ht ht1
    rw [← component1_eq ht1] at hp
    exact isNode_of_path hp
  obtain ⟨⟨n2, res2⟩, h2⟩ := hpass2
  obtain ⟨second, hsecond, he2⟩ := folderPass_eq h2
  simp only at he2
  subst he2
  have hpass3 : ∃ r, group3Pass accepts n2 (tags.map fun t => ⟨t, component2 first second t⟩) =
      some r := by
    refine folderPass_isSome fun t ht hname => ?_
    obtain ⟨name, hname⟩ := Option.ne_none_iff_exists'.mp hname
    have ht2 := (group3Of_eq_some.mp hname).1
    have hp := path_second hseparate hpath hfirst hsecond ht ht2
    rw [← component2_eq ht2] at hp
    exact isNode_of_path hp
  obtain ⟨r3, h3⟩ := hpass3
  refine ⟨r3.2, ?_⟩
  simp only [folderTree, h1, Option.bind_some]
  exact (congrArg (fun o => o.bind fun r => (group3Pass accepts r.1 r.2).map Prod.snd) h2).trans
    (congrArg (Option.map Prod.snd) h3)

end Kept

/-- Documents with the same name at each level get the same folder. -/
theorem component3_congr {u : Tag} (ht : hasBrowsePath t = false) (hu : hasBrowsePath u = false)
    (h : groupPath t = groupPath u) :
    component3 first second third t = component3 first second third u := by
  obtain ⟨h1, h2, h3⟩ := names_of_groupPath ht hu h
  cases hn3 : group3Of t with
  | some last => rw [component3_eq hn3, component3_eq (h3.symm.trans hn3)]
  | none =>
    rw [component3_of_none hn3, component3_of_none (h3.symm.trans hn3)]
    cases hn2 : group2Of t with
    | some last => rw [component2_eq hn2, component2_eq (h2.symm.trans hn2)]
    | none =>
      rw [component2_of_none hn2, component2_of_none (h2.symm.trans hn2)]
      cases hn1 : group1Of t with
      | some last => rw [component1_eq hn1, component1_eq (h1.symm.trans hn1)]
      | none =>
        rw [component1_of_none ht hn1, component1_of_none hu (h1.symm.trans hn1)]

theorem placed_iff (accepts : Component → Bool) (tags : List Tag)
    (hpath : ∀ t ∈ tags, hasBrowsePath t = false) :
    (∃ es, folderTree accepts tags = some es ∧ Placed tags es) ↔ Separate tags := by
  constructor
  · rintro ⟨es, hes, hplaced⟩
    obtain ⟨first, second, third, hlists, rfl⟩ := folderTree_eq hes
    refine separate_of_under hlists hpath fun t ht => ?_
    exact hplaced.under _ (List.mem_map_of_mem (f := fun t =>
      (⟨t, component3 first second third t⟩ : Element)) ht)
  · intro hseparate
    have htree : ∃ es, folderTree accepts tags = some es := folderTree_isSome hseparate hpath
    obtain ⟨es, hes⟩ := htree
    refine ⟨es, hes, ?_⟩
    obtain ⟨first, second, third, hlists, rfl⟩ := folderTree_eq hes
    have hunder := fun t ht => under_of_separate hseparate hpath hlists (t := t) ht
    refine ⟨?_, ?_, ?_⟩
    · simp [Function.comp_def]
    · simpa using hunder
    · simp only [List.forall_mem_map]
      intro t ht u hu
      constructor
      · intro hsame
        have hp := hunder t ht
        rw [hsame, hunder u hu] at hp
        exact (Option.some.inj hp).symm
      · exact component3_congr (hpath t ht) (hpath u hu)

def yard : List Tag :=
  [⟨"KAW2AL21MTWT", "KAW2", "AL21", "MTWT", none⟩, ⟨"KOR1TR1MTVA", "KOR1", "TR1", "MTVA", none⟩,
    ⟨"KAW2AL22", "KAW2", "AL22", "", none⟩, ⟨"KAW2AL21MTWV", "KAW2", "AL21", "MTWT", none⟩,
    ⟨"ALARMS", "", "AL21", "", none⟩]

theorem yard_placed : ∃ es, folderTree (fun _ => false) yard = some es ∧ Placed yard es := by
  refine (placed_iff _ yard (by decide)).mpr ⟨by decide +kernel, ?_, ?_⟩
  · have hsame : ∀ t ∈ yard, ∀ u ∈ yard, group2Of t ≠ none → group2Of t = group2Of u →
        t.group1 = u.group1 := by decide +kernel
    intro t ht u hu name hn hm
    exact hsame t ht u hu (by simp [hn]) (hn.trans hm.symm)
  · have hsame : ∀ t ∈ yard, ∀ u ∈ yard, group3Of t ≠ none → group3Of t = group3Of u →
        t.group2 = u.group2 := by decide +kernel
    intro t ht u hu name hn hm
    exact hsame t ht u hu (by simp [hn]) (hn.trans hm.symm)

def bays : List Tag :=
  [⟨"KAW2AL21MTWT", "KAW2", "AL21", "", none⟩, ⟨"KOR1AL21MTWT", "KOR1", "AL21", "", none⟩]

/-- The feeder of the second substation is found under the first one. -/
theorem bays_not_placed : (∀ t ∈ bays, hasBrowsePath t = false) ∧
    ¬ ∃ es, folderTree (fun _ => false) bays = some es ∧ Placed bays es := by
  refine ⟨by decide, ?_⟩
  rintro ⟨es, hes, hplaced⟩
  have hfound : (folderTree (fun _ => false) bays).map (·.map fun e => path e._componentOf) =
      some [some ["JsonScadaServer", "KAW2", "AL21"],
        some ["JsonScadaServer", "KAW2", "AL21"]] := by
    decide +kernel
  rw [hes, Option.map_some, List.map_congr_left hplaced.under, Option.some.injEq] at hfound
  have hown : (es.map fun e => some (groupPath e.doc)) = bays.map fun t => some (groupPath t) := by
    rw [← hplaced.docs, List.map_map]
    rfl
  rw [hown] at hfound
  revert hfound
  decide +kernel

/-- A group that is named as a member of every object has no folder at all. -/
example : (folderTree (fun _ => false) [⟨"PLC1", "constructor", "", "", none⟩]).map
    (·.map fun e => path e._componentOf) = some [none] := by
  decide +kernel

end Tree

end JsonScada.System.FolderTree
