/- path: JsonScada/System/SeriesNaming
   source: src/telegraf-listener/index.js, processMessageJSON
   digest: What the tags of the entries of a message depend on, and what they tell apart. -/

import JsonScada.Lib.Separated
import JsonScada.Telegraf.Listener

set_option autoImplicit false
set_option relaxedAutoImplicit false

namespace JsonScada.System.SeriesNaming

open JsonScada.Lib.EcmaScript JsonScada.Lib.JsObject JsonScada.Lib.Separated
open JsonScada.Lib.JsObject.Value (member truthy text toStringCall)
open JsonScada.Model.Documents (Date)
open JsonScada.Telegraf.Listener

section Statement

/-- The members of `fields`. -/
def fieldsOf (data : Value) : Option Fields := entries (member (some data) "fields")

/-- `Quality` tells of good values. -/
def isOK (v : Value) : Bool :=
  match toStringCall v with
  | some t => contains "OK".toList t
  | none => false

def isQuality (f : String × Value) : Bool := f.1 = "Quality"

def badQuality (f : String × Value) : Bool := isQuality f && !isOK f.2

/-- Neither a `Quality` that is not OK nor `value` stands behind another field, `value` behind
`Quality` apart. -/
structure Regular (fs : Fields) : Prop where
  quality : ∀ front f back, fs = front ++ f :: back → badQuality f = true → front = []
  value : ∀ front v back, fs = front ++ ("value", v) :: back →
    ∀ f ∈ front, isQuality f = true

def RegularMessage (data : Value) : Prop := ∀ fs, fieldsOf data = some fs → Regular fs

/-- The messages differ in the order of their fields only. -/
structure Reordered (data data' : Value) : Prop where
  other : ∀ k, k ≠ "fields" → member (some data) k = member (some data') k
  fields : ∃ fs fs', fieldsOf data = some fs ∧ fieldsOf data' = some fs' ∧ fs.Perm fs'

def BadMessage (data : Value) : Prop :=
  ∃ fs, fieldsOf data = some fs ∧ fs.any badQuality = true

/-- The entries of a message, each with the key of its field. -/
def keyed (data : Value) : List (String × Entry) :=
  match fieldsOf data with
  | none => []
  | some fs => ((fs.filter fun f => !isQuality f).map Prod.fst).zip (processMessageJSON data)

/-- The tag of a key, as far as `value` comes first. -/
def tagOf (n : Naming) (key : String) : String :=
  if key = "value" then
    if n.ungroupedDescription = "" then dropLastSeparator n.grouping
    else n.grouping ++ n.ungroupedDescription
  else n.grouping ++ key

/-- Another key that gives the tag of `value`: the end of the topic; without a topic, nothing
behind nothing. -/
def Shadows (n : Naming) (key : String) : Prop :=
  if n.ungroupedDescription = "" then n.grouping = "" ∧ key = "" else key = n.ungroupedDescription

/-- Two keys of a message have one tag. -/
def SameTag (data : Value) (k k' : String) : Prop :=
  ∃ n, namingOf data = some n ∧ (k = "value" ∧ Shadows n k' ∨ k' = "value" ∧ Shadows n k)

/-- The text `x` of a tag is added to the names of a message behind the text `g`. -/
structure Added (data : Value) (key : String) (g x : List Char) : Prop where
  used : key ∉ ignoredKeys
  added : (truthy (member (member (some data) "tags") "group2") &&
    truthy (member (member (some data) "tags") "group3")) = false
  nonempty : x ≠ []
  fresh : contains x g = false
  at_ : ∃ front v back,
    entries (member (some data) "tags") = some (front ++ (key, v) :: back) ∧
      text v = some x ∧
      front.foldl addTag (some (thirdGroup data (secondGroup data (firstGroup data))).grouping) =
        some (String.ofList g)

/-- The messages have different texts of a tag at the same place of their names. -/
def ToldApart (data data' : Value) : Prop :=
  ∃ key g g' x x', Added data key g x ∧ Added data' key g' x' ∧ x ≠ x' ∧
    '~' ∉ x ∧ '~' ∉ x' ∧ g.count '~' = g'.count '~'

end Statement

section Fields

variable {data : Value} {n : Naming} {fs fs' : Fields}

/-- The entry of a field other than `Quality`. -/
def entryOf (n : Naming) (timeTag : Option Date) (invalid : Bool) (f : String × Value) : Entry :=
  { tag := tagOf n f.1
    value := f.2
    group1 := n.group1
    group2 := n.group2
    group3 := n.group3
    ungroupedDescription := if f.1 = "value" then n.ungroupedDescription else f.1
    invalidAtSource := invalid
    timeTagAtSource := timeTag }

def throws (f : String × Value) : Bool := isQuality f && (toStringCall f.2).isNone

/-- The entries of fields in a regular order. -/
def regularEntries (data : Value) (n : Naming) (fs : Fields) : List Entry :=
  match timeTagOf data with
  | none => []
  | some t =>
    if fs.any throws then []
    else (fs.filter fun f => !isQuality f).map (entryOf n t (fs.any badQuality))

theorem regularEntries_perm (h : fs.Perm fs') :
    (regularEntries data n fs).Perm (regularEntries data n fs') := by
  unfold regularEntries
  have hany : ∀ p : String × Value → Bool, fs.any p = fs'.any p := fun p => h.any_eq
  rw [hany throws, hany badQuality]
  cases timeTagOf data with
  | none => exact .refl []
  | some t =>
    dsimp only
    split_ifs
    · exact .refl []
    · exact (h.filter _).map _

theorem throws_bad {f : String × Value} (h : badQuality f = false) : throws f = false := by
  by_contra hthrows
  rw [Bool.not_eq_false, throws, Bool.and_eq_true, Option.isNone_iff_eq_none] at hthrows
  rw [badQuality, hthrows.1, isOK, hthrows.2] at h
  cases h

theorem entriesOf_quality {f : String × Value} (h : isQuality f = true) (d : String) (b : Bool) :
    entriesOf data n (f :: fs) d b =
      if throws f then [] else entriesOf data n fs d (b || badQuality f) := by
  have hkey : f.1 = "Quality" := of_decide_eq_true h
  rw [entriesOf, if_pos hkey, throws, badQuality, h, Bool.true_and, Bool.true_and, isOK]
  cases toStringCall f.2 <;> rfl

theorem entriesOf_none {f : String × Value} (h : isQuality f = false)
    (ht : timeTagOf data = none) (d : String) (b : Bool) :
    entriesOf data n (f :: fs) d b = [] := by
  rw [entriesOf, if_neg (of_decide_eq_false h)]
  simp only [ht]

theorem entriesOf_other {f : String × Value} (h : isQuality f = false) {t : Option Date}
    (ht : timeTagOf data = some t) (d : String) (b : Bool) :
    entriesOf data n (f :: fs) d b =
      entryOf { n with ungroupedDescription := d } t b f ::
        entriesOf data n fs (if f.1 = "value" then d else f.1) b := by
  rw [entriesOf, if_neg (of_decide_eq_false h)]
  simp only [ht]
  rfl

theorem entriesOf_nil (h : timeTagOf data = none) (fs : Fields) (d : String) (b : Bool) :
    entriesOf data n fs d b = [] := by
  induction fs generalizing b with
  | nil => rfl
  | cons f fs ih =>
    cases hf : isQuality f with
    | true =>
      rw [entriesOf_quality hf]
      split_ifs
      · rfl
      · exact ih _
    | false => exact entriesOf_none hf h d b

/-- The description goes into the name of `value` only. -/
theorem entryOf_description {f : String × Value} (h : f.1 ≠ "value") (d : String)
    (t : Option Date) (b : Bool) :
    entryOf { n with ungroupedDescription := d } t b f = entryOf n t b f := by
  unfold entryOf tagOf
  simp only [if_neg h]

variable {t : Option Date}

/-- Without `value` each field goes by itself. -/
theorem entriesOf_without_value (ht : timeTagOf data = some t)
    (hvalue : ∀ f ∈ fs, f.1 ≠ "value") (hok : ∀ f ∈ fs, badQuality f = false) (d : String)
    (b : Bool) :
    entriesOf data n fs d b = (fs.filter fun f => !isQuality f).map (entryOf n t b) := by
  induction fs generalizing d b with
  | nil => rfl
  | cons f fs ih =>
    rw [List.forall_mem_cons] at hvalue hok
    cases hf : isQuality f with
    | true =>
      rw [entriesOf_quality hf, throws_bad hok.1, hok.1, Bool.or_false,
        if_neg Bool.false_ne_true, ih hvalue.2 hok.2, List.filter_cons_of_neg (by simp [hf])]
    | false =>
      rw [entriesOf_other hf ht, entryOf_description hvalue.1, if_neg hvalue.1,
        ih hvalue.2 hok.2, List.filter_cons_of_pos (by simp [hf]), List.map_cons]

theorem Regular.without_value {f : String × Value} (h : Regular (f :: fs))
    (hf : isQuality f = false) : ∀ g ∈ fs, g.1 ≠ "value" := by
  rintro ⟨k, v⟩ hg rfl
  obtain ⟨front, back, rfl⟩ := List.append_of_mem hg
  have hfront := h.value (f :: front) v back rfl f List.mem_cons_self
  rw [hf] at hfront
  cases hfront

theorem Regular.tail {f : String × Value} (h : Regular (f :: fs)) : Regular fs where
  quality front g back heq hbad := by
    have hnil := h.quality (f :: front) g back (by rw [heq]; rfl) hbad
    cases hnil
  value front v back heq g hg :=
    h.value (f :: front) v back (by rw [heq]; rfl) g (List.mem_cons_of_mem f hg)

/-- Behind the first field no `Quality` is bad. -/
theorem Regular.ok_tail {f : String × Value} (h : Regular (f :: fs)) :
    ∀ g ∈ fs, badQuality g = false := by
  intro g hg
  by_contra hbad
  obtain ⟨front, back, rfl⟩ := List.append_of_mem hg
  have hnil := h.quality (f :: front) g back rfl (Bool.not_eq_false _ ▸ hbad)
  cases hnil

theorem entriesOf_ok (ht : timeTagOf data = some t) (h : Regular fs)
    (hok : ∀ f ∈ fs, badQuality f = false) (b : Bool) :
    entriesOf data n fs n.ungroupedDescription b =
      (fs.filter fun f => !isQuality f).map (entryOf n t b) := by
  induction fs generalizing b with
  | nil => rfl
  | cons f fs ih =>
    rw [List.forall_mem_cons] at hok
    cases hf : isQuality f with
    | true =>
      rw [entriesOf_quality hf, throws_bad hok.1, hok.1, Bool.or_false,
        if_neg Bool.false_ne_true, ih h.tail hok.2, List.filter_cons_of_neg (by simp [hf])]
    | false =>
      rw [entriesOf_other hf ht, entriesOf_without_value ht (h.without_value hf) hok.2,
        List.filter_cons_of_pos (by simp [hf]), List.map_cons]

/-- In a regular order the fields do not act on each other but through the flag. -/
theorem entriesOf_regular (h : Regular fs) :
    entriesOf data n fs n.ungroupedDescription false = regularEntries data n fs := by
  unfold regularEntries
  cases ht : timeTagOf data with
  | none => exact entriesOf_nil ht fs _ _
  | some t =>
    dsimp only
    cases fs with
    | nil => rfl
    | cons f fs =>
      have htail := h.ok_tail
      have hthrows : fs.any throws = false := by
        rw [List.any_eq_false]
        intro g hg hthrow
        rw [throws_bad (htail g hg)] at hthrow
        cases hthrow
      have hbad : fs.any badQuality = false := by
        rw [List.any_eq_false]
        intro g hg hbad
        rw [htail g hg] at hbad
        cases hbad
      rw [List.any_cons, List.any_cons, hthrows, hbad, Bool.or_false, Bool.or_false]
      cases hf : isQuality f with
      | true =>
        rw [entriesOf_quality hf, Bool.false_or, List.filter_cons_of_neg (by simp [hf])]
        split_ifs
        · rfl
        · exact entriesOf_ok ht h.tail htail _
      | false =>
        have hgood : badQuality f = false := by rw [badQuality, hf, Bool.false_and]
        rw [throws_bad hgood, hgood, if_neg Bool.false_ne_true]
        exact entriesOf_ok ht h (List.forall_mem_cons.mpr ⟨hgood, htail⟩) false

end Fields

section Messages

variable {data data' : Value}

theorem processMessageJSON_eq {fs : Fields} (hfields : fieldsOf data = some fs) :
    processMessageJSON data =
      match namingOf data with
      | none => []
      | some n => entriesOf data n fs n.ungroupedDescription false := by
  unfold fieldsOf at hfields
  unfold processMessageJSON
  rw [hfields]
  cases namingOf data <;> rfl

/-- The names depend on the other members of a message only. -/
theorem namingOf_congr (h : ∀ k, k ≠ "fields" → member (some data) k = member (some data') k) :
    namingOf data = namingOf data' := by
  have htags := h "tags" (by decide)
  have hname := h "name" (by decide)
  unfold namingOf thirdGroup secondGroup firstGroup
  rw [htags, hname]

theorem timeTagOf_congr (h : ∀ k, k ≠ "fields" → member (some data) k = member (some data') k) :
    timeTagOf data = timeTagOf data' := by
  unfold timeTagOf
  rw [h "timestamp" (by decide)]

theorem processMessageJSON_perm (h : RegularMessage data) (h' : RegularMessage data')
    (hperm : Reordered data data') :
    (processMessageJSON data).Perm (processMessageJSON data') := by
  obtain ⟨fs, fs', hfs, hfs', hfields⟩ := hperm.fields
  rw [processMessageJSON_eq hfs, processMessageJSON_eq hfs', namingOf_congr hperm.other]
  cases namingOf data' with
  | none => exact .refl []
  | some n =>
    have hentries : regularEntries data n fs' = regularEntries data' n fs' := by
      unfold regularEntries
      rw [timeTagOf_congr hperm.other]
    dsimp only
    rw [entriesOf_regular (h fs hfs), entriesOf_regular (h' fs' hfs'), ← hentries]
    exact regularEntries_perm hfields

theorem mem_regularEntries {n : Naming} {fs : Fields} {e : Entry}
    (h : e ∈ regularEntries data n fs) : e.invalidAtSource = fs.any badQuality := by
  unfold regularEntries at h
  cases ht : timeTagOf data with
  | none =>
    rw [ht] at h
    cases h
  | some t =>
    rw [ht] at h
    dsimp only at h
    split_ifs at h
    · cases h
    · obtain ⟨f, -, rfl⟩ := List.mem_map.mp h
      rfl

theorem invalid_of_bad (h : RegularMessage data) (hbad : BadMessage data) :
    ∀ e ∈ processMessageJSON data, e.invalidAtSource = true := by
  obtain ⟨fs, hfs, hany⟩ := hbad
  rw [processMessageJSON_eq hfs]
  cases namingOf data with
  | none => exact fun e he => absurd he List.not_mem_nil
  | some n =>
    intro e he
    dsimp only at he
    rw [entriesOf_regular (h fs hfs)] at he
    rw [mem_regularEntries he, hany]

end Messages

section Names

variable {data data' : Value} {n : Naming}

theorem closed_addGrpIfNotEmpty (v : Option Value) :
    Closed '~' (addGrpIfNotEmpty v).toList := by
  unfold addGrpIfNotEmpty
  split
  · split_ifs
    · rw [String.toList_append]
      exact closed_concat _
    · exact closed_nil
  · exact closed_nil

theorem closed_firstGroup (data : Value) : Closed '~' (firstGroup data).grouping.toList := by
  unfold firstGroup
  dsimp only
  split_ifs <;> exact closed_addGrpIfNotEmpty _

theorem closed_secondGroup (data : Value) (h : Closed '~' n.grouping.toList) :
    Closed '~' (secondGroup data n).grouping.toList := by
  unfold secondGroup
  dsimp only
  split_ifs
  · rw [String.toList_append]
    exact h.append (closed_addGrpIfNotEmpty _)
  · rw [String.toList_append]
    exact closed_concat _
  · rw [String.toList_append]
    exact h.append (closed_addGrpIfNotEmpty _)
  · exact h

theorem closed_thirdGroup (data : Value) (h : Closed '~' n.grouping.toList) :
    Closed '~' (thirdGroup data n).grouping.toList := by
  unfold thirdGroup
  rw [String.toList_append]
  exact h.append (closed_addGrpIfNotEmpty _)

/-- The name before the tags are added. -/
theorem closed_groups (data : Value) :
    Closed '~' (thirdGroup data (secondGroup data (firstGroup data))).grouping.toList :=
  closed_thirdGroup data (closed_secondGroup data (closed_firstGroup data))

/-- The name grows by parts with a separator behind. -/
def Grows (a b : String) : Prop := ∃ r, b.toList = a.toList ++ r ∧ Closed '~' r

theorem Grows.refl (a : String) : Grows a a := ⟨[], (List.append_nil _).symm, closed_nil⟩

theorem Grows.trans {a b c : String} (hab : Grows a b) (hbc : Grows b c) : Grows a c := by
  obtain ⟨r, hr, hrc⟩ := hab
  obtain ⟨s, hs, hsc⟩ := hbc
  refine ⟨r ++ s, ?_, hrc.append hsc⟩
  rw [hs, hr, List.append_assoc]

theorem Grows.closed {a b : String} (h : Grows a b) (ha : Closed '~' a.toList) :
    Closed '~' b.toList := by
  obtain ⟨r, hr, hrc⟩ := h
  rw [hr]
  exact ha.append hrc

theorem grows_addTag {a b : String} {tag : String × Value} (h : addTag (some a) tag = some b) :
    Grows a b := by
  unfold addTag at h
  rw [Option.bind_some] at h
  split_ifs at h
  · cases h
    exact .refl a
  · cases htext : text tag.2 with
    | none =>
      rw [htext] at h
      cases h
    | some val =>
      rw [htext, Option.map_some, Option.some.injEq] at h
      subst h
      split_ifs
      · refine ⟨val ++ ['~'], ?_, closed_concat val⟩
        rw [String.toList_append, String.toList_append, String.toList_ofList, List.append_assoc]
        rfl
      · exact .refl a

theorem foldl_addTag_none (fs : Fields) : fs.foldl addTag none = none := by
  induction fs with
  | nil => rfl
  | cons f fs ih => exact ih

theorem grows_foldl {fs : Fields} {a b : String} (h : fs.foldl addTag (some a) = some b) :
    Grows a b := by
  induction fs generalizing a with
  | nil =>
    cases h
    exact .refl _
  | cons f fs ih =>
    rw [List.foldl_cons] at h
    cases hnext : addTag (some a) f with
    | none =>
      rw [hnext, foldl_addTag_none] at h
      cases h
    | some c =>
      rw [hnext] at h
      exact (grows_addTag hnext).trans (ih h)

/-- The text of the name is the one of the groups, then that of the tags and of the instance. -/
theorem namingOf_grouping (h : namingOf data = some n) :
    ∃ fields grouping, entries (member (some data) "tags") = some fields ∧
      (if truthy (member (member (some data) "tags") "group2") &&
          truthy (member (member (some data) "tags") "group3") then
        some (thirdGroup data (secondGroup data (firstGroup data))).grouping
      else fields.foldl addTag
        (some (thirdGroup data (secondGroup data (firstGroup data))).grouping)) =
          some grouping ∧
      Grows grouping n.grouping := by
  unfold namingOf at h
  dsimp only at h
  obtain ⟨fields, hfields, hmap⟩ := Option.bind_eq_some_iff.mp h
  obtain ⟨grouping, hgrouping, rfl⟩ := Option.map_eq_some_iff.mp hmap
  exact ⟨fields, grouping, hfields, hgrouping, _, String.toList_append,
    closed_addGrpIfNotEmpty _⟩

theorem closed_namingOf (h : namingOf data = some n) : Closed '~' n.grouping.toList := by
  obtain ⟨fields, grouping, -, hgrouping, hgrows⟩ := namingOf_grouping h
  refine hgrows.closed ?_
  split_ifs at hgrouping
  · cases hgrouping
    exact closed_groups data
  · exact (grows_foldl hgrouping).closed (closed_groups data)

/-- The separator at the end is taken off. -/
theorem toList_dropLastSeparator {g : String} (h : Closed '~' g.toList) :
    (dropLastSeparator g).toList = g.toList.dropLast := by
  rcases List.eq_nil_or_concat g.toList with hnil | ⟨front, c, hlast⟩
  · unfold dropLastSeparator
    rw [hnil]
    exact hnil
  · rw [List.concat_eq_append] at hlast
    have hc : c = '~' := h c (by rw [hlast, List.getLast?_concat]; rfl)
    subst hc
    have hwhite : isWhite '~' = false := by decide
    unfold dropLastSeparator
    rw [hlast, List.reverse_concat, List.dropWhile_cons_of_neg (by simp [hwhite])]
    simp

theorem tagOf_value (n : Naming) :
    tagOf n "value" = if n.ungroupedDescription = "" then dropLastSeparator n.grouping
      else n.grouping ++ n.ungroupedDescription := if_pos rfl

theorem append_right_inj {a b c : String} : a ++ b = a ++ c ↔ b = c := by
  rw [← String.toList_inj, ← String.toList_inj, String.toList_append, String.toList_append]
  exact List.append_right_inj a.toList

/-- The tag of another key is that of `value` where the key shadows it. -/
theorem tagOf_value_eq {k : String} (h : Closed '~' n.grouping.toList) (hk : k ≠ "value") :
    tagOf n "value" = tagOf n k ↔ Shadows n k := by
  rw [tagOf_value, tagOf, if_neg hk, Shadows]
  split_ifs with hdesc
  · rw [← String.toList_inj, toList_dropLastSeparator h, String.toList_append]
    constructor
    · intro heq
      have hlength := congrArg List.length heq
      rw [List.length_dropLast, List.length_append] at hlength
      have hg : n.grouping.toList.length = 0 := by omega
      have hk : k.toList.length = 0 := by omega
      exact ⟨String.toList_inj.mp (List.eq_nil_of_length_eq_zero hg),
        String.toList_inj.mp (List.eq_nil_of_length_eq_zero hk)⟩
    · rintro ⟨hg, hk⟩
      rw [hg, hk]
      rfl
  · rw [append_right_inj]
    exact eq_comm

theorem tagOf_eq_iff {k k' : String} (h : Closed '~' n.grouping.toList) (hne : k ≠ k') :
    tagOf n k = tagOf n k' ↔ k = "value" ∧ Shadows n k' ∨ k' = "value" ∧ Shadows n k := by
  by_cases hk : k = "value"
  · subst hk
    rw [tagOf_value_eq h hne.symm]
    simp [hne.symm]
  · by_cases hk' : k' = "value"
    · subst hk'
      rw [eq_comm, tagOf_value_eq h hk]
      simp [hk]
    · rw [tagOf, tagOf, if_neg hk, if_neg hk', append_right_inj]
      simp [hk, hk', hne]

theorem mem_keyed (h : RegularMessage data) {x : String × Entry} (hx : x ∈ keyed data) :
    ∃ n, namingOf data = some n ∧ x.2.tag = tagOf n x.1 := by
  unfold keyed at hx
  cases hfs : fieldsOf data with
  | none =>
    rw [hfs] at hx
    cases hx
  | some fs =>
    rw [hfs] at hx
    dsimp only at hx
    rw [processMessageJSON_eq hfs] at hx
    cases hn : namingOf data with
    | none =>
      rw [hn, List.zip_nil_right] at hx
      cases hx
    | some n =>
      rw [hn] at hx
      dsimp only at hx
      rw [entriesOf_regular (h fs hfs), regularEntries] at hx
      refine ⟨n, rfl, ?_⟩
      cases ht : timeTagOf data with
      | none =>
        rw [ht, List.zip_nil_right] at hx
        cases hx
      | some t =>
        rw [ht] at hx
        dsimp only at hx
        split_ifs at hx
        · rw [List.zip_nil_right] at hx
          cases hx
        · rw [List.zip_map'] at hx
          obtain ⟨f, -, rfl⟩ := List.mem_map.mp hx
          rfl

theorem tag_eq_iff (h : RegularMessage data) {x y : String × Entry} (hx : x ∈ keyed data)
    (hy : y ∈ keyed data) (hne : x.1 ≠ y.1) :
    x.2.tag = y.2.tag ↔ SameTag data x.1 y.1 := by
  obtain ⟨n, hn, htag⟩ := mem_keyed h hx
  obtain ⟨m, hm, htag'⟩ := mem_keyed h hy
  obtain rfl : n = m := Option.some.inj (hn.symm.trans hm)
  rw [htag, htag', tagOf_eq_iff (closed_namingOf hn) hne, SameTag]
  constructor
  · exact fun hsame => ⟨n, hn, hsame⟩
  · rintro ⟨m, hm, hsame⟩
    obtain rfl : n = m := Option.some.inj (hn.symm.trans hm)
    exact hsame

/-- Every tag begins with the name, at most its last separator missing. -/
theorem tag_entriesOf {fs : Fields} {d : String} {b : Bool} {e : Entry}
    (h : e ∈ entriesOf data n fs d b) :
    (∃ s, e.tag = n.grouping ++ s) ∨ e.tag = dropLastSeparator n.grouping := by
  induction fs generalizing d b with
  | nil => cases h
  | cons f fs ih =>
    cases hf : isQuality f with
    | true =>
      rw [entriesOf_quality hf] at h
      split_ifs at h
      · cases h
      · exact ih h
    | false =>
      cases ht : timeTagOf data with
      | none =>
        rw [entriesOf_nil ht] at h
        cases h
      | some t =>
        rw [entriesOf_other hf ht] at h
        rcases List.mem_cons.mp h with rfl | h
        · dsimp only [entryOf, tagOf]
          split_ifs
          · exact .inr rfl
          · exact .inl ⟨_, rfl⟩
          · exact .inl ⟨_, rfl⟩
        · exact ih h

/-- The text of a tag that is added stands in the name with a separator behind it. -/
theorem grouping_of_added {key : String} {g x : List Char} (h : Added data key g x)
    (hn : namingOf data = some n) :
    Closed '~' g ∧ ∃ r, n.grouping.toList = g ++ (x ++ '~' :: r) := by
  obtain ⟨fields, grouping, hfields, hgrouping, r, hr, -⟩ := namingOf_grouping hn
  obtain ⟨front, v, back, hentries, htext, hfront⟩ := h.at_
  rw [h.added, if_neg Bool.false_ne_true] at hgrouping
  obtain rfl := Option.some.inj (hfields.symm.trans hentries)
  have hclosed := (grows_foldl hfront).closed (closed_groups data)
  rw [String.toList_ofList] at hclosed
  have hadd : addTag (some (String.ofList g)) (key, v) =
      some (String.ofList g ++ String.ofList x ++ grpSep) := by
    rw [addTag, Option.bind_some, if_neg h.used, htext, Option.map_some,
      if_pos ⟨h.nonempty, by rw [String.toList_ofList]; exact h.fresh⟩]
  rw [List.foldl_append, hfront, List.foldl_cons, hadd] at hgrouping
  obtain ⟨s, hs, -⟩ := grows_foldl hgrouping
  refine ⟨hclosed, s ++ r, ?_⟩
  rw [hr, hs, String.toList_append, String.toList_append, String.toList_ofList,
    String.toList_ofList]
  simp [grpSep]

/-- What a tag goes on with behind a part of the name. -/
theorem tag_behind {g x r : List Char} {e : Entry} (hclosed : Closed '~' n.grouping.toList)
    (hn : n.grouping.toList = g ++ (x ++ '~' :: r))
    (he : (∃ s, e.tag = n.grouping ++ s) ∨ e.tag = dropLastSeparator n.grouping) :
    ∃ u, e.tag.toList = g ++ (x ++ u) ∧ Continued '~' u := by
  rcases he with ⟨s, hs⟩ | hdrop
  · refine ⟨'~' :: (r ++ s.toList), ?_, ?_⟩
    · rw [hs, String.toList_append, hn]
      simp
    · intro c hc
      exact (Option.some.inj hc).symm
  · refine ⟨('~' :: r).dropLast, ?_, ?_⟩
    · rw [hdrop, toList_dropLastSeparator hclosed, hn,
        List.dropLast_append_of_ne_nil (by simp), List.dropLast_append_of_ne_nil (by simp)]
    · intro c hc
      cases r with
      | nil => cases hc
      | cons d r => exact (Option.some.inj hc).symm

theorem mem_processMessageJSON {e : Entry} (h : e ∈ processMessageJSON data) :
    ∃ n, namingOf data = some n ∧
      ((∃ s, e.tag = n.grouping ++ s) ∨ e.tag = dropLastSeparator n.grouping) := by
  unfold processMessageJSON at h
  cases hn : namingOf data with
  | none =>
    rw [hn] at h
    cases h
  | some n =>
    rw [hn] at h
    cases hfs : entries (member (some data) "fields") with
    | none =>
      rw [hfs] at h
      cases h
    | some fs =>
      rw [hfs] at h
      exact ⟨n, rfl, tag_entriesOf h⟩

/-- Different texts at one place of the names give different tags. -/
theorem tag_ne (h : ToldApart data data') {e e' : Entry} (he : e ∈ processMessageJSON data)
    (he' : e' ∈ processMessageJSON data') : e.tag ≠ e'.tag := by
  obtain ⟨key, g, g', x, x', hadded, hadded', hne, hx, hx', hcount⟩ := h
  obtain ⟨n, hn, htag⟩ := mem_processMessageJSON he
  obtain ⟨n', hn', htag'⟩ := mem_processMessageJSON he'
  obtain ⟨hg, r, hr⟩ := grouping_of_added hadded hn
  obtain ⟨hg', r', hr'⟩ := grouping_of_added hadded' hn'
  obtain ⟨u, hu, hcontinued⟩ := tag_behind (closed_namingOf hn) hr htag
  obtain ⟨u', hu', hcontinued'⟩ := tag_behind (closed_namingOf hn') hr' htag'
  intro heq
  rw [heq, hu'] at hu
  exact hne (part_eq hg hg' hcount hx hx' hcontinued hcontinued' hu.symm)

end Names

section Main

/-- What the entries of two messages owe to their fields and tags. -/
theorem series_named (data data' : Value) :
    (RegularMessage data → RegularMessage data' → Reordered data data' →
      (processMessageJSON data).Perm (processMessageJSON data')) ∧
    (RegularMessage data → BadMessage data →
      ∀ e ∈ processMessageJSON data, e.invalidAtSource = true) ∧
    (RegularMessage data → ∀ x ∈ keyed data, ∀ y ∈ keyed data, x.1 ≠ y.1 →
      (x.2.tag = y.2.tag ↔ SameTag data x.1 y.1)) ∧
    (ToldApart data data' → ∀ e ∈ processMessageJSON data, ∀ e' ∈ processMessageJSON data',
      e.tag ≠ e'.tag) :=
  ⟨processMessageJSON_perm, invalid_of_bad, fun h _ hx _ hy => tag_eq_iff h hx hy,
    fun h _ he _ he' => tag_ne h he he'⟩

/-- A message with a name, tags and fields. -/
def message (name : String) (tags fields : Fields) : Value :=
  .obj [("name", .str name), ("tags", .obj tags), ("fields", .obj fields)]

def tagsOf (data : Value) : List String := (processMessageJSON data).map Entry.tag

/-- Fields are in a regular order where only the first is `value` or a `Quality` not OK. -/
theorem Regular.of_first {f : String × Value} {fs : Fields}
    (hvalue : ∀ g ∈ fs, g.1 ≠ "value") (hok : ∀ g ∈ fs, badQuality g = false) :
    Regular (f :: fs) where
  quality front g back heq hbad := by
    cases front with
    | nil => rfl
    | cons f' front =>
      have hmem : g ∈ fs := by
        rw [(List.cons.inj heq).2]
        exact List.mem_append_right front List.mem_cons_self
      rw [hok g hmem] at hbad
      cases hbad
  value front v back heq := by
    cases front with
    | nil => exact fun g hg => absurd hg List.not_mem_nil
    | cons f' front =>
      have hmem : ("value", v) ∈ fs := by
        rw [(List.cons.inj heq).2]
        exact List.mem_append_right front List.mem_cons_self
      exact absurd rfl (hvalue _ hmem)

def core (x : String) (fields : Fields) : Value :=
  message "cpu" [("core", .str x)] (("Quality", .str "BAD") :: fields)

theorem regular_core (x v w : String) :
    RegularMessage (core x [("load", .str v), ("idle", .str w)]) ∧
      RegularMessage (core x [("idle", .str w), ("load", .str v)]) := by
  constructor
  · rintro fs hfs
    cases hfs
    exact Regular.of_first (by simp) (by simp [badQuality, isQuality])
  · rintro fs hfs
    cases hfs
    exact Regular.of_first (by simp) (by simp [badQuality, isQuality])

/-- The two loads of a message in both orders, and those of two cores. -/
theorem loads_named :
    (processMessageJSON (core "0" [("load", .str "1"), ("idle", .str "2")])).Perm
      (processMessageJSON (core "0" [("idle", .str "2"), ("load", .str "1")])) ∧
    (∀ e ∈ processMessageJSON (core "0" [("load", .str "1"), ("idle", .str "2")]),
      e.invalidAtSource = true) ∧
    (∀ x ∈ keyed (core "0" [("load", .str "1"), ("idle", .str "2")]),
      ∀ y ∈ keyed (core "0" [("load", .str "1"), ("idle", .str "2")]), x.1 ≠ y.1 →
        (x.2.tag = y.2.tag ↔
          SameTag (core "0" [("load", .str "1"), ("idle", .str "2")]) x.1 y.1)) ∧
    ∀ e ∈ processMessageJSON (core "0" [("load", .str "1"), ("idle", .str "2")]),
      ∀ e' ∈ processMessageJSON (core "1" [("load", .str "1"), ("idle", .str "2")]),
        e.tag ≠ e'.tag := by
  obtain ⟨hload, hidle⟩ := regular_core "0" "1" "2"
  have horder : Reordered (core "0" [("load", .str "1"), ("idle", .str "2")])
      (core "0" [("idle", .str "2"), ("load", .str "1")]) := by
    refine ⟨fun k hk => ?_, _, _, rfl, rfl, .cons _ (.swap ..)⟩
    have hbeq : (k == "fields") = false := beq_eq_false_iff_ne.mpr hk
    simp [core, message, member, Members.get_cons, hk]
  have hplace : ∀ x : String, x.toList ≠ [] → contains x.toList "cpu~".toList = false →
      Added (core x [("load", .str "1"), ("idle", .str "2")]) "core" "cpu~".toList x.toList := by
    intro x hx hfresh
    exact ⟨by decide, rfl, hx, hfresh, [], .str x, [], rfl, rfl, by
      rw [String.ofList_toList]; rfl⟩
  have happart : ToldApart (core "0" [("load", .str "1"), ("idle", .str "2")])
      (core "1" [("load", .str "1"), ("idle", .str "2")]) :=
    ⟨"core", _, _, _, _, hplace "0" (by decide) (by decide), hplace "1" (by decide) (by decide),
      by decide, by decide, by decide, rfl⟩
  exact ⟨(series_named _ _).1 hload hidle horder,
    (series_named _ (.obj [])).2.1 hload ⟨_, rfl, by decide⟩,
    (series_named _ (.obj [])).2.2.1 hload,
    (series_named _ _).2.2.2 happart⟩

/-- The order of the fields decides on the tag of `value` and on the flag, a topic or a field in
front gives `value` the tag of another field, and the values of a tag are dropped where the name
has them. -/
theorem order_and_parts_matter :
    tagsOf (message "mem" [] [("value", .str "1"), ("used", .str "2")]) = ["mem", "mem~used"] ∧
    tagsOf (message "mem" [] [("used", .str "2"), ("value", .str "1")]) =
      ["mem~used", "mem~used"] ∧
    (processMessageJSON (message "mem" [] [("used", .str "2"), ("Quality", .str "BAD")])).map
      Entry.invalidAtSource = [false] ∧
    tagsOf (message "mqtt" [("topic", .str "plant/temp")]
      [("value", .str "1"), ("temp", .str "2")]) =
        ["mqtt~plant~temp", "mqtt~plant~temp"] ∧
    tagsOf (message "cpu" [("core", .str "cpu")] [("load", .str "1")]) =
      tagsOf (message "cpu" [("core", .str "c")] [("load", .str "1")]) ∧
    tagsOf (message "cpu" [("group2", .str "a"), ("group3", .str "b"), ("core", .str "1")]
        [("load", .str "1")]) =
      tagsOf (message "cpu" [("group2", .str "a"), ("group3", .str "b"), ("core", .str "2")]
        [("load", .str "1")]) := by
  decide +kernel

end Main

end JsonScada.System.SeriesNaming
