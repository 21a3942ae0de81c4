/- path: JsonScada/Lib/Collection
   layer: library
   digest: Collections of documents: updates by a filter, the documents they leave alone, and
     queries that filter, sort and group. -/

import Mathlib.Data.List.Dedup
import Mathlib.Data.List.Sort

set_option autoImplicit false
set_option relaxedAutoImplicit false

namespace JsonScada.Lib.Collection

universe u v
variable {α : Type u}

/-- Update the first document the filter matches. -/
def updateOne (p : α → Bool) (f : α → α) : List α → List α
  | [] => []
  | a :: as => if p a then f a :: as else a :: updateOne p f as

/-- Update every document the filter matches. -/
def updateMany (p : α → Bool) (f : α → α) (c : List α) : List α :=
  c.map fun a => if p a then f a else a

/-- Update the last document the filter matches. -/
def updateLast (p : α → Bool) (f : α → α) (c : List α) : List α :=
  (updateOne p f c.reverse).reverse

/-- The last document the filter matches. -/
def findLast? (p : α → Bool) (c : List α) : Option α := c.reverse.find? p

/-- Every document of `P` is as it was, in its place. Documents may be inserted
behind the others. -/
def Keeps (P : α → Prop) : List α → List α → Prop
  | [], _ => True
  | _ :: _, [] => False
  | a :: as, b :: bs => (P a → b = a) ∧ Keeps P as bs

section Frame

variable {P : α → Prop} {p : α → Bool} {f : α → α}

theorem Keeps.refl (c : List α) : Keeps P c c := by
  induction c with
  | nil => trivial
  | cons a as ih => exact ⟨fun _ => rfl, ih⟩

theorem Keeps.trans {c d e : List α} (hcd : Keeps P c d) (hde : Keeps P d e) : Keeps P c e := by
  induction c generalizing d e with
  | nil => trivial
  | cons a as ih =>
    cases d with
    | nil => cases hcd
    | cons b bs =>
      cases e with
      | nil => cases hde
      | cons x xs =>
        obtain ⟨hab, hcd⟩ := hcd
        obtain ⟨hbx, hde⟩ := hde
        refine ⟨fun hp => ?_, ih hcd hde⟩
        have hb := hab hp
        rw [hbx (hb ▸ hp), hb]

theorem Keeps.mem {c d : List α} (h : Keeps P c d) {a : α} (ha : a ∈ c) (hp : P a) : a ∈ d := by
  induction c generalizing d with
  | nil => cases ha
  | cons b bs ih =>
    cases d with
    | nil => cases h
    | cons x xs =>
      rcases List.mem_cons.mp ha with rfl | ha
      · rw [h.1 hp]
        exact List.mem_cons_self
      · exact List.mem_cons_of_mem x (ih h.2 ha)

theorem keeps_append (c new : List α) : Keeps P c (c ++ new) := by
  induction c with
  | nil => trivial
  | cons a as ih => exact ⟨fun _ => rfl, ih⟩

theorem keeps_updateMany {c : List α} (h : ∀ a ∈ c, p a = true → P a → f a = a) :
    Keeps P c (updateMany p f c) := by
  induction c with
  | nil => trivial
  | cons a as ih =>
    refine ⟨fun hp => ?_, ih fun b hb => h b (List.mem_cons_of_mem a hb)⟩
    show (if p a = true then f a else a) = a
    split_ifs with ha
    · exact h a List.mem_cons_self ha hp
    · rfl

/-- An update of one document keeps the others, and the document itself when it is of `P`
just where the update does not change it. -/
theorem keeps_updateOne_iff {c : List α} :
    Keeps P c (updateOne p f c) ↔ ∀ a, c.find? p = some a → P a → f a = a := by
  induction c with
  | nil => simp [Keeps]
  | cons a as ih =>
    rw [updateOne, List.find?_cons]
    cases ha : p a with
    | true =>
      rw [if_pos rfl]
      constructor
      · rintro ⟨hkeep, -⟩ b hb
        cases hb
        exact hkeep
      · intro h
        exact ⟨h a rfl, Keeps.refl as⟩
    | false =>
      rw [if_neg Bool.false_ne_true]
      constructor
      · rintro ⟨-, hrest⟩
        exact ih.mp hrest
      · intro h
        exact ⟨fun _ => rfl, ih.mpr h⟩

/-- A filter that matches none of `P` leaves them all alone. -/
theorem keeps_updateOne {c : List α} (h : ∀ a ∈ c, p a = true → ¬ P a) :
    Keeps P c (updateOne p f c) := by
  rw [keeps_updateOne_iff]
  intro a ha hp
  exact absurd hp (h a (List.mem_of_find?_eq_some ha) (List.find?_some ha))

theorem keeps_updateMany_of_not {c : List α} (h : ∀ a ∈ c, p a = true → ¬ P a) :
    Keeps P c (updateMany p f c) :=
  keeps_updateMany fun a ha hp hP => absurd hP (h a ha hp)

/-- Two collections with the same keys that both keep the documents of `P` of a third one
keep those of each other, where the key tells what is of `P`. -/
theorem Keeps.between {κ : Type v} {key : α → κ} (hP : ∀ a b, key a = key b → (P a ↔ P b))
    {c d e : List α} (hk : d.map key = c.map key) (hcd : Keeps P c d) (hce : Keeps P c e) :
    Keeps P d e := by
  induction c generalizing d e with
  | nil =>
    rw [List.map_nil, List.map_eq_nil_iff] at hk
    subst hk
    trivial
  | cons a as ih =>
    cases d with
    | nil => cases hcd
    | cons b bs =>
      cases e with
      | nil => cases hce
      | cons x xs =>
        simp only [List.map_cons, List.cons.injEq] at hk
        obtain ⟨hkey, hk⟩ := hk
        refine ⟨fun hb => ?_, ih hk hcd.2 hce.2⟩
        have ha : P a := (hP b a hkey).mp hb
        rw [hce.1 ha, hcd.1 ha]

theorem map_updateOne {κ : Type v} {key : α → κ} (hf : ∀ a, key (f a) = key a) (c : List α) :
    (updateOne p f c).map key = c.map key := by
  induction c with
  | nil => rfl
  | cons a as ih =>
    unfold updateOne
    split_ifs
    · rw [List.map_cons, hf, List.map_cons]
    · rw [List.map_cons, ih, List.map_cons]

/-- Where the keys are unique, the update of the document with a key leaves the others. -/
theorem mem_updateOne_key {κ : Type v} [DecidableEq κ] {key : α → κ} {c : List α}
    (hkeys : (c.map key).Nodup) {a : α} (ha : a ∈ c) {b : α} :
    b ∈ updateOne (fun x => key x = key a) f c ↔ (b ∈ c ∧ key b ≠ key a) ∨ b = f a := by
  induction c with
  | nil => cases ha
  | cons x xs ih =>
    rw [List.map_cons, List.nodup_cons] at hkeys
    unfold updateOne
    by_cases hx : key x = key a
    · have hxa : x = a := by
        rcases List.mem_cons.mp ha with rfl | ha
        · rfl
        · exact absurd (hx ▸ List.mem_map_of_mem ha) hkeys.1
      subst hxa
      rw [if_pos (decide_eq_true rfl), List.mem_cons, or_comm]
      refine or_congr_left ⟨fun hb => ⟨List.mem_cons_of_mem x hb, ?_⟩, ?_⟩
      · intro heq
        exact hkeys.1 (heq ▸ List.mem_map_of_mem hb)
      · rintro ⟨hb, hne⟩
        rcases List.mem_cons.mp hb with rfl | hb
        · exact absurd rfl hne
        · exact hb
    · have ha' : a ∈ xs := by
        rcases List.mem_cons.mp ha with rfl | ha
        · exact absurd rfl hx
        · exact ha
      rw [if_neg (by simpa using hx), List.mem_cons, ih hkeys.2 ha', List.mem_cons]
      constructor
      · rintro (rfl | ⟨hb, hne⟩ | rfl)
        · exact .inl ⟨.inl rfl, hx⟩
        · exact .inl ⟨.inr hb, hne⟩
        · exact .inr rfl
      · rintro (⟨rfl | hb, hne⟩ | rfl)
        · exact .inl rfl
        · exact .inr (.inl ⟨hb, hne⟩)
        · exact .inr (.inr rfl)

theorem map_updateMany {κ : Type v} {key : α → κ} (hf : ∀ a, key (f a) = key a) (c : List α) :
    (updateMany p f c).map key = c.map key := by
  rw [updateMany, List.map_map]
  apply List.map_congr_left
  intro a _
  show key (if p a = true then f a else a) = key a
  split_ifs
  · exact hf a
  · rfl

/-- Two updates of the document a filter finds are one, when the first does not change
what the filter reads. -/
theorem updateOne_updateOne {g : α → α} (hp : ∀ a, p (f a) = p a) (c : List α) :
    updateOne p g (updateOne p f c) = updateOne p (fun a => g (f a)) c := by
  induction c with
  | nil => rfl
  | cons a as ih =>
    unfold updateOne
    cases ha : p a with
    | true => simp [updateOne, hp, ha]
    | false => simp [updateOne, ha, ih]

end Frame

section Last

variable {p : α → Bool} {f : α → α}

theorem updateOne_append_cons {pre post : List α} {a : α} (hpre : ∀ x ∈ pre, p x = false)
    (ha : p a = true) : updateOne p f (pre ++ a :: post) = pre ++ f a :: post := by
  induction pre with
  | nil =>
    show (if p a = true then f a :: post else a :: updateOne p f post) = f a :: post
    rw [if_pos ha]
  | cons b pre ih =>
    have hb : p b = false := hpre b List.mem_cons_self
    rw [List.cons_append, updateOne, hb, if_neg Bool.false_ne_true,
      ih fun x hx => hpre x (List.mem_cons_of_mem b hx)]
    rfl

theorem updateOne_of_forall {c : List α} (h : ∀ x ∈ c, p x = false) : updateOne p f c = c := by
  induction c with
  | nil => rfl
  | cons a as ih =>
    rw [updateOne, h a List.mem_cons_self, if_neg Bool.false_ne_true,
      ih fun x hx => h x (List.mem_cons_of_mem a hx)]

theorem findLast?_eq_some_iff {c : List α} {a : α} :
    findLast? p c = some a ↔
      p a = true ∧ ∃ pre post, c = pre ++ a :: post ∧ ∀ x ∈ post, p x = false := by
  unfold findLast?
  rw [List.find?_eq_some_iff_append]
  constructor
  · rintro ⟨ha, post, pre, hc, hpost⟩
    refine ⟨ha, pre.reverse, post.reverse, ?_, fun x hx => ?_⟩
    · rw [← List.reverse_reverse c, hc]
      simp
    · have hx' := hpost x (List.mem_reverse.mp hx)
      simpa using hx'
  · rintro ⟨ha, pre, post, rfl, hpost⟩
    refine ⟨ha, post.reverse, pre.reverse, by simp, fun x hx => ?_⟩
    rw [hpost x (List.mem_reverse.mp hx)]
    rfl

/-- The update changes the last match and leaves what is before and behind it. -/
theorem updateLast_append_cons {pre post : List α} {a : α} (ha : p a = true)
    (hpost : ∀ x ∈ post, p x = false) :
    updateLast p f (pre ++ a :: post) = pre ++ f a :: post := by
  have hrev : (pre ++ a :: post).reverse = post.reverse ++ a :: pre.reverse := by simp
  unfold updateLast
  rw [hrev, updateOne_append_cons (fun x hx => hpost x (List.mem_reverse.mp hx)) ha]
  simp

theorem updateLast_of_none {c : List α} (h : findLast? p c = none) : updateLast p f c = c := by
  have hno : ∀ x ∈ c.reverse, p x = false := by
    intro x hx
    exact Bool.eq_false_iff.mpr (List.find?_eq_none.mp h x hx)
  unfold updateLast
  rw [updateOne_of_forall hno, List.reverse_reverse]

theorem map_updateLast {κ : Type v} {key : α → κ} (hf : ∀ a, key (f a) = key a) (c : List α) :
    (updateLast p f c).map key = c.map key := by
  unfold updateLast
  rw [List.map_reverse, map_updateOne hf, List.map_reverse, List.reverse_reverse]

end Last

section Insert

/-- A document that a filter matches is in the collection. -/
def Occurs (p : α → Bool) (c : List α) : Prop := ∃ a ∈ c, p a = true

instance (p : α → Bool) (c : List α) : Decidable (Occurs p c) := by
  unfold Occurs; infer_instance

variable {p : α → Bool} {c : List α} {a : α}

theorem occurs_append : Occurs p (c ++ [a]) ↔ Occurs p c ∨ p a = true := by
  constructor
  · rintro ⟨b, hb, hp⟩
    rcases List.mem_append.mp hb with hb | hb
    · exact .inl ⟨b, hb, hp⟩
    · obtain rfl := List.mem_singleton.mp hb
      exact .inr hp
  · rintro (⟨b, hb, hp⟩ | hp)
    · exact ⟨b, List.mem_append_left _ hb, hp⟩
    · exact ⟨a, List.mem_append_right _ (List.mem_singleton_self a), hp⟩

theorem length_filter_eq_zero_iff : (c.filter p).length = 0 ↔ ¬ Occurs p c := by
  rw [List.length_eq_zero_iff, List.filter_eq_nil_iff]
  constructor
  · rintro h ⟨b, hb, hp⟩
    exact h b hb hp
  · intro h b hb hp
    exact h ⟨b, hb, hp⟩

/-- A collection with at most one document of a filter takes one where it has none. -/
theorem length_filter_append_le_one (h : (c.filter p).length ≤ 1) :
    ((c ++ [a]).filter p).length ≤ 1 ↔ (p a = true → ¬ Occurs p c) := by
  rw [List.filter_append, List.length_append, ← length_filter_eq_zero_iff]
  by_cases hp : p a = true
  · have hone : ([a].filter p).length = 1 := by simp [hp]
    rw [hone]
    constructor
    · intro hle _
      omega
    · intro hzero
      have hnone := hzero hp
      omega
  · have hzero : ([a].filter p).length = 0 := by simp [hp]
    rw [hzero]
    exact iff_of_true h fun hpa => absurd hpa hp

end Insert

section Query

variable {κ : Type v} [LinearOrder κ]

/-- Documents in the order of a key, those with the same key as they stand. -/
def sortBy (key : α → κ) (c : List α) : List α := c.insertionSort fun a b => key a ≤ key b

theorem mem_sortBy {key : α → κ} {c : List α} {a : α} : a ∈ sortBy key c ↔ a ∈ c :=
  List.mem_insertionSort _

theorem pairwise_sortBy (key : α → κ) (c : List α) :
    (sortBy key c).Pairwise fun a b => key a ≤ key b := by
  have : Std.Total fun a b : α => key a ≤ key b := ⟨fun a b => le_total _ _⟩
  have : IsTrans α fun a b => key a ≤ key b := ⟨fun _ _ _ => le_trans⟩
  exact List.pairwise_insertionSort _ c

theorem length_sortBy (key : α → κ) (c : List α) : (sortBy key c).length = c.length :=
  List.length_insertionSort _ _

/-- Where the keys tell the documents apart the order they come in does not count. -/
theorem sortBy_perm {key : α → κ} {c d : List α} (h : c.Perm d)
    (hkey : ∀ a ∈ c, ∀ b ∈ c, key a = key b → a = b) : sortBy key c = sortBy key d := by
  have hperm : (sortBy key c).Perm (sortBy key d) :=
    (List.perm_insertionSort _ c).trans (h.trans (List.perm_insertionSort _ d).symm)
  refine hperm.eq_of_pairwise (fun a b ha hb hab hba => ?_) (pairwise_sortBy key c)
    (pairwise_sortBy key d)
  exact hkey a (mem_sortBy.mp ha) b (h.mem_iff.mpr (mem_sortBy.mp hb)) (le_antisymm hab hba)

private theorem filter_orderedInsert (key : α → κ) (p : α → Bool) (a : α) {c : List α}
    (hc : c.Pairwise fun a b => key a ≤ key b) :
    (c.orderedInsert (fun a b => key a ≤ key b) a).filter p =
      if p a then (c.filter p).orderedInsert (fun a b => key a ≤ key b) a else c.filter p := by
  induction c with
  | nil =>
    rw [List.orderedInsert_nil, List.filter_singleton]
    cases p a <;> rfl
  | cons b bs ih =>
    obtain ⟨hb, hbs⟩ := List.pairwise_cons.mp hc
    rw [List.orderedInsert_cons]
    by_cases hab : key a ≤ key b
    · rw [if_pos hab, List.filter_cons]
      cases hp : p a with
      | false => simp
      | true =>
        -- what the filter leaves is not before `b`
        have hfirst : ∀ x ∈ (b :: bs).filter p, key a ≤ key x := by
          intro x hx
          rcases List.mem_cons.mp (List.mem_of_mem_filter hx) with rfl | hx
          · exact hab
          · exact le_trans hab (hb x hx)
        simp only [if_true]
        generalize (b :: bs).filter p = xs at hfirst
        cases xs with
        | nil => rfl
        | cons x xs => rw [List.orderedInsert_cons, if_pos (hfirst x List.mem_cons_self)]
    · rw [if_neg hab, List.filter_cons, List.filter_cons, ih hbs]
      cases p a <;> cases p b <;> simp [hab]

/-- A filter may come before or after the sorting. -/
theorem filter_sortBy (key : α → κ) (p : α → Bool) (c : List α) :
    (sortBy key c).filter p = sortBy key (c.filter p) := by
  induction c with
  | nil => rfl
  | cons a as ih =>
    have hsorted := pairwise_sortBy key as
    unfold sortBy at ih hsorted ⊢
    rw [List.insertionSort_cons, filter_orderedInsert key p a hsorted, ih, List.filter_cons]
    split_ifs <;> rfl

private theorem idxOf_of_pairwise {ks : List κ} (hks : ks.Pairwise (· < ·)) {k : κ}
    (hk : k ∈ ks) : ks.idxOf k = (ks.filter (· < k)).length := by
  induction ks with
  | nil => cases hk
  | cons x xs ih =>
    obtain ⟨hx, hxs⟩ := List.pairwise_cons.mp hks
    rcases List.mem_cons.mp hk with rfl | hk
    · have hnone : (k :: xs).filter (· < k) = [] := by
        rw [List.filter_eq_nil_iff]
        intro y hy
        rw [decide_eq_true_iff, not_lt]
        rcases List.mem_cons.mp hy with rfl | hy
        · exact le_rfl
        · exact (hx y hy).le
      rw [hnone, List.idxOf_cons_self, List.length_nil]
    · have hlt := hx k hk
      rw [List.idxOf_cons_ne xs hlt.ne, ih hxs hk, List.filter_cons, if_pos (decide_eq_true hlt),
        List.length_cons]

/-- With keys of their own the place of a document is the number of those with a lesser key. -/
theorem idxOf_sortBy {key : α → κ} {c : List α} (hc : (c.map key).Nodup) {a : α} (ha : a ∈ c) :
    ((sortBy key c).map key).idxOf (key a) =
      (c.filter fun b => key b < key a).length := by
  have hperm : (sortBy key c).Perm c := List.perm_insertionSort _ c
  have hsorted : ((sortBy key c).map key).Pairwise (· ≤ ·) :=
    List.pairwise_map.mpr (pairwise_sortBy key c)
  have hnodup : ((sortBy key c).map key).Nodup := (hperm.map key).nodup_iff.mpr hc
  have hstrict : ((sortBy key c).map key).Pairwise (· < ·) :=
    (hsorted.and hnodup).imp fun h => lt_of_le_of_ne h.1 h.2
  rw [idxOf_of_pairwise hstrict (List.mem_map_of_mem (mem_sortBy.mpr ha)), List.filter_map,
    List.length_map]
  exact (hperm.filter _).length_eq

/-- What a filter selects is selected again if it is left as it is, and nothing else comes to
be selected. -/
theorem filter_map_of_fixed {p : α → Bool} {f : α → α} {c : List α}
    (h : ∀ a ∈ c, p (f a) = p a ∧ (p a = true → f a = a)) : (c.map f).filter p = c.filter p := by
  induction c with
  | nil => rfl
  | cons a as ih =>
    obtain ⟨hp, hf⟩ := h a List.mem_cons_self
    rw [List.map_cons, List.filter_cons, List.filter_cons, hp,
      ih fun b hb => h b (List.mem_cons_of_mem a hb)]
    split_ifs with hpa
    · rw [hf hpa]
    · rfl

/-- At most one document matches, so the filter may be applied to what is found. -/
theorem find?_filter_of_unique {p q : α → Bool} {c : List α}
    (hu : ∀ a ∈ c, ∀ b ∈ c, q a = true → q b = true → a = b) :
    (c.filter p).find? q = (c.find? q).filter p := by
  cases hf : c.find? q with
  | none =>
    rw [Option.filter_none, List.find?_eq_none]
    intro a ha
    exact List.find?_eq_none.mp hf a (List.mem_of_mem_filter ha)
  | some a =>
    have ha : a ∈ c := List.mem_of_find?_eq_some hf
    have hqa : q a = true := List.find?_some hf
    cases hp : p a with
    | true =>
      rw [Option.filter_some_pos hp]
      cases hg : (c.filter p).find? q with
      | none => exact absurd hqa (List.find?_eq_none.mp hg a (List.mem_filter.mpr ⟨ha, hp⟩))
      | some b =>
        have hb : b ∈ c := List.mem_of_mem_filter (List.mem_of_find?_eq_some hg)
        rw [hu b hb a ha (List.find?_some hg) hqa]
    | false =>
      rw [Option.filter_some_neg (by simp [hp]), List.find?_eq_none]
      intro b hb hqb
      obtain ⟨hbc, hpb⟩ := List.mem_filter.mp hb
      rw [hu b hbc a ha hqb hqa, hp] at hpb
      cases hpb

end Query

section Group

variable {κ : Type v} [DecidableEq κ]

/-- The last document with a key, and how many have it. -/
def lastOf (key : α → κ) (c : List α) (k : κ) : Option (α × ℕ) :=
  (c.filter fun a => key a = k).getLast?.map fun a => (a, (c.filter fun a => key a = k).length)

/-- The last document and the number of documents of every key. -/
def lastByKey (key : α → κ) (c : List α) : List (α × ℕ) :=
  (c.map key).dedup.filterMap (lastOf key c)

theorem of_lastOf {key : α → κ} {c : List α} {k : κ} {r : α × ℕ}
    (hr : lastOf key c k = some r) : r.1 ∈ c ∧ key r.1 = k := by
  obtain ⟨a, ha, rfl⟩ := Option.map_eq_some_iff.mp hr
  have hmem := List.mem_filter.mp (List.mem_of_getLast? ha)
  exact ⟨hmem.1, by simpa using hmem.2⟩

theorem mem_of_lastByKey {key : α → κ} {c : List α} {r : α × ℕ} (hr : r ∈ lastByKey key c) :
    r.1 ∈ c := by
  obtain ⟨k, -, hk⟩ := List.mem_filterMap.mp hr
  exact (of_lastOf hk).1

private theorem filter_dedup (V : κ → Bool) (ks : List κ) :
    (ks.filter V).dedup = ks.dedup.filter V := by
  induction ks with
  | nil => rfl
  | cons k ks ih =>
    rw [List.filter_cons, List.dedup_cons]
    cases hk : V k with
    | true =>
      rw [if_pos rfl, List.dedup_cons, ih]
      by_cases hmem : k ∈ ks
      · rw [if_pos (List.mem_filter.mpr ⟨hmem, hk⟩), if_pos hmem]
      · rw [if_neg fun h => hmem (List.mem_of_mem_filter h), if_neg hmem,
          List.filter_cons_of_pos hk]
    | false =>
      rw [if_neg Bool.false_ne_true, ih]
      split_ifs
      · rfl
      · rw [List.filter_cons_of_neg (by simp [hk])]

/-- A filter on the key may come before or after the grouping. -/
theorem filter_lastByKey (key : α → κ) (V : κ → Bool) (c : List α) :
    (lastByKey key c).filter (fun r => V (key r.1)) =
      lastByKey key (c.filter fun a => V (key a)) := by
  have hkeys : ((c.filter fun a => V (key a)).map key).dedup = (c.map key).dedup.filter V := by
    rw [← filter_dedup, List.filter_map]
    rfl
  unfold lastByKey
  rw [hkeys, List.filter_filterMap, List.filterMap_filter]
  apply List.filterMap_congr
  intro k _
  cases hk : V k with
  | true =>
    -- the documents of the key are all left
    have hown : (c.filter fun a => V (key a)).filter (fun a => key a = k) =
        c.filter fun a => key a = k := by
      rw [List.filter_filter]
      apply List.filter_congr
      intro a _
      by_cases ha : key a = k <;> simp [ha, hk]
    rw [if_pos rfl, lastOf, lastOf, hown]
    change Option.filter _ (lastOf key c k) = lastOf key c k
    cases hlast : lastOf key c k with
    | none => rfl
    | some r => rw [Option.filter_some_pos (by rw [(of_lastOf hlast).2, hk])]
  | false =>
    rw [if_neg Bool.false_ne_true]
    cases hlast : lastOf key c k with
    | none => rfl
    | some r =>
      rw [Option.filter_some_neg]
      rw [(of_lastOf hlast).2, hk]

end Group

end JsonScada.Lib.Collection
