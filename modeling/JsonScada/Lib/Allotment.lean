/- path: JsonScada/Lib/Allotment
   layer: library
   digest: Numbers given one after the other to documents of a collection. -/

import Mathlib.Tactic.Ring
import JsonScada.Lib.Collection

set_option autoImplicit false
set_option relaxedAutoImplicit false

namespace JsonScada.Lib.Allotment

open JsonScada.Lib.Collection

universe u v
variable {α : Type u} {κ : Type v}

/-- Give the documents of a list the numbers that follow `last`, each with its own update
of the collection, until a number would pass the limit. -/
def allot (update : α → ℤ → List α → List α) (limit : ℤ) : ℤ → List α → List α → List α
  | _, [], c => c
  | last, a :: as, c =>
    if limit < last + 1 then c else allot update limit (last + 1) as (update a (last + 1) c)

/-- What the updates keep of the documents, the numbers keep. -/
theorem map_allot {β : Type v} {f : α → β} {update : α → ℤ → List α → List α} {limit : ℤ}
    (hupdate : ∀ a n c, (update a n c).map f = c.map f) (last : ℤ) (as c : List α) :
    (allot update limit last as c).map f = c.map f := by
  induction as generalizing last c with
  | nil => rfl
  | cons a as ih =>
    unfold allot
    split_ifs
    · rfl
    · rw [ih, hupdate]

section

variable [DecidableEq κ] {key : α → κ} {g : ℤ → α → α}

/-- With keys of its own an update of one document is an update of all with the key. -/
theorem updateOne_eq_map {c : List α} (hc : (c.map key).Nodup) (k : κ) (f : α → α) :
    updateOne (fun a => key a = k) f c = c.map fun a => if key a = k then f a else a := by
  induction c with
  | nil => rfl
  | cons a as ih =>
    rw [List.map_cons, List.nodup_cons] at hc
    obtain ⟨hnot, has⟩ := hc
    rw [updateOne, List.map_cons]
    by_cases ha : key a = k
    · have hrest : as.map (fun b => if key b = k then f b else b) = as := by
        conv_rhs => rw [← List.map_id as]
        apply List.map_congr_left
        intro b hb
        have hne : key b ≠ k := by
          rintro rfl
          exact hnot (ha ▸ List.mem_map_of_mem hb)
        rw [if_neg hne]
        rfl
      rw [if_pos (decide_eq_true ha), if_pos ha, hrest]
    · rw [if_neg (by simpa using ha), if_neg ha, ih has]

/-- An update that leaves the key of a document leaves the keys. -/
theorem map_key_update {k : κ} {f : α → α} (hf : ∀ a, key (f a) = key a) (c : List α) :
    (c.map fun b => if key b = k then f b else b).map key = c.map key := by
  rw [List.map_map]
  apply List.map_congr_left
  intro b _
  show key (if key b = k then f b else b) = key b
  split_ifs
  · exact hf b
  · rfl

/-- A document with another key is as before. -/
theorem mem_update {k : κ} {f : α → α} {c : List α} {b : α} (hb : b ∈ c) (hne : key b ≠ k) :
    b ∈ c.map fun b => if key b = k then f b else b :=
  List.mem_map.mpr ⟨b, hb, if_neg hne⟩

/-- Each document of the list gets the number of its place after `last`. -/
theorem allot_eq_map {update : α → ℤ → List α → List α} {limit : ℤ}
    (hg : ∀ n a, key (g n a) = key a) {last : ℤ} {as c : List α} (hc : (c.map key).Nodup)
    (has : (as.map key).Nodup) (hsub : ∀ a ∈ as, a ∈ c)
    (hupdate : ∀ a ∈ as, ∀ n c, (c.map key).Nodup → a ∈ c →
      update a n c = c.map fun b => if key b = key a then g n b else b)
    (hroom : last + as.length ≤ limit) :
    allot update limit last as c = c.map fun b =>
      if key b ∈ as.map key then g (last + 1 + (as.map key).idxOf (key b)) b else b := by
  induction as generalizing last c with
  | nil => simp [allot]
  | cons a as ih =>
    rw [List.map_cons, List.nodup_cons] at has
    obtain ⟨hnot, has⟩ := has
    rw [List.length_cons, Nat.cast_add, Nat.cast_one] at hroom
    have hupd := hupdate a List.mem_cons_self (last + 1) c hc (hsub a List.mem_cons_self)
    have hkeys : (c.map fun b => if key b = key a then g (last + 1) b else b).map key =
        c.map key := map_key_update (hg (last + 1)) c
    have hsub' : ∀ b ∈ as, b ∈ c.map fun b => if key b = key a then g (last + 1) b else b := by
      intro b hb
      have hne : key b ≠ key a := fun h => hnot (h ▸ List.mem_map_of_mem hb)
      exact mem_update (hsub b (List.mem_cons_of_mem a hb)) hne
    rw [allot, if_neg (by omega), hupd, ih (hkeys ▸ hc) has hsub'
      (fun b hb => hupdate b (List.mem_cons_of_mem a hb)) (by omega), List.map_map]
    apply List.map_congr_left
    intro b _
    by_cases hb : key b = key a
    · have hin : key b ∈ (a :: as).map key := by
        rw [hb]
        exact List.mem_cons_self
      have hout : key (g (last + 1) b) ∉ as.map key := by rwa [hg, hb]
      simp only [Function.comp_apply, if_pos hb, if_neg hout, if_pos hin]
      rw [List.map_cons, hb, List.idxOf_cons_self, Nat.cast_zero, add_zero]
    · have hmem : key b ∈ (a :: as).map key ↔ key b ∈ as.map key := by
        rw [List.map_cons, List.mem_cons, or_iff_right hb]
      have hidx : ((a :: as).map key).idxOf (key b) = (as.map key).idxOf (key b) + 1 := by
        rw [List.map_cons, List.idxOf_cons_ne _ (Ne.symm hb)]
      rw [Function.comp_apply, if_neg hb, hidx]
      simp only [hmem]
      congr 2
      push_cast
      ring

/-- With keys of its own the document an update is for is updated, the others are not. -/
theorem updateOne_eq_map_of_mem {p : α → Bool} {c : List α} (hc : (c.map key).Nodup) {a : α}
    (ha : a ∈ c) (hp : ∀ b, p b = true → key b = key a) (f : α → α) :
    updateOne p f c = c.map fun b => if key b = key a then (if p a then f a else a) else b := by
  have heq : ∀ b ∈ c, key b = key a → b = a := fun b hb h =>
    List.inj_on_of_nodup_map hc hb ha h
  cases hpa : p a with
  | true =>
    obtain ⟨pre, post, rfl⟩ := List.append_of_mem ha
    have hpre : ∀ b ∈ pre, p b = false := by
      intro b hb
      rw [Bool.eq_false_iff]
      intro hpb
      rw [List.map_append, List.map_cons, List.nodup_append] at hc
      exact hc.2.2 _ (List.mem_map_of_mem hb) _ List.mem_cons_self (hp b hpb)
    have hother : ∀ as : List α, (∀ b ∈ as, key b ≠ key a) →
        (as.map fun b => if key b = key a then f a else b) = as := by
      intro as has
      refine (List.map_congr_left fun b hb => ?_).trans (List.map_id as)
      exact if_neg (has b hb)
    rw [updateOne_append_cons hpre hpa, List.map_append, List.map_cons]
    rw [List.map_append, List.map_cons, List.nodup_append, List.nodup_cons] at hc
    rw [if_pos rfl, if_pos rfl, hother pre fun b hb h => hc.2.2 _ (List.mem_map_of_mem hb) _
        List.mem_cons_self h,
      hother post fun b hb h => hc.2.1.1 (h ▸ List.mem_map_of_mem hb)]
  | false =>
    have hnone : ∀ b ∈ c, p b = false := by
      intro b hb
      rw [Bool.eq_false_iff]
      intro hpb
      rw [heq b hb (hp b hpb), hpa] at hpb
      cases hpb
    rw [updateOne_of_forall hnone]
    refine ((List.map_congr_left fun b hb => ?_).trans (List.map_id c)).symm
    by_cases h : key b = key a
    · rw [if_pos h, if_neg Bool.false_ne_true, heq b hb h]
      rfl
    · rw [if_neg h]
      rfl

end

/-- As `allot`, with updates that can fail; a failure ends the loop without a result. -/
def tryAllot (update : α → ℤ → List α → Option (List α)) (limit : ℤ) :
    ℤ → List α → List α → Option (List α)
  | _, [], c => some c
  | last, a :: as, c =>
    if limit < last + 1 then some c
    else (update a (last + 1) c).bind (tryAllot update limit (last + 1) as)

section

variable {update : α → ℤ → List α → Option (List α)} {limit : ℤ}

/-- Only as many documents get a number as there are numbers left. -/
theorem tryAllot_take (last : ℤ) (as c : List α) :
    tryAllot update limit last as c =
      tryAllot update limit last (as.take (limit - last).toNat) c := by
  induction as generalizing last c with
  | nil => rw [List.take_nil]
  | cons a as ih =>
    rw [tryAllot]
    by_cases hfull : limit < last + 1
    · have hzero : (limit - last).toNat = 0 := by omega
      rw [if_pos hfull, hzero, List.take_zero, tryAllot]
    · have hsucc : (limit - last).toNat = (limit - (last + 1)).toNat + 1 := by omega
      rw [if_neg hfull, hsucc, List.take_succ_cons, tryAllot, if_neg hfull]
      congr 1
      funext d
      exact ih (last + 1) d

variable [DecidableEq κ] {key : α → κ} {g : ℤ → α → α} {bad : α → Bool}

/-- The numbers are given out if no document of the list refuses its update. -/
theorem tryAllot_eq (hg : ∀ n a, key (g n a) = key a) {last : ℤ} {as c : List α}
    (hc : (c.map key).Nodup) (has : (as.map key).Nodup) (hsub : ∀ a ∈ as, a ∈ c)
    (hupdate : ∀ a ∈ as, ∀ n c, (c.map key).Nodup → a ∈ c → update a n c =
      if bad a then none else some (c.map fun b => if key b = key a then g n b else b))
    (hroom : last + as.length ≤ limit) :
    tryAllot update limit last as c = if as.any bad then none else some
      (c.map fun b =>
        if key b ∈ as.map key then g (last + 1 + (as.map key).idxOf (key b)) b else b) := by
  have hall : tryAllot update limit last as c = if as.any bad then none else some
      (allot (fun a n c => c.map fun b => if key b = key a then g n b else b) limit last as c) := by
    induction as generalizing last c with
    | nil => rfl
    | cons a as ih =>
      rw [List.map_cons, List.nodup_cons] at has
      obtain ⟨hnot, has⟩ := has
      rw [List.length_cons, Nat.cast_add, Nat.cast_one] at hroom
      have hfull : ¬ limit < last + 1 := by omega
      rw [tryAllot, allot, if_neg hfull, if_neg hfull,
        hupdate a List.mem_cons_self (last + 1) c hc (hsub a List.mem_cons_self), List.any_cons]
      cases bad a with
      | true => rfl
      | false =>
        have hkeys : (c.map fun b => if key b = key a then g (last + 1) b else b).map key =
            c.map key := map_key_update (hg (last + 1)) c
        rw [if_neg Bool.false_ne_true, Option.bind_some, Bool.false_or]
        refine ih (hkeys ▸ hc) has (fun b hb => ?_)
          (fun b hb => hupdate b (List.mem_cons_of_mem a hb)) (by omega)
        have hne : key b ≠ key a := fun h => hnot (h ▸ List.mem_map_of_mem hb)
        exact mem_update (hsub b (List.mem_cons_of_mem a hb)) hne
  rw [hall]
  split_ifs
  · rfl
  · rw [allot_eq_map hg hc has hsub (fun _ _ _ _ _ _ => rfl) hroom]

end

end JsonScada.Lib.Allotment
