/- path: JsonScada/Lib/Coalescing
   layer: library
   digest: Buffers that keep the latest value until they are flushed. -/

import Mathlib.Data.List.Sublists
import Mathlib.Logic.Function.Basic

set_option autoImplicit false
set_option relaxedAutoImplicit false

namespace JsonScada.Lib.Coalescing

universe u v

section Mailbox

variable {V : Type u}

/-- A reader's mailbox for one source: the value waiting, and the values it was given. -/
structure Mailbox (V : Type u) where
  latest : Option V := none
  given : List V := []

/-- What happens to a mailbox: a value replaces the one waiting, or the one waiting is given. -/
inductive Change (V : Type u) where
  | put (v : V)
  | flush

namespace Mailbox

def apply (m : Mailbox V) : Change V → Mailbox V
  | .put v => { m with latest := some v }
  | .flush => { latest := none, given := m.given ++ m.latest.toList }

/-- The values that were put. -/
def puts (changes : List (Change V)) : List V :=
  changes.filterMap fun
    | .put v => some v
    | .flush => none

/-- What is given since a mailbox was empty, with what is waiting, is some of what was put, in
order, and ends with the last of it. -/
theorem given_foldl_apply {m : Mailbox V} (hempty : m.latest = none)
    (changes : List (Change V)) :
    ∃ given, (changes.foldl apply m).given = m.given ++ given ∧
      (given ++ (changes.foldl apply m).latest.toList).Sublist (puts changes) ∧
      (given ++ (changes.foldl apply m).latest.toList).getLast? = (puts changes).getLast? := by
  induction changes using List.reverseRecOn with
  | nil => exact ⟨[], by simp, by simp [hempty, puts], by simp [hempty, puts]⟩
  | append_singleton changes change ih =>
    obtain ⟨given, hgiven, hsub, hlast⟩ := ih
    rw [List.foldl_append, List.foldl_cons, List.foldl_nil]
    cases change with
    | put v =>
      have hputs : puts (changes ++ [.put v]) = puts changes ++ [v] := by simp [puts]
      refine ⟨given, hgiven, ?_, ?_⟩
      · rw [hputs, apply, Option.toList_some]
        exact ((List.sublist_append_left _ _).trans hsub).append (List.Sublist.refl _)
      · simp [hputs, apply]
    | flush =>
      have hputs : puts (changes ++ [.flush]) = puts changes := by simp [puts]
      refine ⟨given ++ (changes.foldl apply m).latest.toList, ?_, ?_, ?_⟩
      · rw [apply, hgiven, List.append_assoc]
      · rw [hputs, apply, Option.toList_none, List.append_nil]
        exact hsub
      · rw [hputs, apply, Option.toList_none, List.append_nil]
        exact hlast

end Mailbox

end Mailbox

section Store

variable {ι : Type u} {V : Type v} [DecidableEq ι]

/-- Updates of a store, one after the other. -/
def applyAll {α : Type*} (index : α → ι) (value : α → V) (store : ι → V) (order : List α) : ι → V :=
  order.foldl (fun store u => Function.update store (index u) (value u)) store

variable {α : Type*} {index : α → ι} {value : α → V} {store : ι → V} {order : List α} {i : ι}

/-- An index without an update keeps its value. -/
theorem applyAll_of_forall_ne (h : ∀ u ∈ order, index u ≠ i) :
    applyAll index value store order i = store i := by
  rw [applyAll]
  induction order using List.reverseRecOn with
  | nil => rfl
  | append_singleton order u ih =>
    rw [List.foldl_append, List.foldl_cons, List.foldl_nil,
      Function.update_of_ne (h u (by simp)).symm]
    exact ih fun u' hu' => h u' (List.mem_append_left _ hu')

/-- Where all updates of an index agree, their order does not matter. -/
theorem applyAll_of_forall_eq {v : V} (hall : ∀ u ∈ order, index u = i → value u = v)
    (hex : ∃ u ∈ order, index u = i) : applyAll index value store order i = v := by
  rw [applyAll]
  induction order using List.reverseRecOn with
  | nil =>
    obtain ⟨u, hu, -⟩ := hex
    cases hu
  | append_singleton order u ih =>
    rw [List.foldl_append, List.foldl_cons, List.foldl_nil]
    by_cases hu : index u = i
    · rw [hu, Function.update_self]
      exact hall u (by simp) hu
    · rw [Function.update_of_ne (Ne.symm hu)]
      refine ih (fun u' hu' => hall u' (List.mem_append_left _ hu')) ?_
      obtain ⟨u', hu', hi⟩ := hex
      rcases List.mem_append.mp hu' with hu' | hu'
      · exact ⟨u', hu', hi⟩
      · obtain rfl := List.mem_singleton.mp hu'
        exact absurd hi hu

end Store

end JsonScada.Lib.Coalescing
