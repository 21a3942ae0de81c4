/- path: JsonScada/Lib/Custody
   layer: library
   digest: Elements given to a holder, of which each key keeps its own, in order. -/

import JsonScada.Lib.Machine
import Mathlib.Data.List.Perm.Basic

set_option autoImplicit false
set_option relaxedAutoImplicit false

namespace JsonScada.Lib.Custody

open JsonScada.Lib.Machine

universe u v w x
variable {α : Type u} {κ : Type v} [DecidableEq κ] {key : α → κ}

/-- Of each key is held what was given, each element once and in the order given. -/
def Holds (key : α → κ) (held given : List α) : Prop :=
  ∀ k, held.filter (key · = k) = given.filter (key · = k)

theorem Holds.refl (held : List α) : Holds key held held := fun _ => rfl

/-- What is given more is held where it comes last. -/
theorem Holds.append {held given : List α} (h : Holds key held given) (more : List α) :
    Holds key (held ++ more) (given ++ more) := by
  intro k
  rw [List.filter_append, List.filter_append, h k]

theorem Holds.perm {held given : List α} (h : Holds key held given) : held.Perm given := by
  classical
  refine List.perm_iff_count.mpr fun a => ?_
  have hcount : ∀ l : List α, l.count a = (l.filter (key · = key a)).count a := by
    intro l
    exact (List.count_filter (by simp)).symm
  rw [hcount held, hcount given, h]

/-- Nothing of what is held can be left out. -/
theorem Holds.iff_of_sublist {held given rest : List α} (h : Holds key held given)
    (hsub : rest.Sublist held) : Holds key rest given ↔ rest = held := by
  constructor
  · intro hrest
    have hperm : rest.Perm held := hrest.perm.trans h.perm.symm
    exact hsub.eq_of_length hperm.length_eq
  · rintro rfl
    exact h

/-- Elements can be dropped just where none of them counts. -/
theorem Holds.drop_iff {p : α → Bool} {before dropped after given : List α}
    (h : Holds key ((before ++ dropped ++ after).filter p) given) :
    Holds key ((before ++ after).filter p) given ↔ ∀ a ∈ dropped, p a = false := by
  have hsub : ((before ++ after).filter p).Sublist ((before ++ dropped ++ after).filter p) := by
    refine List.Sublist.filter p ?_
    rw [List.append_assoc]
    exact (List.Sublist.refl before).append (List.sublist_append_right dropped after)
  rw [h.iff_of_sublist hsub]
  simp only [List.filter_append]
  constructor
  · intro heq a ha
    have hlength := congrArg List.length heq
    simp only [List.length_append] at hlength
    have hnil : dropped.filter p = [] := List.eq_nil_of_length_eq_zero (by omega)
    exact Bool.not_eq_true _ ▸ List.filter_eq_nil_iff.mp hnil a ha
  · intro hnone
    have hnil : dropped.filter p = [] :=
      List.filter_eq_nil_iff.mpr fun a ha => by rw [hnone a ha]; exact Bool.false_ne_true
    rw [hnil, List.append_nil]

section Observation

variable {σ : Type w} {ε : Type x} {step : σ → ε → Option σ} {gives : ε → List α}

/-- A state, with what was given up to it. -/
structure Observed (σ : Type w) (α : Type u) where
  state : σ
  given : List α := []

/-- The step of a machine, whose labels give elements to it. -/
def observe (step : σ → ε → Option σ) (gives : ε → List α) (t : Observed σ α) (e : ε) :
    Option (Observed σ α) :=
  (step t.state e).map fun s => { state := s, given := t.given ++ gives e }

theorem observe_eq_some {t u : Observed σ α} {e : ε} (h : observe step gives t e = some u) :
    step t.state e = some u.state ∧ u.given = t.given ++ gives e := by
  obtain ⟨s, hs, rfl⟩ := Option.map_eq_some_iff.mp h
  exact ⟨hs, rfl⟩

theorem observe_eq_none {t : Observed σ α} {e : ε} (h : observe step gives t e = none) :
    step t.state e = none := Option.map_eq_none_iff.mp h

variable {contents : σ → List α} {p : α → Bool}

/-- The elements that count and were given are all held. -/
def Kept (contents : σ → List α) (key : α → κ) (p : α → Bool) (t : Observed σ α) : Prop :=
  Holds key ((contents t.state).filter p) (t.given.filter p)

/-- A step takes nothing out of the contents, or what it drops does not count just when `P`. -/
def Drops (contents : σ → List α) (p : α → Bool) (s t : σ) (given : List α) (P : Prop) : Prop :=
  ∃ before dropped after, contents s = before ++ dropped ++ after ∧
    contents t = before ++ after ++ given ∧ (P ↔ ∀ a ∈ dropped, p a = false)

theorem drops_nothing {s t : σ} {given : List α} {P : Prop}
    (h : contents t = contents s ++ given) (hp : P) : Drops contents p s t given P :=
  ⟨contents s, [], [], by simp, by simpa using h, by simpa using hp⟩

theorem Kept.iff_of_drops {t u : Observed σ α} (h : Kept contents key p t) {given : List α}
    {P : Prop} (hdrops : Drops contents p t.state u.state given P)
    (hgiven : u.given = t.given ++ given) : Kept contents key p u ↔ P := by
  obtain ⟨before, dropped, after, hbefore, hafter, hp⟩ := hdrops
  rw [Kept, hbefore] at h
  rw [hp, Kept, hafter, hgiven, List.filter_append (before ++ after), List.filter_append t.given]
  have hall := h.drop_iff
  constructor
  · intro hkept
    refine hall.mp fun k => ?_
    have hk := hkept k
    rw [List.filter_append ((before ++ after).filter p), List.filter_append (t.given.filter p)] at hk
    exact List.append_cancel_right hk
  · intro hnone
    exact (hall.mpr hnone).append _

/-- Where every step drops what does not count just when it satisfies `P`, all that counts is
held in every state of a run just when all steps of it do. -/
theorem kept_iff_every {A P : σ → ε → Prop} {J : σ → Prop}
    (hstep : ∀ s e t, A s e → J s → step s e = some t →
      J t ∧ Drops contents p s t (gives e) (P s e))
    (hstuck : ∀ s e, J s → step s e = none → P s e) {s : σ} {es : List ε} (hj : J s)
    (hstart : contents s = [])
    (ha : Every (observe step gives) (fun t e => A t.state e) { state := s } es) :
    (∀ t, Visits (observe step gives) { state := s } es t → Kept contents key p t) ↔
      Every (observe step gives) (fun t e => P t.state e) { state := s } es := by
  refine visits_iff_every (A := fun t e => A t.state e) (J := fun t => J t.state) ?_ ?_ ha hj ?_
  · intro t e u hat hjt hu
    obtain ⟨hs, hgiven⟩ := observe_eq_some hu
    obtain ⟨hju, hdrops⟩ := hstep t.state e u.state hat hjt hs
    exact ⟨hju, fun hkept => hkept.iff_of_drops hdrops hgiven⟩
  · intro t e hjt hnone
    exact hstuck t.state e hjt (observe_eq_none hnone)
  · intro k
    rw [hstart]

end Observation

end JsonScada.Lib.Custody
