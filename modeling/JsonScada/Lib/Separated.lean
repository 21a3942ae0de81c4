/- path: JsonScada/Lib/Separated
   layer: library
   digest: Texts made of parts with a separator behind each. -/

import Mathlib.Data.List.Basic
import Mathlib.Data.List.Count

set_option autoImplicit false
set_option relaxedAutoImplicit false

namespace JsonScada.Lib.Separated

universe u
variable {α : Type u} {sep : α}

/-- Nothing stands behind the last separator. -/
def Closed (sep : α) (g : List α) : Prop := ∀ c ∈ g.getLast?, c = sep

/-- The text is empty or goes on with a separator. -/
def Continued (sep : α) (r : List α) : Prop := ∀ c ∈ r.head?, c = sep

theorem closed_nil : Closed sep [] := fun _ hc => by cases hc

theorem closed_concat (g : List α) : Closed sep (g ++ [sep]) := by
  intro c hc
  rw [List.getLast?_concat] at hc
  exact (Option.some.inj hc).symm

theorem Closed.append {g h : List α} (hg : Closed sep g) (hh : Closed sep h) :
    Closed sep (g ++ h) := by
  intro c hc
  rw [List.getLast?_append] at hc
  cases hlast : h.getLast? with
  | none =>
    rw [hlast] at hc
    exact hg c hc
  | some d =>
    rw [hlast] at hc
    exact hh c (hlast.trans hc)

theorem Closed.tail {c : α} {g : List α} (h : Closed sep (c :: g)) : Closed sep g := by
  cases g with
  | nil => exact closed_nil
  | cons d g =>
    intro x hx
    exact h x (by rwa [List.getLast?_cons_cons])

/-- Without a separator nothing is closed but the empty text. -/
theorem Closed.eq_nil {g : List α} (h : Closed sep g) (hsep : sep ∉ g) : g = [] := by
  by_contra hne
  have hlast := h _ (List.getLast?_eq_some_getLast hne)
  exact hsep (hlast ▸ List.getLast_mem hne)

/-- The part at the start of a text ends at the first separator. -/
theorem first_part_eq {x y r s : List α} (hx : sep ∉ x) (hy : sep ∉ y) (hr : Continued sep r)
    (hs : Continued sep s) (h : x ++ r = y ++ s) : x = y := by
  induction x generalizing y with
  | nil =>
    cases y with
    | nil => rfl
    | cons d y =>
      rw [List.nil_append] at h
      have hd := hr d (by rw [h]; rfl)
      exact absurd (hd ▸ List.mem_cons_self) hy
  | cons c x ih =>
    cases y with
    | nil =>
      rw [List.nil_append] at h
      have hc := hs c (by rw [← h]; rfl)
      exact absurd (hc ▸ List.mem_cons_self) hx
    | cons d y =>
      obtain ⟨rfl, htail⟩ := List.cons.inj h
      have hnext := ih (fun hmem => hx (List.mem_cons_of_mem c hmem))
        (fun hmem => hy (List.mem_cons_of_mem c hmem)) htail
      rw [hnext]

/-- Two texts that are the same have the same part behind equally many separators. -/
theorem part_eq [DecidableEq α] {f g x y r s : List α} (hf : Closed sep f) (hg : Closed sep g)
    (hcount : f.count sep = g.count sep) (hx : sep ∉ x) (hy : sep ∉ y) (hr : Continued sep r)
    (hs : Continued sep s) (h : f ++ (x ++ r) = g ++ (y ++ s)) : x = y := by
  induction f generalizing g with
  | nil =>
    have hnone : sep ∉ g := List.count_eq_zero.mp hcount.symm
    rw [hg.eq_nil hnone] at h
    exact first_part_eq hx hy hr hs h
  | cons c f ih =>
    cases g with
    | nil =>
      have hnone : sep ∉ c :: f := List.count_eq_zero.mp hcount
      cases hf.eq_nil hnone
    | cons d g =>
      obtain ⟨rfl, htail⟩ := List.cons.inj h
      have hnext : f.count sep = g.count sep := by
        rw [List.count_cons, List.count_cons] at hcount
        omega
      exact ih hf.tail hg.tail hnext htail

/-- A pattern without the separator stands on one side of it. -/
theorem infix_append_cons_iff {pat f g : List α} (h : sep ∉ pat) :
    pat <:+: f ++ sep :: g ↔ pat <:+: f ∨ pat <:+: g := by
  constructor
  · rintro ⟨s, t, heq⟩
    rcases List.append_eq_append_iff.mp heq with ⟨u, hf, -⟩ | ⟨u, hs, hu⟩
    · exact .inl ⟨s, u, hf.symm⟩
    · cases u with
      | nil => exact .inl ⟨s, [], by rw [hs, List.append_nil, List.append_nil]⟩
      | cons c u =>
        obtain ⟨rfl, hg⟩ := List.cons.inj hu
        -- what is left of the separator is no part of the pattern
        rcases List.append_eq_append_iff.mp hs with ⟨v, -, hv⟩ | ⟨v, -, hv⟩
        · exact absurd (hv ▸ List.mem_append_right v List.mem_cons_self) h
        · cases v with
          | nil =>
            rw [List.nil_append] at hv
            exact absurd (hv ▸ List.mem_cons_self) h
          | cons d v =>
            refine .inr ⟨v, t, ?_⟩
            rw [hg, (List.cons.inj hv).2]
            rfl
  · rintro (⟨s, t, rfl⟩ | ⟨s, t, rfl⟩)
    · exact ⟨s, t ++ sep :: g, by simp⟩
    · exact ⟨f ++ sep :: s, t, by simp⟩

/-- What stands behind the last separator is read back. -/
theorem append_cons_inj {a b : List α} (ha : sep ∉ a) (hb : sep ∉ b)
    {g h : List α} (heq : g ++ sep :: a = h ++ sep :: b) : g = h ∧ a = b := by
  have hsplit : ∀ {x y : List α} {g h : List α}, sep ∉ x → g ++ sep :: x = h ++ sep :: y →
      ∀ k, h = g ++ k → k = [] := by
    intro x y g h hx hxy k hk
    subst hk
    cases k with
    | nil => rfl
    | cons c k =>
      rw [List.append_assoc, List.append_cancel_left_eq, List.cons_append, List.cons.injEq] at hxy
      exact absurd (by rw [hxy.2]; simp) hx
  have hg : g = h := by
    rcases List.append_eq_append_iff.mp heq with ⟨k, hk, -⟩ | ⟨k, hk, -⟩
    · rw [hk, hsplit ha heq k hk, List.append_nil]
    · rw [hk, hsplit hb heq.symm k hk, List.append_nil]
  subst hg
  simpa using heq

end JsonScada.Lib.Separated
