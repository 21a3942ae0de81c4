/- path: JsonScada/Lib/Pattern
   layer: library
   digest: Patterns of single symbols and of runs, at the head of a text or anywhere in it. -/

import Mathlib.Data.List.Infix

set_option autoImplicit false
set_option relaxedAutoImplicit false

namespace JsonScada.Lib.Pattern

universe u

variable {α : Type u}

/-- One symbol, or a run of symbols that is not empty. -/
inductive Piece (α : Type u) where
  | one (p : α → Bool)
  | many (p : α → Bool)

/-- The text is made of the pieces, in their order. -/
inductive Spells : List (Piece α) → List α → Prop where
  | nil : Spells [] []
  | one {p : α → Bool} {a : α} {ps : List (Piece α)} {as : List α} (h : p a = true)
      (hs : Spells ps as) : Spells (.one p :: ps) (a :: as)
  | many {p : α → Bool} {run : List α} {ps : List (Piece α)} {as : List α} (hne : run ≠ [])
      (h : ∀ a ∈ run, p a = true) (hs : Spells ps as) : Spells (.many p :: ps) (run ++ as)

/-- A run at the head of the text, with the rest as wanted. -/
def startsRun (p : α → Bool) (rest : List α → Bool) : List α → Bool
  | [] => false
  | a :: as => p a && (rest as || startsRun p rest as)

/-- A part at the head of the text is made of the pieces. -/
def starts : List (Piece α) → List α → Bool
  | [], _ => true
  | .one _ :: _, [] => false
  | .one p :: ps, a :: as => p a && starts ps as
  | .many p :: ps, text => startsRun p (starts ps) text

/-- Some part of the text is made of the pieces. -/
def occurs (ps : List (Piece α)) (text : List α) : Bool := text.tails.any (starts ps)

section Starts

theorem startsRun_iff {p : α → Bool} {rest : List α → Bool} {text : List α} :
    startsRun p rest text = true ↔
      ∃ run as, text = run ++ as ∧ run ≠ [] ∧ (∀ a ∈ run, p a = true) ∧ rest as = true := by
  induction text with
  | nil => simp [startsRun]
  | cons a as ih =>
    rw [startsRun, Bool.and_eq_true, Bool.or_eq_true, ih]
    constructor
    · rintro ⟨ha, hrest | ⟨run, as', rfl, -, hrun, hrest⟩⟩
      · exact ⟨[a], as, rfl, by simp, by simpa using ha, hrest⟩
      · refine ⟨a :: run, as', rfl, by simp, ?_, hrest⟩
        exact List.forall_mem_cons.mpr ⟨ha, hrun⟩
    · rintro ⟨run, as', htext, hne, hrun, hrest⟩
      cases run with
      | nil => exact absurd rfl hne
      | cons b run =>
        obtain ⟨rfl, rfl⟩ := List.cons.inj htext
        refine ⟨hrun _ List.mem_cons_self, ?_⟩
        cases run with
        | nil => exact .inl hrest
        | cons c run =>
          exact .inr ⟨c :: run, as', rfl, by simp,
            fun x hx => hrun x (List.mem_cons_of_mem _ hx), hrest⟩

theorem starts_iff {ps : List (Piece α)} {text : List α} :
    starts ps text = true ↔ ∃ head, head <+: text ∧ Spells ps head := by
  induction ps generalizing text with
  | nil => simpa [starts] using ⟨[], List.nil_prefix, Spells.nil⟩
  | cons piece ps ih =>
    cases piece with
    | one p =>
      cases text with
      | nil =>
        refine iff_of_false (by simp [starts]) ?_
        rintro ⟨head, hhead, hspell⟩
        obtain rfl := List.prefix_nil.mp hhead
        cases hspell
      | cons a as =>
        rw [starts, Bool.and_eq_true, ih]
        constructor
        · rintro ⟨ha, head, hhead, hspell⟩
          exact ⟨a :: head, List.cons_prefix_cons.mpr ⟨rfl, hhead⟩, .one ha hspell⟩
        · rintro ⟨head, hhead, hspell⟩
          cases hspell with
          | one ha hspell =>
            obtain ⟨heq, hprefix⟩ := List.cons_prefix_cons.mp hhead
            exact ⟨heq ▸ ha, _, hprefix, hspell⟩
    | many p =>
      rw [starts, startsRun_iff]
      constructor
      · rintro ⟨run, as, rfl, hne, hrun, hrest⟩
        obtain ⟨head, hhead, hspell⟩ := ih.mp hrest
        exact ⟨run ++ head, (List.prefix_append_right_inj run).mpr hhead, .many hne hrun hspell⟩
      · rintro ⟨head, ⟨behind, rfl⟩, hspell⟩
        cases hspell with
        | many hne hrun hspell =>
          refine ⟨_, _, List.append_assoc _ _ _, hne, hrun, ?_⟩
          exact ih.mpr ⟨_, List.prefix_append _ _, hspell⟩

theorem occurs_iff {ps : List (Piece α)} {text : List α} :
    occurs ps text = true ↔ ∃ part, part <:+: text ∧ Spells ps part := by
  rw [occurs, List.any_eq_true]
  constructor
  · rintro ⟨tail, htail, hstarts⟩
    obtain ⟨part, hpart, hspell⟩ := starts_iff.mp hstarts
    exact ⟨part, hpart.isInfix.trans ((List.mem_tails _ _).mp htail).isInfix, hspell⟩
  · rintro ⟨part, ⟨before, behind, rfl⟩, hspell⟩
    refine ⟨part ++ behind, (List.mem_tails _ _).mpr ⟨before, by simp⟩, ?_⟩
    exact starts_iff.mpr ⟨part, List.prefix_append _ _, hspell⟩

/-- Single symbols that each admit themselves admit the text they are made for. -/
theorem spells_self {p : α → α → Bool} {text : List α} (h : ∀ a ∈ text, p a a = true) :
    Spells (text.map fun a => .one (p a)) text := by
  induction text with
  | nil => exact .nil
  | cons a as ih =>
    exact .one (h a List.mem_cons_self) (ih fun x hx => h x (List.mem_cons_of_mem a hx))

end Starts

end JsonScada.Lib.Pattern
