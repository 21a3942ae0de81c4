/- path: JsonScada/Lib/Machine
   layer: library
   digest: Labelled step machines, their runs, and facts carried along a run. -/

import Mathlib.Data.List.Basic

set_option autoImplicit false
set_option relaxedAutoImplicit false

namespace JsonScada.Lib.Machine

universe u v
variable {σ : Type u} {α : Type v} {step : σ → α → Option σ}

/-- Execute the labels in order. A label the state does not allow ends the run
without a result. -/
def run (step : σ → α → Option σ) : σ → List α → Option σ
  | s, [] => some s
  | s, a :: as => (step s a).bind fun t => run step t as

/-- `P` holds of every step the run takes, each judged in the state before it. -/
def Every (step : σ → α → Option σ) (P : σ → α → Prop) : σ → List α → Prop
  | _, [] => True
  | s, a :: as => P s a ∧ ∀ t, step s a = some t → Every step P t as

/-- The states a run passes through, its first and its last included. -/
def Visits (step : σ → α → Option σ) (s : σ) (as : List α) (t : σ) : Prop :=
  ∃ pre, pre <+: as ∧ run step s pre = some t

@[simp] theorem run_nil (s : σ) : run step s [] = some s := rfl

theorem run_cons_eq_some {s t : σ} {a : α} {as : List α} :
    run step s (a :: as) = some t ↔ ∃ m, step s a = some m ∧ run step m as = some t := by
  simp [run, Option.bind_eq_some_iff]

theorem run_append (s : σ) (as bs : List α) :
    run step s (as ++ bs) = (run step s as).bind fun t => run step t bs := by
  induction as generalizing s with
  | nil => rfl
  | cons a as ih =>
    simp only [List.cons_append, run]
    cases step s a with
    | none => rfl
    | some t => exact ih t

theorem Every.imp {P Q : σ → α → Prop} (h : ∀ s a, P s a → Q s a) {s : σ} {as : List α}
    (hp : Every step P s as) : Every step Q s as := by
  induction as generalizing s with
  | nil => trivial
  | cons a as ih => exact ⟨h s a hp.1, fun t ht => ih (hp.2 t ht)⟩

theorem Every.and {P Q : σ → α → Prop} {s : σ} {as : List α}
    (hp : Every step P s as) (hq : Every step Q s as) :
    Every step (fun s a => P s a ∧ Q s a) s as := by
  induction as generalizing s with
  | nil => trivial
  | cons a as ih => exact ⟨⟨hp.1, hq.1⟩, fun t ht => ih (hp.2 t ht) (hq.2 t ht)⟩

instance Every.decidable {P : σ → α → Prop} [∀ s a, Decidable (P s a)] (s : σ) (as : List α) :
    Decidable (Every step P s as) :=
  match as with
  | [] => .isTrue trivial
  | a :: as =>
    match hs : step s a with
    | none => decidable_of_iff (P s a) (by simp [Every, hs])
    | some t =>
      haveI : Decidable (Every step P t as) := Every.decidable t as
      decidable_of_iff (P s a ∧ Every step P t as) (by simp [Every, hs])

theorem every_of_forall_mem {P : α → Prop} {s : σ} {as : List α} (h : ∀ a ∈ as, P a) :
    Every step (fun _ a => P a) s as := by
  induction as generalizing s with
  | nil => trivial
  | cons a as ih =>
    exact ⟨h a List.mem_cons_self, fun t _ => ih fun b hb => h b (List.mem_cons_of_mem a hb)⟩

/-- The rule of invariants: what one step that satisfies `P` preserves, a whole
run whose steps all satisfy `P` preserves. -/
theorem run_invariant {P : σ → α → Prop} {I : σ → Prop}
    (hstep : ∀ s a t, P s a → I s → step s a = some t → I t)
    {s t : σ} {as : List α} (hp : Every step P s as) (hi : I s)
    (hr : run step s as = some t) : I t := by
  induction as generalizing s with
  | nil =>
    cases hr
    exact hi
  | cons a as ih =>
    obtain ⟨m, hm, hr⟩ := run_cons_eq_some.mp hr
    exact ih (hp.2 m hm) (hstep s a m hp.1 hi hm) hr

/-- The rule of invariants for facts about the labels taken so far. -/
theorem run_trace_invariant {P : σ → α → Prop} {I : List α → σ → Prop}
    (hstep : ∀ as s a t, P s a → I as s → step s a = some t → I (as ++ [a]) t)
    {s t : σ} {as : List α} (hp : Every step P s as) (hi : I [] s)
    (hr : run step s as = some t) : I as t := by
  have main : ∀ (as pre : List α) (s : σ), I pre s → Every step P s as →
      run step s as = some t → I (pre ++ as) t := by
    intro as
    induction as with
    | nil =>
      intro pre s hi _ hr
      cases hr
      rw [List.append_nil]
      exact hi
    | cons a as ih =>
      intro pre s hi hp hr
      obtain ⟨m, hm, hr⟩ := run_cons_eq_some.mp hr
      have hnext := ih (pre ++ [a]) m (hstep pre s a m hp.1 hi hm) (hp.2 m hm) hr
      rw [List.append_assoc] at hnext
      exact hnext
  exact main as [] s hi hp hr

/-- An invariant may be used to judge the steps themselves. -/
theorem Every.strengthen {P : σ → α → Prop} {I : σ → Prop}
    (hstep : ∀ s a t, P s a → I s → step s a = some t → I t)
    {s : σ} {as : List α} (hp : Every step P s as) (hi : I s) :
    Every step (fun s a => P s a ∧ I s) s as := by
  induction as generalizing s with
  | nil => trivial
  | cons a as ih =>
    exact ⟨⟨hp.1, hi⟩, fun t ht => ih (hp.2 t ht) (hstep s a t hp.1 hi ht)⟩

theorem Every.of_isPrefix {P : σ → α → Prop} {s : σ} {pre as : List α} (h : pre <+: as)
    (hp : Every step P s as) : Every step P s pre := by
  obtain ⟨post, rfl⟩ := h
  induction pre generalizing s with
  | nil => trivial
  | cons a pre ih => exact ⟨hp.1, fun t ht => ih (hp.2 t ht)⟩

theorem every_append {P : σ → α → Prop} {s : σ} {as bs : List α} :
    Every step P s (as ++ bs) ↔
      Every step P s as ∧ ∀ t, run step s as = some t → Every step P t bs := by
  induction as generalizing s with
  | nil => simp [Every]
  | cons a as ih =>
    simp only [List.cons_append, Every, ih, run_cons_eq_some]
    constructor
    · rintro ⟨ha, hrest⟩
      refine ⟨⟨ha, fun m hm => (hrest m hm).1⟩, ?_⟩
      rintro t ⟨m, hm, ht⟩
      exact (hrest m hm).2 t ht
    · rintro ⟨⟨ha, has⟩, hbs⟩
      exact ⟨ha, fun m hm => ⟨has m hm, fun t ht => hbs t ⟨m, hm, ht⟩⟩⟩

theorem visits_invariant {P : σ → α → Prop} {I : σ → Prop}
    (hstep : ∀ s a t, P s a → I s → step s a = some t → I t)
    {s t : σ} {as : List α} (hp : Every step P s as) (hi : I s)
    (hv : Visits step s as t) : I t := by
  obtain ⟨pre, hpre, hr⟩ := hv
  exact run_invariant hstep (hp.of_isPrefix hpre) hi hr

theorem visits_start (s : σ) (as : List α) : Visits step s as s :=
  ⟨[], List.nil_prefix, rfl⟩

theorem Visits.cons {s m t : σ} {a : α} {as : List α} (hs : step s a = some m)
    (hv : Visits step m as t) : Visits step s (a :: as) t := by
  obtain ⟨pre, hpre, hr⟩ := hv
  refine ⟨a :: pre, List.cons_prefix_cons.mpr ⟨rfl, hpre⟩, ?_⟩
  exact run_cons_eq_some.mpr ⟨m, hs, hr⟩

/-- The exact rule of invariants: where one step from a state in `I` stays in `I` just
when it satisfies `P`, a run stays in `I` just when all its steps satisfy `P`. `A` is
assumed of every step, and `J` is an invariant of its own. -/
theorem visits_iff_every {A P : σ → α → Prop} {I J : σ → Prop}
    (hstep : ∀ s a t, A s a → J s → step s a = some t → J t ∧ (I s → (I t ↔ P s a)))
    (hstuck : ∀ s a, J s → step s a = none → P s a)
    {s : σ} {as : List α} (ha : Every step A s as) (hj : J s) (hi : I s) :
    (∀ t, Visits step s as t → I t) ↔ Every step P s as := by
  constructor
  · intro hv
    induction as generalizing s with
    | nil => trivial
    | cons a as ih =>
      have hnext : ∀ t, step s a = some t → I t := fun t ht =>
        hv t ((visits_start t as).cons ht)
      refine ⟨?_, fun t ht => ?_⟩
      · cases ht : step s a with
        | none => exact hstuck s a hj ht
        | some t => exact ((hstep s a t ha.1 hj ht).2 hi).mp (hnext t ht)
      · exact ih (ha.2 t ht) (hstep s a t ha.1 hj ht).1 (hnext t ht)
          fun r hr => hv r (hr.cons ht)
  · intro hp t hv
    have hboth : J t ∧ I t := by
      refine visits_invariant (I := fun t => J t ∧ I t) ?_ (ha.and hp) ⟨hj, hi⟩ hv
      intro s a t hs hji h
      obtain ⟨hj', hiff⟩ := hstep s a t hs.1 hji.1 h
      exact ⟨hj', (hiff hji.2).mpr hs.2⟩
    exact hboth.2

end JsonScada.Lib.Machine
