/- path: JsonScada/Calculations/Dependence
   source: src/calculations/calculations.go, switch p.calc
   digest: A formula reads its parcels only, and is available by its code and their number. -/

import Mathlib.Data.List.GetD
import JsonScada.Calculations.Formulas

set_option autoImplicit false
set_option relaxedAutoImplicit false

namespace JsonScada.Calculations.Formulas

open GoFloat

theorem foldl_closed {σ ι : Type} {H : σ → Prop} {f : σ → ι → σ} (l : List ι)
    (hf : ∀ s e, H s → H (f s e)) {s : σ} (hs : H s) : H (l.foldl f s) := by
  induction l generalizing s with
  | nil => exact hs
  | cons e l ih => exact ih (hf s e hs)

theorem ite_closed {σ : Type} {H : σ → Prop} {c : Prop} [Decidable c] {a b : σ} (ha : H a)
    (hb : H b) : H (if c then a else b) := by
  split
  · exact ha
  · exact hb

theorem foldl_congr_mem {σ ι : Type} {f g : σ → ι → σ} {l : List ι}
    (h : ∀ e ∈ l, ∀ s, f s e = g s e) (s : σ) : l.foldl f s = l.foldl g s := by
  induction l generalizing s with
  | nil => rfl
  | cons e l ih =>
    rw [List.foldl_cons, List.foldl_cons, h e List.mem_cons_self]
    exact ih (fun d hd => h d (List.mem_cons_of_mem e hd)) (g s e)

theorem any_congr_mem {ι : Type} {f g : ι → Bool} {l : List ι} (h : ∀ e ∈ l, f e = g e) :
    l.any f = l.any g := by
  induction l with
  | nil => rfl
  | cons e l ih =>
    rw [List.any_cons, List.any_cons, h e List.mem_cons_self,
      ih fun d hd => h d (List.mem_cons_of_mem e hd)]

section

variable {α : Type} {vals vals' : ℤ → α} {invalids invalids' : ℤ → Bool} {r : Calculation α}
  {idParcels : List ℤ}

theorem choice_congr (hvals : ∀ e ∈ idParcels, vals e = vals' e)
    (hinv : ∀ e ∈ idParcels, invalids e = invalids' e) :
    choice vals invalids idParcels = choice vals' invalids' idParcels := by
  unfold choice
  cases idParcels with
  | nil => rfl
  | cons first rest =>
    simp only [List.head?_cons, Option.bind_eq_bind, Option.bind_some]
    rw [foldl_congr_mem fun e he s => by rw [hinv e he, hvals e he],
      hvals first List.mem_cons_self, hinv first List.mem_cons_self]

theorem choice_closed {H : α → Prop} (hvals : ∀ e, H (vals e))
    (h : choice vals invalids idParcels = some r) : H r.val := by
  unfold choice at h
  obtain ⟨first, -, hr⟩ := Option.bind_eq_some_iff.mp h
  cases hr
  refine foldl_closed (H := fun s : α × Bool => H s.1) idParcels ?_ (hvals first)
  intro s e hs
  split
  · exact hvals e
  · exact hs

theorem choice_eq_none : choice vals invalids idParcels = none ↔ idParcels = [] := by
  cases idParcels <;> simp [choice]

theorem choice_transient (h : choice vals invalids idParcels = some r) :
    r.transient = false := by
  cases idParcels with
  | nil => cases h
  | cons first rest =>
    cases h
    rfl

variable [GoFloat α] {n : ℕ} {val val' : α} {flags : List ℕ}

theorem fixed_congr (hval : idParcels.length = n → val = val')
    (hflags : idParcels.length = n → ∀ i ∈ flags,
      invalids (idParcels.getD i 0) = invalids' (idParcels.getD i 0)) :
    fixed invalids idParcels n val flags = fixed invalids' idParcels n val' flags := by
  unfold fixed
  split
  · next h => rw [hval h, any_congr_mem (hflags h)]
  · rfl

theorem double_congr (hvals : ∀ e ∈ idParcels, vals e = vals' e)
    (hinv : ∀ e ∈ idParcels, invalids e = invalids' e) :
    double vals invalids idParcels = double vals' invalids' idParcels := by
  unfold double
  cases idParcels with
  | nil => rfl
  | cons first rest =>
    simp only [List.head?_cons, Option.bind_eq_bind, Option.bind_some]
    rw [hvals first List.mem_cons_self, hinv first List.mem_cons_self]
    split
    · next h =>
      have hon : (first :: rest).getD 1 0 ∈ first :: rest := by
        rw [List.getD_eq_getElem _ _ (by omega)]
        exact List.getElem_mem _
      rw [hvals _ hon, hinv _ hon]
    · rfl

theorem double_eq_none : double vals invalids idParcels = none ↔ idParcels = [] := by
  unfold double
  cases idParcels with
  | nil => simp
  | cons first rest =>
    simp only [List.head?_cons, Option.bind_eq_bind, Option.bind_some]
    split <;> simp

theorem fixed_ok :
    (fixed invalids idParcels n val flags).ok = decide (idParcels.length = n) := by
  unfold fixed
  split
  · next h => exact (decide_eq_true h).symm
  · next h => exact (decide_eq_false h).symm

theorem fixed_transient : (fixed invalids idParcels n val flags).transient = false := by
  unfold fixed
  split <;> rfl

/-- Only two parcels with one value are transient, and that makes them invalid. -/
theorem double_transient (h : double vals invalids idParcels = some r)
    (htransient : r.transient = true) : r.invalid = true := by
  cases idParcels with
  | nil => cases h
  | cons first rest =>
    by_cases hlength : (first :: rest).length = 2
    · cases (if_pos hlength).symm.trans h
      change (_ || _ || _) = true
      rw [show equal (vals first) (vals ((first :: rest).getD 1 0)) = true from htransient]
      rfl
    · cases (if_neg hlength).symm.trans h
      cases htransient

end

section

variable {α : Type} [Add α] [Sub α] [Mul α] [Div α] [Neg α] [GoFloat α]

/-- A set of numbers that the operations of the formulas do not leave. -/
structure Closed (H : α → Prop) : Prop where
  add : ∀ a b, H a → H b → H (a + b)
  sub : ∀ a b, H a → H b → H (a - b)
  mul : ∀ a b, H a → H b → H (a * b)
  div : ∀ a b, H a → H b → H (a / b)
  neg : ∀ a, H a → H (-a)
  const : ∀ q, H (const q)
  sqrt : ∀ a, H a → H (Sqrt a)
  abs : ∀ a, H a → H (Abs a)

variable {vals vals' : ℤ → α} {invalids invalids' : ℤ → Bool} {now now' : α} {p : PointCalc}
  {r : Calculation α}

section Closed

variable {H : α → Prop} (hH : Closed H) (hvals : ∀ e, H (vals e))

include hH

theorem fixed_closed {idParcels : List ℤ} {n : ℕ} {val : α} {flags : List ℕ} (hval : H val) :
    H (fixed invalids idParcels n val flags).val := by
  unfold fixed
  split
  · exact hval
  · exact hH.const 0

include hvals

theorem double_closed {idParcels : List ℤ} (h : double vals invalids idParcels = some r) :
    H r.val := by
  unfold double at h
  obtain ⟨first, -, hr⟩ := Option.bind_eq_some_iff.mp h
  split at hr
  · cases hr
    exact ite_closed (hH.const 1) (ite_closed (hH.const 0) (hvals first))
  · cases hr
    exact hvals first

/-- What is calculated from numbers of a closed set is in it. -/
theorem calculate_closed (hnow : H now) (h : calculate vals invalids now p = some r) :
    H r.val := by
  unfold calculate at h
  dsimp only at h
  split at h
  case h_4 =>
    cases h
    exact foldl_closed p.idParcels (fun s e hs => hH.add _ _ hs (hvals e)) (hH.const 0)
  case h_6 =>
    cases h
    exact foldl_closed p.idParcels (fun s e hs => ite_closed (hH.const 0) hs) (hH.const 1)
  case h_7 | h_64 | h_27 =>
    cases h
    exact foldl_closed p.idParcels (fun s e hs => ite_closed (hH.const 1) hs) (hH.const 0)
  case h_8 =>
    cases h
    exact hnow
  case h_10 =>
    cases h
    exact foldl_closed p.idParcels (fun s e hs => hH.sub _ _ hs (hvals e)) (hH.const 0)
  case h_25 | h_26 => exact choice_closed hvals h
  case h_28 =>
    cases h
    exact hH.sub _ _ (foldl_closed p.idParcels (fun s e hs => ite_closed (hvals e) hs) (hH.const _))
      (foldl_closed p.idParcels (fun s e hs => ite_closed (hvals e) hs) (hH.const _))
  case h_29 => exact double_closed hH hvals h
  case h_34 =>
    split at h
    all_goals
      cases h
      exact fixed_closed hH (hvals _)
  case h_55 =>
    split at h
    all_goals
      cases h
      exact hH.const _
  case h_78 =>
    cases h
    exact hH.const 0
  all_goals
    cases h
    refine fixed_closed hH ?_
    repeat' first
      | exact hvals _
      | exact hH.const _
      | apply ite_closed
      | apply hH.add
      | apply hH.sub
      | apply hH.mul
      | apply hH.div
      | apply hH.neg
      | apply hH.sqrt

end Closed

/-- Only the parcels of a point are read, and only the timer reads the clock. -/
theorem calculate_congr (htimer : p.formula ≠ 8) (hvals : ∀ e ∈ p.idParcels, vals e = vals' e)
    (hinv : ∀ e ∈ p.idParcels, invalids e = invalids' e) :
    calculate vals invalids now p = calculate vals' invalids' now' p := by
  obtain ⟨formula, idParcels⟩ := p
  have hv : ∀ i, i < idParcels.length →
      vals (idParcels.getD i 0) = vals' (idParcels.getD i 0) := by
    intro i hi
    apply hvals
    rw [List.getD_eq_getElem _ _ hi]
    exact List.getElem_mem hi
  have hw : ∀ i, i < idParcels.length →
      invalids (idParcels.getD i 0) = invalids' (idParcels.getD i 0) := by
    intro i hi
    apply hinv
    rw [List.getD_eq_getElem _ _ hi]
    exact List.getElem_mem hi
  have hany : idParcels.any invalids = idParcels.any invalids' := any_congr_mem hinv
  have hmem := @hvals
  unfold calculate
  dsimp only
  split
  case h_4 | h_10 =>
    rw [hany, foldl_congr_mem fun e he s => by rw [hmem e he]]
  case h_6 =>
    rw [hany, foldl_congr_mem fun e he s => by rw [hmem e he]]
  case h_7 | h_64 =>
    unfold anyNonzero
    rw [hany, foldl_congr_mem fun e he s => by rw [hmem e he]]
  case h_27 => rw [foldl_congr_mem fun e he s => by rw [hinv e he]]
  case h_28 =>
    have hmax := foldl_congr_mem (l := idParcels) (fun e he (s : α) =>
      show (if gt (vals e) s then vals e else s) = if gt (vals' e) s then vals' e else s by
        rw [hmem e he]) (const (-MaxFloat64))
    have hmin := foldl_congr_mem (l := idParcels) (fun e he (s : α) =>
      show (if less (vals e) s then vals e else s) = if less (vals' e) s then vals' e else s by
        rw [hmem e he]) (const MaxFloat64)
    rw [hany, hmax, hmin]
  case h_8 => exact absurd rfl htimer
  case h_78 | h_55 => rfl
  case h_25 | h_26 => exact choice_congr hvals hinv
  case h_29 => exact double_congr hvals hinv
  case h_34 =>
    by_cases hlength : idParcels.length = 3
    · simp only [fixed, if_pos hlength, List.any_cons, List.any_nil]
      rw [hv 0 (by omega), hv 1 (by omega), hv 2 (by omega), hw 1 (by omega), hw 2 (by omega)]
    · simp only [fixed, if_neg hlength, ite_self]
  all_goals
    refine congrArg some (fixed_congr ?_ ?_)
    · intro h
      simp (disch := omega) only [hv]
    · intro h i hi
      apply hw
      simp at hi
      omega

/-- At one reading of the clock all formulas read their parcels only. -/
theorem calculate_congr_parcels (hvals : ∀ e ∈ p.idParcels, vals e = vals' e)
    (hinv : ∀ e ∈ p.idParcels, invalids e = invalids' e) :
    calculate vals invalids now p = calculate vals' invalids' now p := by
  by_cases htimer : p.formula = 8
  · obtain ⟨formula, idParcels⟩ := p
    obtain rfl : formula = 8 := htimer
    rfl
  · exact calculate_congr htimer hvals hinv

/-- Whether a point is calculated depends on its code and on how many parcels it has. -/
theorem calculate_ok (h : calculate vals invalids now p = some r) :
    ∃ r', calculate vals' invalids' now' p = some r' ∧ r'.ok = r.ok := by
  obtain ⟨formula, idParcels⟩ := p
  unfold calculate at h ⊢
  dsimp only at h ⊢
  split at h
  case h_25 | h_26 =>
    cases idParcels with
    | nil => cases h
    | cons first rest =>
      cases h
      exact ⟨_, rfl, rfl⟩
  case h_29 =>
    cases idParcels with
    | nil => cases h
    | cons first rest =>
      by_cases hlength : (first :: rest).length = 2
      · cases (if_pos hlength).symm.trans h
        exact ⟨_, if_pos hlength, rfl⟩
      · cases (if_neg hlength).symm.trans h
        exact ⟨_, if_neg hlength, rfl⟩
  case h_34 =>
    have hok : r.ok = decide (idParcels.length = 3) := by
      split at h <;> cases h <;> exact fixed_ok
    rw [hok]
    split
    · exact ⟨_, rfl, fixed_ok⟩
    · exact ⟨_, rfl, fixed_ok⟩
  case h_55 =>
    cases h
    refine ⟨_, rfl, ?_⟩
    split <;> rfl
  case h_4 | h_6 | h_7 | h_8 | h_10 | h_27 | h_28 | h_64 | h_78 =>
    cases h
    exact ⟨_, rfl, rfl⟩
  all_goals
    cases h
    exact ⟨_, rfl, by rw [fixed_ok, fixed_ok]⟩

/-- The forms the result of a formula has. -/
theorem calculate_cases (vals : ℤ → α) (invalids : ℤ → Bool) (now : α) (p : PointCalc) :
    (p.formula ∈ [50, 51] ∧ calculate vals invalids now p = choice vals invalids p.idParcels) ∨
    (p.formula = 54 ∧ calculate vals invalids now p = double vals invalids p.idParcels) ∨
    ∃ r, calculate vals invalids now p = some r ∧ r.transient = false := by
  obtain ⟨formula, idParcels⟩ := p
  unfold calculate
  dsimp only
  split
  case h_25 | h_26 => exact .inl ⟨by decide, rfl⟩
  case h_29 => exact .inr (.inl ⟨rfl, rfl⟩)
  case h_34 =>
    refine .inr (.inr ?_)
    split
    · exact ⟨_, rfl, fixed_transient⟩
    · exact ⟨_, rfl, fixed_transient⟩
  case h_55 =>
    refine .inr (.inr ⟨_, rfl, ?_⟩)
    split <;> rfl
  case h_4 | h_6 | h_7 | h_8 | h_10 | h_27 | h_28 | h_64 | h_78 =>
    exact .inr (.inr ⟨_, rfl, rfl⟩)
  all_goals exact .inr (.inr ⟨_, rfl, fixed_transient⟩)

/-- The codes that index the first of no parcels stop the process. -/
theorem calculate_eq_none :
    calculate vals invalids now p = none ↔ p.formula ∈ [50, 51, 54] ∧ p.idParcels = [] := by
  rcases calculate_cases vals invalids now p with ⟨hcode, hp⟩ | ⟨hcode, hp⟩ | ⟨r, hr, -⟩
  · have hmem : p.formula ∈ [50, 51, 54] := by
      simp only [List.mem_cons, List.not_mem_nil, or_false] at hcode ⊢
      omega
    rw [hp, choice_eq_none]
    exact ⟨fun h => ⟨hmem, h⟩, fun h => h.2⟩
  · rw [hp, double_eq_none, hcode]
    exact ⟨fun h => ⟨by decide, h⟩, fun h => h.2⟩
  · refine ⟨fun h => (by rw [hr] at h; cases h), fun ⟨hcode, hnil⟩ => ?_⟩
    obtain ⟨formula, idParcels⟩ := p
    obtain rfl : idParcels = [] := hnil
    simp only [List.mem_cons, List.not_mem_nil, or_false] at hcode
    rcases hcode with rfl | rfl | rfl
    · exact choice_eq_none.mpr rfl
    · exact choice_eq_none.mpr rfl
    · exact double_eq_none.mpr rfl

/-- A transient result is also invalid. -/
theorem calculate_transient (h : calculate vals invalids now p = some r)
    (htransient : r.transient = true) : r.invalid = true := by
  rcases calculate_cases vals invalids now p with ⟨-, hp⟩ | ⟨-, hp⟩ | ⟨r', hr, hnone⟩
  · rw [choice_transient (hp.symm.trans h)] at htransient
    cases htransient
  · exact double_transient (hp.symm.trans h) htransient
  · obtain rfl := Option.some.inj (hr.symm.trans h)
    rw [hnone] at htransient
    cases htransient

end

end JsonScada.Calculations.Formulas
