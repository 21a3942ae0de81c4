/- path: JsonScada/System/FormulaConformity
   source: src/calculations/calculations.go, switch p.calc; src/calculations/README.md
   digest: The formulas of the engine over the reals against the documented ones. -/

import Mathlib.Analysis.Real.Sqrt
import Mathlib.Algebra.BigOperators.Intervals
import Mathlib.Data.List.GetD
import Mathlib.Order.Interval.Finset.Nat
import Mathlib.Tactic.LinearCombination
import JsonScada.Calculations.Formulas

set_option autoImplicit false
set_option relaxedAutoImplicit false

namespace JsonScada.System.FormulaConformity

open JsonScada.Calculations JsonScada.Calculations.Formulas

/-- The formulas read over the reals, where no operation rounds. -/
noncomputable instance : GoFloat ℝ where
  const q := q
  Sqrt := Real.sqrt
  Abs a := |a|
  less a b := decide (a < b)
  equal a b := decide (a = b)

@[simp] theorem const_real (q : ℚ) : (GoFloat.const q : ℝ) = q := rfl

@[simp] theorem sqrt_real (a : ℝ) : GoFloat.Sqrt a = √a := rfl

@[simp] theorem abs_real (a : ℝ) : GoFloat.Abs a = |a| := rfl

@[simp] theorem less_real (a b : ℝ) : GoFloat.less a b = decide (a < b) := rfl

@[simp] theorem equal_real (a b : ℝ) : GoFloat.equal a b = decide (a = b) := rfl

@[simp] theorem le_real (a b : ℝ) : Formulas.le a b = decide (a ≤ b) := by
  simp [Formulas.le, le_iff_lt_or_eq]

@[simp] theorem gt_real (a b : ℝ) : Formulas.gt a b = decide (a > b) := rfl

/-- The codes documented as a plain signed sum: how many leading parcels are
added and how many of the following ones subtracted. -/
def signedSum : ℕ → Option (ℕ × ℕ)
  | 15 => some (1, 1)
  | 16 => some (1, 2)
  | 17 => some (1, 3)
  | 18 => some (1, 5)
  | 19 => some (2, 1)
  | 20 => some (3, 3)
  | 21 => some (4, 5)
  | 22 => some (6, 3)
  | 23 => some (10, 1)
  | 24 => some (3, 6)
  | 200 => some (1, 7)
  | 201 => some (8, 3)
  | 205 => some (2, 3)
  | 206 => some (1, 8)
  | 207 => some (2, 4)
  | 208 => some (1, 4)
  | 209 => some (2, 7)
  | 210 => some (1, 6)
  | 211 => some (5, 4)
  | 213 => some (3, 1)
  | 214 => some (4, 1)
  | 215 => some (2, 2)
  | 217 => some (5, 1)
  | 222 => some (3, 4)
  | 223 => some (3, 5)
  | 224 => some (6, 1)
  | 226 => some (2, 6)
  | 227 => some (3, 2)
  | 228 => some (3, 9)
  | 229 => some (9, 3)
  | 230 => some (9, 1)
  | 232 => some (5, 3)
  | 233 => some (7, 4)
  | 680 => some (3, 2)
  | 5711 => some (0, 4)
  | 7374 => some (1, 11)
  | 8055 => some (2, 6)
  | 25673 => some (1, 1)
  | _ => none

section

variable (vals : ℤ → ℝ) (invalids : ℤ → Bool) (now : ℝ) (idParcels : List ℤ)

/-- The parcel the documentation calls `Pn`, counted from one. -/
def P (n : ℕ) : ℝ := vals (idParcels.getD (n - 1) 0)

/-- The sum `Pa + … + Pb`. -/
def sumOf (a b : ℕ) : ℝ := ∑ n ∈ Finset.Icc a b, P vals idParcels n

def firstValid : ℤ :=
  (idParcels.find? fun e => !invalids e).getD (idParcels.getD 0 0)

/-- The value documented for the other codes, in the README table or in the comment
of the code. -/
noncomputable def documentedOwn (code : ℕ) : ℝ :=
  let p := P vals idParcels
  let sum := sumOf vals idParcels
  match code with
  | 1 => 1000 / √3 * √(p 1 ^ 2 + p 2 ^ 2) / p 3
  | 2 => p 1 / √(p 1 ^ 2 + p 2 ^ 2)
  | 3 => √(p 1 ^ 2 + p 2 ^ 2)
  | 4 => (idParcels.map vals).sum
  | 5 => √(p 1)
  | 6 => if ∀ e ∈ idParcels, vals e ≠ 0 then 1 else 0
  | 7 => if ∃ e ∈ idParcels, vals e ≠ 0 then 1 else 0
  | 8 => now
  | 9 => p 1 * p 2 * √3 / 1000
  | 10 => -(idParcels.map vals).sum
  | 11 => sum 1 23 + p 24 * 0.72
  | 13 =>
    sum 1 8 - p 9 + sum 10 12 + p 13 * 0.52 + sum 14 15 - sum 16 17 + sum 18 22 -
      sum 23 24 + sum 25 33 + p 34 * 0.2 - 1
  | 14 => p 1 * 10 / 6
  | 26 => if |p 1| ≤ 0.5 then 1 else if |p 1| > 1.4 then 0 else p 2
  | 50 => vals (firstValid invalids idParcels)
  | 51 => vals (firstValid invalids idParcels)
  | 52 => if ∃ e ∈ idParcels, invalids e = false then 1 else 0
  | 53 => sSup {x | ∃ e ∈ idParcels, vals e = x} - sInf {x | ∃ e ∈ idParcels, vals e = x}
  | 54 => if p 1 = 0 ∧ p 2 ≠ 0 then 0 else if p 1 ≠ 0 ∧ p 2 = 0 then 1 else p 1
  | 55 => p 1 / p 2
  | 202 => p 1 * 60 + p 2
  | 203 => if p 1 ≠ 0 then p 3 else p 2
  | 204 => p 1 / 2
  | 216 => if p 2 ≤ p 1 ∧ p 1 ≤ p 3 then 1 else 0
  | 218 => if p 2 < p 1 ∧ p 1 ≤ p 3 then 1 else 0
  | 219 => if p 2 ≤ p 1 ∧ p 1 < p 3 then 1 else 0
  | 220 => if p 2 < p 1 then p 2 else p 1
  | 221 => if p 2 > p 1 then p 2 else p 1
  -- the constant VBD of the comment is 1
  | 225 => 1 + 0 * p 1
  | 231 => if p 1 > 0 then 0 else p 1
  | 500 => if ∃ e ∈ idParcels, vals e ≠ 0 then 1 else 0
  | 5000 => sum 1 3 - p 4 - 0.6 * p 5 + p 6
  | 5022 => p 1 + 0.65 * p 2
  | 5041 => p 1 + p 2 - p 3 + p 4 - p 5
  | 5043 => sum 1 4 - p 5 - p 6 + p 7 - p 8 - p 9
  | 5172 => -0.72 * p 1
  | 5173 => 0.38 * p 1
  | 5174 => 0.14 * p 1
  | 5406 => -p 1 + sum 2 6 - p 7 - p 8 + sum 9 11
  | _ => 0

/-- The value documented for a code. -/
noncomputable def documented (code : ℕ) : ℝ :=
  match signedSum code with
  | some (added, subtracted) =>
    sumOf vals idParcels 1 added - sumOf vals idParcels (added + 1) (added + subtracted)
  | none => documentedOwn vals invalids now idParcels code

/-- The flag of a formula: that of the chosen parcel for the choices, else the
flags of all the parcels together. -/
noncomputable def documentedInvalid (code : ℕ) : Bool :=
  match code with
  | 8 => false
  | 50 => invalids (firstValid invalids idParcels)
  | 51 => invalids (firstValid invalids idParcels)
  | 203 => invalids (idParcels.getD (if P vals idParcels 1 ≠ 0 then 2 else 1) 0)
  | _ => idParcels.any invalids

/-- The value by design. The current has a rounded constant and no value without
voltage, a choice takes the value of a valid parcel, a division by zero gives the
largest float. The two codes that miss a term of their comment are only held to
it where the term is zero. -/
def DesignedValue (code : ℕ) (val : ℝ) : Prop :=
  let p := P vals idParcels
  match code with
  | 1 => val = if p 3 > 0 then 577.35027 * √(p 1 ^ 2 + p 2 ^ 2) / p 3 else 0
  | 13 => p 23 + p 24 = 0 → val = documented vals invalids now idParcels 13
  | 50 | 51 =>
    (∃ e ∈ idParcels, invalids e = false ∧ val = vals e) ∨
      (∀ e ∈ idParcels, invalids e = true) ∧ val = p 1
  | 55 =>
    val = if p 2 ≠ 0 then p 1 / p 2
      else if p 1 = 0 then 0 else if p 1 > 0 then (MaxFloat64 : ℝ) else -MaxFloat64
  | 5022 => p 2 = 0 → val = documented vals invalids now idParcels 5022
  | code => val = documented vals invalids now idParcels code

/-- The flag by design. The answer to "any ok?" and the constant are valid, equal
single points make a bad double one, and a range test has at least the flag of
the parcel it tests. -/
def DesignedInvalid (code : ℕ) (invalid : Bool) : Prop :=
  match code with
  | 52 | 225 => invalid = false
  | 54 =>
    invalid = (decide (P vals idParcels 1 = P vals idParcels 2) || idParcels.any invalids)
  | 216 | 218 | 219 =>
    (invalids (idParcels.getD 0 0) = true → invalid = true) ∧
      (invalid = true → idParcels.any invalids = true)
  | code => invalid = documentedInvalid vals invalids idParcels code

/-- The engine calculates this value and flag for a point, and writes them unless
the point has them already. -/
def Written (id : ℤ) (code : ℕ) (val : ℝ) (invalid : Bool) : Prop :=
  ∃ r, calculate vals invalids now ⟨code, idParcels⟩ = some r ∧ r.ok = true ∧
    (changedUpdate vals invalids id r).elim (vals id = val ∧ invalids id = invalid) fun u =>
      u.valueAtSource = val ∧ u.invalidAtSource = invalid

end

/-- The numbers of parcels with which one of the other codes is calculated. -/
def RequiresOwn (code n : ℕ) : Prop :=
  match code with
  | 4 | 6 | 7 | 8 | 10 | 50 | 51 | 52 | 53 | 500 => True
  | 225 => n ≤ 1
  | 5 | 14 | 204 | 231 | 5172 | 5173 | 5174 => n = 1
  | 2 | 3 | 9 | 26 | 54 | 55 | 202 | 220 | 221 | 5022 => n = 2
  | 1 | 203 | 216 | 218 | 219 => n = 3
  | 5041 => n = 5
  | 5000 => n = 6
  | 5043 => n = 9
  | 5406 => n = 11
  | 11 => n = 24
  | 13 => n = 34
  | _ => False

/-- The numbers of parcels with which a code of the switch is calculated. -/
def Requires (code n : ℕ) : Prop :=
  match signedSum code with
  | some (added, subtracted) => n = added + subtracted
  | none => RequiresOwn code n

section Folds

variable {ι β : Type}

theorem foldl_add_eq (f : ι → ℝ) (l : List ι) (a : ℝ) :
    l.foldl (fun s e => s + f e) a = a + (l.map f).sum := by
  induction l generalizing a with
  | nil => simp
  | cons e l ih =>
    rw [List.foldl_cons, ih, List.map_cons, List.sum_cons, add_assoc]

theorem foldl_sub_eq (f : ι → ℝ) (l : List ι) (a : ℝ) :
    l.foldl (fun s e => s - f e) a = a - (l.map f).sum := by
  induction l generalizing a with
  | nil => simp
  | cons e l ih =>
    rw [List.foldl_cons, ih, List.map_cons, List.sum_cons, sub_sub]

/-- A variable set to one value by any of the elements keeps it. -/
theorem foldl_latch (test : ι → Bool) (x a : β) (l : List ι) :
    l.foldl (fun s e => if test e then x else s) a = if l.any test then x else a := by
  induction l generalizing a with
  | nil => rfl
  | cons e l ih =>
    rw [List.foldl_cons, ih, List.any_cons]
    cases test e <;> simp

/-- A variable replaced by every element that passes holds one of them, or its start. -/
theorem foldl_replace (test : ι → Bool) (f : ι → β) (a : β) (l : List ι) :
    (∃ e ∈ l, test e = true ∧ l.foldl (fun s e => if test e then f e else s) a = f e) ∨
      (∀ e ∈ l, test e = false) ∧ l.foldl (fun s e => if test e then f e else s) a = a := by
  induction l generalizing a with
  | nil => exact Or.inr ⟨by simp, rfl⟩
  | cons e l ih =>
    rw [List.foldl_cons]
    rcases ih (if test e then f e else a) with ⟨d, hd, htest, hval⟩ | ⟨hall, hval⟩
    · exact Or.inl ⟨d, List.mem_cons_of_mem _ hd, htest, hval⟩
    · cases hte : test e with
      | true =>
        refine Or.inl ⟨e, List.mem_cons_self, hte, ?_⟩
        simpa [hte] using hval
      | false =>
        refine Or.inr ⟨List.forall_mem_cons.mpr ⟨hte, hall⟩, ?_⟩
        simpa [hte] using hval

/-- The running maximum is the greatest of its start and of the elements. -/
theorem foldl_greatest [LinearOrder β] (f : ι → β) (l : List ι) (a : β) :
    IsGreatest (insert a {x | ∃ e ∈ l, f e = x})
      (l.foldl (fun s e => if s < f e then f e else s) a) := by
  induction l generalizing a with
  | nil => simp [IsGreatest, upperBounds]
  | cons e l ih =>
    have hmax : (if a < f e then f e else a) = max a (f e) := by
      rw [max_def']
      split_ifs <;> order
    obtain ⟨hmem, hbound⟩ := ih (max a (f e))
    rw [List.foldl_cons, hmax]
    constructor
    · rcases hmem with heq | ⟨d, hd, hval⟩
      · rcases max_choice a (f e) with h | h
        · exact Or.inl (heq.trans h)
        · exact Or.inr ⟨e, List.mem_cons_self, (heq.trans h).symm⟩
      · exact Or.inr ⟨d, List.mem_cons_of_mem _ hd, hval⟩
    · have hstart := hbound (Set.mem_insert _ _)
      rintro x (rfl | ⟨d, hd, rfl⟩)
      · exact (le_max_left _ _).trans hstart
      · rcases List.mem_cons.mp hd with rfl | hd
        · exact (le_max_right _ _).trans hstart
        · exact hbound (Or.inr ⟨d, hd, rfl⟩)

/-- A start below one of the elements is not what is greatest. -/
theorem isGreatest_of_insert [LinearOrder β] {a x g : β} {s : Set β}
    (h : IsGreatest (insert a s) g) (hx : x ∈ s) (hle : a ≤ x) : IsGreatest s g := by
  have hxg : x ≤ g := h.2 (Or.inr hx)
  refine ⟨?_, fun y hy => h.2 (Or.inr hy)⟩
  rcases h.1 with rfl | hmem
  · rwa [le_antisymm hle hxg]
  · exact hmem

end Folds

section

variable {vals : ℤ → ℝ} {invalids : ℤ → Bool} {now : ℝ} {idParcels : List ℤ}

/-- A sum of the documentation is a sum over the indices of the code. -/
theorem sumOf_eq (a n : ℕ) : sumOf vals idParcels (a + 1) (a + n) =
    ∑ i ∈ Finset.range n, vals (idParcels.getD (a + i) 0) := by
  have hset : Finset.Icc (a + 1) (a + n) = (Finset.range n).image (fun i => a + i + 1) := by
    ext k
    simp only [Finset.mem_Icc, Finset.mem_image, Finset.mem_range]
    constructor
    · intro hk
      exact ⟨k - a - 1, by omega, by omega⟩
    · rintro ⟨i, hi, rfl⟩
      omega
  rw [sumOf, hset, Finset.sum_image (by intro i _ j _ hij; simp only at hij; omega)]
  rfl

theorem sumOf_first (n : ℕ) : sumOf vals idParcels 1 n =
    ∑ i ∈ Finset.range n, vals (idParcels.getD i 0) := by
  simpa using @sumOf_eq vals idParcels 0 n

theorem any_range (f : ℤ → Bool) :
    ((List.range idParcels.length).any fun i => f (idParcels.getD i 0)) = idParcels.any f := by
  rw [Bool.eq_iff_iff, List.any_eq_true, List.any_eq_true]
  constructor
  · rintro ⟨i, hi, hf⟩
    have hlt := List.mem_range.mp hi
    rw [List.getD_eq_getElem _ _ hlt] at hf
    exact ⟨_, List.getElem_mem hlt, hf⟩
  · rintro ⟨e, he, hf⟩
    obtain ⟨i, hlt, rfl⟩ := List.mem_iff_getElem.mp he
    exact ⟨i, List.mem_range.mpr hlt, by rwa [List.getD_eq_getElem _ _ hlt]⟩

/-- A branch whose flags run over all its indices. -/
theorem fixed_eq {n : ℕ} {val : ℝ} (h : idParcels.length = n) :
    fixed invalids idParcels n val (List.range n) =
      { ok := true, val := val, invalid := idParcels.any invalids, transient := false } := by
  subst h
  rw [fixed, if_pos rfl, any_range]

theorem calculate_signedSum {code added subtracted : ℕ}
    (hcode : signedSum code = some (added, subtracted))
    (hlength : idParcels.length = added + subtracted) :
    calculate vals invalids now ⟨code, idParcels⟩ = some
      { ok := true
        val := sumOf vals idParcels 1 added -
          sumOf vals idParcels (added + 1) (added + subtracted)
        invalid := idParcels.any invalids
        transient := false } := by
  rw [sumOf_first, sumOf_eq, ← fixed_eq hlength]
  unfold signedSum at hcode
  split at hcode
  all_goals cases hcode
  all_goals
    refine congrArg some (congrArg (fixed invalids idParcels _ · _) ?_)
    simp [Finset.sum_range_succ]
    try ring

/-- What is calculated is written. -/
theorem written_of_calculate {id : ℤ} {code : ℕ} {r : Calculation ℝ}
    (h : calculate vals invalids now ⟨code, idParcels⟩ = some r) (hok : r.ok = true) :
    Written vals invalids now idParcels id code r.val r.invalid := by
  refine ⟨r, h, hok, ?_⟩
  unfold changedUpdate
  split_ifs with hchanged
  · exact ⟨rfl, rfl⟩
  · rw [hok, Bool.true_and, Bool.or_eq_true, not_or] at hchanged
    obtain ⟨hval, hinv⟩ := hchanged
    have hval : r.val = vals id := by simpa [GoFloat.equal] using hval
    have hinv : r.invalid = invalids id := by simpa using hinv
    exact ⟨hval.symm, hinv.symm⟩

variable (vals invalids now idParcels) in
/-- A point of this code is calculated, to the value and flag of the design. -/
def Conforms (code : ℕ) : Prop :=
  ∃ r, calculate vals invalids now ⟨code, idParcels⟩ = some r ∧ r.ok = true ∧
    DesignedValue vals invalids now idParcels code r.val ∧
    DesignedInvalid vals invalids idParcels code r.invalid

theorem conforms_signedSum {code added subtracted : ℕ}
    (hcode : signedSum code = some (added, subtracted))
    (hlength : idParcels.length = added + subtracted) :
    Conforms vals invalids now idParcels code := by
  refine ⟨_, calculate_signedSum hcode hlength, rfl, ?_⟩
  unfold signedSum at hcode
  split at hcode
  all_goals cases hcode
  all_goals exact ⟨rfl, rfl⟩

/-- The branches of fixed length with the flags of all their parcels. -/
theorem conforms_fixed {code n : ℕ} {val : ℝ} (hlength : idParcels.length = n)
    (hcalc : calculate vals invalids now ⟨code, idParcels⟩ =
      some (fixed invalids idParcels n val (List.range n)))
    (hval : DesignedValue vals invalids now idParcels code val)
    (hinv : DesignedInvalid vals invalids idParcels code (idParcels.any invalids)) :
    Conforms vals invalids now idParcels code := by
  rw [fixed_eq hlength] at hcalc
  exact ⟨_, hcalc, rfl, hval, hinv⟩

theorem firstValid_valid {e : ℤ} (he : e ∈ idParcels) (hvalid : invalids e = false) :
    invalids (firstValid invalids idParcels) = false := by
  have hsome : (idParcels.find? fun e => !invalids e).isSome = true :=
    List.find?_isSome.mpr ⟨e, he, by simp [hvalid]⟩
  obtain ⟨d, hd⟩ := Option.isSome_iff_exists.mp hsome
  have htest := List.find?_some hd
  rw [firstValid, hd, Option.getD_some]
  simpa using htest

theorem firstValid_of_all (hall : ∀ e ∈ idParcels, invalids e = true) :
    firstValid invalids idParcels = idParcels.getD 0 0 := by
  have hnone : (idParcels.find? fun e => !invalids e) = none := by
    simpa using hall
  rw [firstValid, hnone, Option.getD_none]

theorem conforms_choice (hne : idParcels ≠ []) {code : ℕ} (hcode : code = 50 ∨ code = 51) :
    Conforms vals invalids now idParcels code := by
  let chosen := idParcels.foldl (fun s e => if !invalids e then (vals e, false) else s)
    (P vals idParcels 1, invalids (idParcels.getD 0 0))
  have hcalc : calculate vals invalids now ⟨code, idParcels⟩ =
      some { ok := true, val := chosen.1, invalid := chosen.2, transient := false } := by
    obtain ⟨first, rest, rfl⟩ := List.exists_cons_of_ne_nil hne
    rcases hcode with rfl | rfl <;> rfl
  have hchosen := foldl_replace (fun e => !invalids e) (fun e => (vals e, false))
    (P vals idParcels 1, invalids (idParcels.getD 0 0)) idParcels
  refine ⟨_, hcalc, rfl, ?_⟩
  have hval : ((∃ e ∈ idParcels, invalids e = false ∧ chosen.1 = vals e) ∨
      (∀ e ∈ idParcels, invalids e = true) ∧ chosen.1 = P vals idParcels 1) ∧
      chosen.2 = invalids (firstValid invalids idParcels) := by
    rcases hchosen with ⟨e, he, hvalid, hfold⟩ | ⟨hall, hfold⟩
    · have hvalid : invalids e = false := by simpa using hvalid
      have hfold : chosen = (vals e, false) := hfold
      rw [hfold]
      exact ⟨Or.inl ⟨e, he, hvalid, rfl⟩, (firstValid_valid he hvalid).symm⟩
    · have hall : ∀ e ∈ idParcels, invalids e = true := by simpa using hall
      have hfold : chosen = _ := hfold
      rw [hfold]
      exact ⟨Or.inr ⟨hall, rfl⟩, by rw [firstValid_of_all hall]⟩
  rcases hcode with rfl | rfl <;> exact hval

/-- The difference of the running maximum and minimum, whatever floats they start from. -/
theorem span_eq (hne : idParcels ≠ [])
    (hfinite : ∀ e ∈ idParcels, |vals e| ≤ (MaxFloat64 : ℝ)) :
    idParcels.foldl (fun s e => if s < vals e then vals e else s) (-MaxFloat64 : ℝ) -
        idParcels.foldl (fun s e => if vals e < s then vals e else s) (MaxFloat64 : ℝ) =
      sSup {x | ∃ e ∈ idParcels, vals e = x} - sInf {x | ∃ e ∈ idParcels, vals e = x} := by
  obtain ⟨first, hfirst⟩ := List.exists_mem_of_ne_nil _ hne
  obtain ⟨hlow, hhigh⟩ := abs_le.mp (hfinite first hfirst)
  have hmem : vals first ∈ {x | ∃ e ∈ idParcels, vals e = x} := ⟨first, hfirst, rfl⟩
  have hmax := isGreatest_of_insert (foldl_greatest vals idParcels (-MaxFloat64 : ℝ)) hmem hlow
  -- the minimum is the maximum of the reversed order
  have hmin : IsLeast {x | ∃ e ∈ idParcels, vals e = x}
      (idParcels.foldl (fun s e => if vals e < s then vals e else s) (MaxFloat64 : ℝ)) :=
    isGreatest_of_insert (β := ℝᵒᵈ) (foldl_greatest (β := ℝᵒᵈ) vals idParcels _) hmem hhigh
  rw [hmax.csSup_eq, hmin.csInf_eq]

theorem conforms_double (hlength : idParcels.length = 2) :
    Conforms vals invalids now idParcels 54 := by
  obtain ⟨off, on, rfl⟩ := List.length_eq_two.mp hlength
  refine ⟨_, rfl, rfl, ?_, ?_⟩
  · change (if _ then _ else _) = if _ then _ else _
    by_cases hoff : vals off = 0 <;> by_cases hon : vals on = 0 <;> simp [P, hoff, hon]
  · simp [DesignedInvalid, P, Bool.or_assoc]

theorem conforms_measure (hlength : idParcels.length = 3) :
    Conforms vals invalids now idParcels 203 := by
  have hcalc : calculate vals invalids now ⟨203, idParcels⟩ =
      if vals (idParcels.getD 0 0) = 0 then
        some (fixed invalids idParcels 3 (vals (idParcels.getD 1 0)) [1])
      else some (fixed invalids idParcels 3 (vals (idParcels.getD 2 0)) [2]) := by
    simp [calculate]
  unfold fixed at hcalc
  rw [if_pos hlength, if_pos hlength] at hcalc
  split_ifs at hcalc with hzero
  · refine ⟨_, hcalc, rfl, ?_, ?_⟩
    · simp only [DesignedValue, documented, documentedOwn, signedSum, P]
      exact (if_neg (not_not_intro hzero)).symm
    · simp_all [DesignedInvalid, documentedInvalid, P]
  · refine ⟨_, hcalc, rfl, ?_, ?_⟩
    · simp only [DesignedValue, documented, documentedOwn, signedSum, P]
      exact (if_pos hzero).symm
    · simp_all [DesignedInvalid, documentedInvalid, P]

/-- A range test takes the flag of the parcel it tests, of three. -/
theorem conforms_range {code : ℕ} {val : ℝ} (hlength : idParcels.length = 3)
    (hcalc : calculate vals invalids now ⟨code, idParcels⟩ =
      some (fixed invalids idParcels 3 val [0]))
    (hval : DesignedValue vals invalids now idParcels code val)
    (hcode : code = 216 ∨ code = 218 ∨ code = 219) :
    Conforms vals invalids now idParcels code := by
  rw [fixed, if_pos hlength] at hcalc
  refine ⟨_, hcalc, rfl, hval, ?_⟩
  have hmem : idParcels.getD 0 0 ∈ idParcels := by
    rw [List.getD_eq_getElem _ _ (by omega)]
    exact List.getElem_mem _
  have hflag : ((invalids (idParcels.getD 0 0) = true →
      [0].any (fun i => invalids (idParcels.getD i 0)) = true) ∧
      ([0].any (fun i => invalids (idParcels.getD i 0)) = true →
        idParcels.any invalids = true)) := by
    rw [List.any_cons, List.any_nil, Bool.or_false]
    exact ⟨id, fun hfirst => List.any_eq_true.mpr ⟨_, hmem, hfirst⟩⟩
  rcases hcode with rfl | rfl | rfl <;> exact hflag

attribute [local simp] DesignedValue documented documentedOwn signedSum P

/-- The codes that take any number of parcels, or up to one. -/
theorem conforms_variadic {code : ℕ} (hcode : code ∈ [4, 6, 7, 8, 10, 52, 500] ∨
    code = 225 ∧ idParcels.length ≤ 1) : Conforms vals invalids now idParcels code := by
  have hall : (if ∃ e ∈ idParcels, vals e = 0 then (0 : ℝ) else 1) =
      if ∀ e ∈ idParcels, ¬vals e = 0 then 1 else 0 := by
    rw [← ite_not]
    simp
  simp only [List.mem_cons, List.not_mem_nil, or_false] at hcode
  rcases hcode with (rfl | rfl | rfl | rfl | rfl | rfl | rfl) | ⟨rfl, hlength⟩
  · exact ⟨_, rfl, rfl, by simp [foldl_add_eq], rfl⟩
  · exact ⟨_, rfl, rfl, (foldl_latch _ _ _ _).trans (by simpa using hall), rfl⟩
  · exact ⟨_, rfl, rfl, (foldl_latch _ _ _ _).trans (by simp), rfl⟩
  · exact ⟨_, rfl, rfl, rfl, rfl⟩
  · exact ⟨_, rfl, rfl, by simp [foldl_sub_eq], rfl⟩
  · exact ⟨_, rfl, rfl, (foldl_latch _ _ _ _).trans (by simp), rfl⟩
  · exact ⟨_, rfl, rfl, (foldl_latch _ _ _ _).trans (by simp), rfl⟩
  · exact ⟨_, congrArg some (if_pos hlength), rfl, by simp, rfl⟩

theorem conforms_span (hne : idParcels ≠ [])
    (hfinite : ∀ e ∈ idParcels, |vals e| ≤ (MaxFloat64 : ℝ)) :
    Conforms vals invalids now idParcels 53 := by
  refine ⟨_, rfl, rfl, ?_, rfl⟩
  simp [← span_eq hne hfinite]

/-- The codes whose formula the branch repeats word for word. -/
theorem conforms_same {code n : ℕ} (hlength : idParcels.length = n)
    (hcode : (code, n) ∈ [(1, 3), (2, 2), (3, 2), (5, 1), (9, 2), (14, 1), (26, 2), (55, 2),
      (202, 2), (204, 1), (220, 2), (221, 2), (231, 1), (5041, 5), (5172, 1), (5173, 1),
      (5174, 1)]) : Conforms vals invalids now idParcels code := by
  simp only [List.mem_cons, List.not_mem_nil, or_false, Prod.mk.injEq] at hcode
  rcases hcode with ⟨rfl, rfl⟩ | ⟨rfl, rfl⟩ | ⟨rfl, rfl⟩ | ⟨rfl, rfl⟩ | ⟨rfl, rfl⟩ | ⟨rfl, rfl⟩ |
    ⟨rfl, rfl⟩ | ⟨rfl, rfl⟩ | ⟨rfl, rfl⟩ | ⟨rfl, rfl⟩ | ⟨rfl, rfl⟩ | ⟨rfl, rfl⟩ | ⟨rfl, rfl⟩ |
    ⟨rfl, rfl⟩ | ⟨rfl, rfl⟩ | ⟨rfl, rfl⟩ | ⟨rfl, rfl⟩
  all_goals
    refine conforms_fixed hlength rfl ?_ rfl
    simp [sq]

/-- The constant of the current is the documented one to eight digits. -/
theorem current_constant : |577.35027 - 1000 / √3| < (1e-6 : ℝ) := by
  have hsquare : √3 * √3 = (3 : ℝ) := Real.mul_self_sqrt (by norm_num)
  have hlow : 1.7320508074 < √3 := Real.lt_sqrt_of_sq_lt (by norm_num)
  have hhigh : √3 < 1.732050809 := (Real.sqrt_lt' (by norm_num)).mpr (by norm_num)
  have hdiv : 1000 / √3 = 1000 / 3 * √3 := by
    rw [div_eq_iff (by positivity)]
    linarith
  rw [hdiv, abs_lt]
  constructor <;> linarith

/-- The codes documented with runs of parcels and with factors. -/
theorem conforms_runs {code n : ℕ} (hlength : idParcels.length = n)
    (hcode : (code, n) ∈ [(11, 24), (5000, 6), (5043, 9), (5406, 11)]) :
    Conforms vals invalids now idParcels code := by
  simp only [List.mem_cons, List.not_mem_nil, or_false, Prod.mk.injEq] at hcode
  rcases hcode with ⟨rfl, rfl⟩ | ⟨rfl, rfl⟩ | ⟨rfl, rfl⟩ | ⟨rfl, rfl⟩
  all_goals
    refine conforms_fixed hlength rfl ?_ rfl
    simp [sumOf, Finset.sum_Icc_succ_top]
    try ring

/-- The code adds the 23rd and 24th parcels once more than its comment says. -/
theorem conforms_thirteen (hlength : idParcels.length = 34) :
    Conforms vals invalids now idParcels 13 := by
  refine conforms_fixed hlength rfl ?_ rfl
  intro hzero
  simp [sumOf, Finset.sum_Icc_succ_top] at hzero ⊢
  linear_combination hzero

/-- The code adds the second parcel without the factor of its comment. -/
theorem conforms_unscaled (hlength : idParcels.length = 2) :
    Conforms vals invalids now idParcels 5022 := by
  refine conforms_fixed hlength rfl ?_ rfl
  intro hzero
  simp_all

theorem conforms_own {code : ℕ} (hrequires : RequiresOwn code idParcels.length)
    (hne : code = 50 ∨ code = 51 ∨ code = 53 → idParcels ≠ [])
    (hfinite : ∀ e ∈ idParcels, |vals e| ≤ (MaxFloat64 : ℝ)) :
    Conforms vals invalids now idParcels code := by
  unfold RequiresOwn at hrequires
  split at hrequires
  case h_6 | h_7 => exact conforms_choice (hne (by simp)) (by simp)
  case h_9 => exact conforms_span (hne (by simp)) hfinite
  case h_11 => exact conforms_variadic (Or.inr ⟨rfl, hrequires⟩)
  case h_23 => exact conforms_double hrequires
  case h_28 => exact conforms_unscaled hrequires
  case h_30 => exact conforms_measure hrequires
  case h_31 | h_32 | h_33 => exact conforms_range hrequires rfl (by simp) (by simp)
  case h_39 => exact conforms_thirteen hrequires
  case h_40 => exact hrequires.elim
  all_goals first
    | exact conforms_variadic (Or.inl (by decide))
    | exact conforms_same hrequires (by decide)
    | exact conforms_runs hrequires (by decide)

end

/-- Every formula of the switch is calculated from the number of parcels it
requires, and the value and flag written are those of the design: the documented
ones but for the exceptions it lists. -/
theorem formulas_conform (vals : ℤ → ℝ) (invalids : ℤ → Bool) (now : ℝ) (idParcels : List ℤ)
    (id : ℤ) (code : ℕ) (hrequires : Requires code idParcels.length)
    (hne : code = 50 ∨ code = 51 ∨ code = 53 → idParcels ≠ [])
    (hfinite : ∀ e ∈ idParcels, |vals e| ≤ (MaxFloat64 : ℝ)) :
    ∃ val invalid, Written vals invalids now idParcels id code val invalid ∧
      DesignedValue vals invalids now idParcels code val ∧
      DesignedInvalid vals invalids idParcels code invalid := by
  have hconforms : Conforms vals invalids now idParcels code := by
    cases hcode : signedSum code with
    | none =>
      rw [Requires, hcode] at hrequires
      exact conforms_own hrequires hne hfinite
    | some sizes =>
      rw [Requires, hcode] at hrequires
      exact conforms_signedSum hcode hrequires
  obtain ⟨r, hcalc, hok, hval, hinv⟩ := hconforms
  exact ⟨r.val, r.invalid, written_of_calculate hcalc hok, hval, hinv⟩

theorem two_le_MaxFloat64 : (2 : ℝ) ≤ MaxFloat64 := by
  have hpow : (1 : ℝ) ≤ 2 ^ 971 := one_le_pow₀ (by norm_num)
  unfold MaxFloat64
  push_cast
  calc (2 : ℝ) ≤ (2 ^ 53 - 1) * 1 := by norm_num
    _ ≤ (2 ^ 53 - 1) * 2 ^ 971 := mul_le_mul_of_nonneg_left hpow (by norm_num)

/-- The sum of two good parcels over a point that holds nothing. -/
theorem sum_conforms : ∃ val invalid,
    Written (fun _ => 2) (fun _ => false) 0 [1, 2] 9 4 val invalid ∧
      DesignedValue (fun _ => 2) (fun _ => false) 0 [1, 2] 4 val ∧
      DesignedInvalid (fun _ => 2) (fun _ => false) [1, 2] 4 invalid := by
  refine formulas_conform (fun _ => 2) (fun _ => false) 0 [1, 2] 9 4 trivial (by simp) ?_
  intro e _
  rw [abs_of_pos two_pos]
  exact two_le_MaxFloat64

/-- Any ok? is written valid from a valid and an invalid parcel. -/
theorem any_ok_is_valid : ¬∀ (vals : ℤ → ℝ) (invalids : ℤ → Bool) (now : ℝ)
    (idParcels : List ℤ) (id : ℤ) (code : ℕ), Requires code idParcels.length →
      (code = 50 ∨ code = 51 ∨ code = 53 → idParcels ≠ []) →
      (∀ e ∈ idParcels, |vals e| ≤ (MaxFloat64 : ℝ)) →
      Written vals invalids now idParcels id code (documented vals invalids now idParcels code)
        (documentedInvalid vals invalids idParcels code) := by
  intro hclaim
  have hfinite : ∀ e ∈ [(1 : ℤ), 2], |(0 : ℝ)| ≤ (MaxFloat64 : ℝ) := by
    intro e _
    rw [abs_zero]
    exact zero_le_two.trans two_le_MaxFloat64
  obtain ⟨r, hcalc, -, hwritten⟩ := hclaim (fun _ => 0) (fun e => e != 1) 0 [1, 2] 9 52 trivial
    (by simp) hfinite
  -- the first parcel is valid, the second is not
  cases hcalc
  simp [changedUpdate, documentedInvalid] at hwritten

end JsonScada.System.FormulaConformity
