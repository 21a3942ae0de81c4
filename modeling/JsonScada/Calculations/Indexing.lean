/- path: JsonScada/Calculations/Indexing
   source: src/calculations/calculations.go, calcs table, switch p.calc and main cycle
   digest: The switch with every index of the parcels checked, as the running process does. -/

import JsonScada.Calculations.Engine

set_option autoImplicit false
set_option relaxedAutoImplicit false

namespace JsonScada.Calculations.Indexing

open JsonScada.Lib.Binary64 JsonScada.Calculations.Formulas JsonScada.Calculations.Engine

/-- The value of an expression, none where it indexes beyond the list and panics. -/
def Checked (α : Type) : Type := Option α

namespace Checked

variable {α : Type}

instance : Monad Checked := inferInstanceAs (Monad Option)

instance [Add α] : Add (Checked α) := ⟨fun a b => do return (← a) + (← b)⟩

instance [Sub α] : Sub (Checked α) := ⟨fun a b => do return (← a) - (← b)⟩

instance [Mul α] : Mul (Checked α) := ⟨fun a b => do return (← a) * (← b)⟩

instance [Div α] : Div (Checked α) := ⟨fun a b => do return (← a) / (← b)⟩

instance [Neg α] : Neg (Checked α) := ⟨fun a => do return -(← a)⟩

variable [GoFloat α]

def const (q : ℚ) : Checked α := pure (GoFloat.const q)

def Sqrt (a : Checked α) : Checked α := do return GoFloat.Sqrt (← a)

def Abs (a : Checked α) : Checked α := do return GoFloat.Abs (← a)

def less (a b : Checked α) : Checked Bool := do return GoFloat.less (← a) (← b)

def equal (a b : Checked α) : Checked Bool := do return GoFloat.equal (← a) (← b)

def le (a b : Checked α) : Checked Bool := do return Formulas.le (← a) (← b)

def gt (a b : Checked α) : Checked Bool := do return Formulas.gt (← a) (← b)

omit [GoFloat α]

/-- `&&` reads its right side only when the left one holds. -/
def and (a b : Checked Bool) : Checked Bool := do if ← a then b else return false

/-- One branch only is executed. -/
def ifElse (c : Checked Bool) (a b : Checked α) : Checked α := do if ← c then a else b

end Checked

section Branches

open Checked

variable {α : Type} {vals : ℤ → α} {invalids : ℤ → Bool} {idParcels : List ℤ} {n : ℕ}

/-- `vals[p.idParcels[i]]` -/
def read (vals : ℤ → α) (idParcels : List ℤ) (i : ℕ) : Checked α := idParcels[i]?.map vals

/-- `invalids[p.idParcels[i]] || ...`, from left to right up to the first that is. -/
def anyInvalid (invalids : ℤ → Bool) (idParcels : List ℤ) : List ℕ → Checked Bool
  | [] => pure false
  | i :: flags => do
    if ← read invalids idParcels i then return true else anyInvalid invalids idParcels flags

/-- Inside the list an index yields its parcel. -/
theorem read_eq (vals : ℤ → α) (h : idParcels.length = n) : read vals idParcels =
    fun i => if i < n then pure (vals (idParcels.getD i 0)) else (none : Option α) := by
  funext i
  rw [read]
  split_ifs with hi
  · have hlt : i < idParcels.length := by omega
    rw [List.getElem?_eq_getElem hlt, List.getD_eq_getElem _ _ hlt]
    rfl
  · have hge : idParcels.length ≤ i := by omega
    rw [List.getElem?_eq_none hge]
    rfl

theorem anyInvalid_eq {flags : List ℕ} (h : idParcels.length = n) (hflags : ∀ i ∈ flags, i < n) :
    anyInvalid invalids idParcels flags =
      pure (flags.any fun i => invalids (idParcels.getD i 0)) := by
  induction flags with
  | nil => rfl
  | cons i flags ih =>
    have hi : i < n := hflags i List.mem_cons_self
    have hrest := ih fun j hj => hflags j (List.mem_cons_of_mem i hj)
    have hread : read invalids idParcels i =
        (pure (invalids (idParcels.getD i 0)) : Checked Bool) := by
      rw [read_eq invalids h]
      exact if_pos hi
    rw [anyInvalid, hread, hrest, List.any_cons]
    cases invalids (idParcels.getD i 0) <;> rfl

/-- Codes 50 and 51. -/
def pick (vals : ℤ → α) (invalids : ℤ → Bool) (idParcels : List ℤ) : Checked (Calculation α) := do
  let invalid ← read invalids idParcels 0
  let val ← read vals idParcels 0
  let chosen := idParcels.foldl (fun s e => if !invalids e then (vals e, false) else s)
    (val, invalid)
  return { ok := true, val := chosen.1, invalid := chosen.2, transient := false }

theorem pick_eq : pick vals invalids idParcels = choice vals invalids idParcels := by
  cases idParcels <;> rfl

theorem ifElse_pure (b : Bool) (x y : α) :
    ifElse (pure b) (pure x) (pure y) = (pure (if b then x else y) : Checked α) := by
  cases b <;> rfl

theorem and_pure (a b : Bool) : (pure a : Checked Bool).and (pure b) = pure (a && b) := by
  cases a <;> rfl

variable [GoFloat α]

/-- The branches guarded by the number of parcels. -/
def branch (invalids : ℤ → Bool) (idParcels : List ℤ) (n : ℕ) (val : Checked α)
    (flags : List ℕ) : Checked (Calculation α) :=
  if idParcels.length = n then do
    return { ok := true, val := ← val, invalid := ← anyInvalid invalids idParcels flags,
             transient := false }
  else return untouched

/-- A guarded branch whose indexes are below its number of parcels. -/
theorem branch_eq {val : Checked α} {x : α} {flags : List ℕ}
    (hval : idParcels.length = n → val = (pure x : Checked α)) (hflags : ∀ i ∈ flags, i < n) :
    branch invalids idParcels n val flags =
      (pure (fixed invalids idParcels n x flags) : Checked (Calculation α)) := by
  rw [branch, fixed]
  split_ifs with h
  · rw [hval h, anyInvalid_eq h hflags]
    rfl
  · rfl

/-- Code 54 reads the first parcel before it counts them. -/
def doublePoint (vals : ℤ → α) (invalids : ℤ → Bool) (idParcels : List ℤ) :
    Checked (Calculation α) := do
  let off ← read vals idParcels 0
  if idParcels.length = 2 then
    let on ← read vals idParcels 1
    let equalValues := GoFloat.equal off on
    let invalid ← anyInvalid invalids idParcels [0, 1]
    return {
      ok := true
      val :=
        if !GoFloat.equal off (GoFloat.const 0) && GoFloat.equal on (GoFloat.const 0) then
          GoFloat.const 1
        else if GoFloat.equal off (GoFloat.const 0) && !GoFloat.equal on (GoFloat.const 0) then
          GoFloat.const 0
        else off
      invalid := equalValues || invalid
      transient := equalValues }
  else return { ok := false, val := off, invalid := false, transient := false }

theorem doublePoint_eq : doublePoint vals invalids idParcels = double vals invalids idParcels := by
  cases idParcels with
  | nil => rfl
  | cons first rest =>
    by_cases hlength : (first :: rest).length = 2
    · obtain ⟨second, rfl⟩ : ∃ second, rest = [second] :=
        List.length_eq_one_iff.mp (by simpa using hlength)
      have hany := @anyInvalid_eq invalids [first, second] 2 [0, 1] rfl (by decide)
      rw [doublePoint, hany]
      change some _ = some _
      simp [Bool.or_assoc]
    · have hchecked : doublePoint vals invalids (first :: rest) =
          some { ok := false, val := vals first, invalid := false, transient := false } :=
        if_neg hlength
      have hdouble : double vals invalids (first :: rest) =
          some { ok := false, val := vals first, invalid := false, transient := false } :=
        if_neg hlength
      rw [hchecked, hdouble]

end Branches

section Switch

open Checked

variable {α : Type} [Add α] [Sub α] [Mul α] [Div α] [Neg α] [GoFloat α]

/-- The switch, its indexes checked. -/
def calculateChecked (vals : ℤ → α) (invalids : ℤ → Bool) (now : α) (p : PointCalc) :
    Checked (Calculation α) :=
  let c (q : ℚ) : Checked α := const q
  let v := read vals p.idParcels
  let indexed := @branch α _ invalids p.idParcels
  match p.formula with
  | 1 => indexed 3
      (ifElse (gt (v 2) (c 0)) (c 577.35027 * Sqrt (v 0 * v 0 + v 1 * v 1) / v 2) (c 0)) [0, 1, 2]
  | 2 => indexed 2 (v 0 / Sqrt (v 0 * v 0 + v 1 * v 1)) [0, 1]
  | 3 => indexed 2 (Sqrt (v 0 * v 0 + v 1 * v 1)) [0, 1]
  | 5 => indexed 1 (Sqrt (v 0)) [0]
  | 9 => indexed 2 (v 0 * v 1 * Sqrt (c 3) / c 1000) [0, 1]
  | 11 => indexed 24
      (v 0 + v 1 + v 2 + v 3 + v 4 + v 5 + v 6 + v 7 + v 8 + v 9 + v 10 + v 11 + v 12 + v 13 +
        v 14 + v 15 + v 16 + v 17 + v 18 + v 19 + v 20 + v 21 + v 22 + v 23 * c 0.72)
      [0, 1, 2, 3, 4, 5, 6, 7, 8, 9, 10, 11, 12, 13, 14, 15, 16, 17, 18, 19, 20, 21, 22, 23]
  | 13 => indexed 34
      ((v 0 + v 1 + v 2 + v 3 + v 4 + v 5 + v 6 + v 7) - v 8 + v 9 + v 10 + v 11 +
        v 12 * c 0.52 + v 13 + v 14 - (v 15 + v 16) + v 17 + v 18 + v 19 + v 20 + v 21 -
        (v 22 + v 23) + v 22 + v 23 + v 24 + v 25 + v 26 + v 27 + v 28 + v 29 + v 30 + v 31 +
        v 32 + v 33 * c 0.2 - c 1)
      [0, 1, 2, 3, 4, 5, 6, 7, 8, 9, 10, 11, 12, 13, 14, 15, 16, 17, 18, 19, 20, 21, 22, 23, 24,
       25, 26, 27, 28, 29, 30, 31, 32, 33]
  | 14 => indexed 1 ((v 0 * c 10) / c 6) [0]
  | 15 => indexed 2 (v 0 - v 1) [0, 1]
  | 16 => indexed 3 (v 0 - v 1 - v 2) [0, 1, 2]
  | 17 => indexed 4 (v 0 - v 1 - v 2 - v 3) [0, 1, 2, 3]
  | 18 => indexed 6 (v 0 - v 1 - v 2 - v 3 - v 4 - v 5) [0, 1, 2, 3, 4, 5]
  | 19 => indexed 3 (v 0 + v 1 - v 2) [0, 1, 2]
  | 20 => indexed 6 (v 0 + v 1 + v 2 - v 3 - v 4 - v 5) [0, 1, 2, 3, 4, 5]
  | 21 => indexed 9
      (v 0 + v 1 + v 2 + v 3 - v 4 - v 5 - v 6 - v 7 - v 8)
      [0, 1, 2, 3, 4, 5, 6, 7, 8]
  | 22 => indexed 9
      (v 0 + v 1 + v 2 + v 3 + v 4 + v 5 - v 6 - v 7 - v 8)
      [0, 1, 2, 3, 4, 5, 6, 7, 8]
  | 23 => indexed 11
      (v 0 + v 1 + v 2 + v 3 + v 4 + v 5 + v 6 + v 7 + v 8 + v 9 - v 10)
      [0, 1, 2, 3, 4, 5, 6, 7, 8, 9, 10]
  | 24 => indexed 9
      (v 0 + v 1 + v 2 - v 3 - v 4 - v 5 - v 6 - v 7 - v 8)
      [0, 1, 2, 3, 4, 5, 6, 7, 8]
  | 26 => indexed 2
      (do
        let res ← v 1
        ifElse (le (Abs (v 0)) (c 0.5)) (c 1) (ifElse (gt (Abs (v 0)) (c 1.4)) (c 0) (pure res)))
      [0, 1]
  | 50 => pick vals invalids p.idParcels
  | 51 => pick vals invalids p.idParcels
  | 54 => doublePoint vals invalids p.idParcels
  | 55 => indexed 2
      (ifElse (equal (v 1) (c 0))
        (ifElse (equal (v 0) (c 0)) (c 0)
          (ifElse (gt (v 0) (c 0)) (c MaxFloat64) (c (-MaxFloat64))))
        (v 0 / v 1))
      [0, 1]
  | 200 => indexed 8 (v 0 - v 1 - v 2 - v 3 - v 4 - v 5 - v 6 - v 7) [0, 1, 2, 3, 4, 5, 6, 7]
  | 201 => indexed 11
      (v 0 + v 1 + v 2 + v 3 + v 4 + v 5 + v 6 + v 7 - v 8 - v 9 - v 10)
      [0, 1, 2, 3, 4, 5, 6, 7, 8, 9, 10]
  | 202 => indexed 2 (v 0 * c 60 + v 1) [0, 1]
  | 203 =>
      if p.idParcels.length = 3 then
        ifElse (equal (v 0) (c 0)) (indexed 3 (v 1) [1]) (indexed 3 (v 2) [2])
      else return untouched
  | 204 => indexed 1 (v 0 / c 2) [0]
  | 205 => indexed 5 (v 0 + v 1 - v 2 - v 3 - v 4) [0, 1, 2, 3, 4]
  | 206 => indexed 9
      (v 0 - v 1 - v 2 - v 3 - v 4 - v 5 - v 6 - v 7 - v 8)
      [0, 1, 2, 3, 4, 5, 6, 7, 8]
  | 207 => indexed 6 (v 0 + v 1 - v 2 - v 3 - v 4 - v 5) [0, 1, 2, 3, 4, 5]
  | 208 => indexed 5 (v 0 - v 1 - v 2 - v 3 - v 4) [0, 1, 2, 3, 4]
  | 209 => indexed 9
      (v 0 + v 1 - v 2 - v 3 - v 4 - v 5 - v 6 - v 7 - v 8)
      [0, 1, 2, 3, 4, 5, 6, 7, 8]
  | 210 => indexed 7 (v 0 - v 1 - v 2 - v 3 - v 4 - v 5 - v 6) [0, 1, 2, 3, 4, 5, 6]
  | 211 => indexed 9
      (v 0 + v 1 + v 2 + v 3 + v 4 - v 5 - v 6 - v 7 - v 8)
      [0, 1, 2, 3, 4, 5, 6, 7, 8]
  | 213 => indexed 4 (v 0 + v 1 + v 2 - v 3) [0, 1, 2, 3]
  | 214 => indexed 5 (v 0 + v 1 + v 2 + v 3 - v 4) [0, 1, 2, 3, 4]
  | 215 => indexed 4 (v 0 + v 1 - v 2 - v 3) [0, 1, 2, 3]
  | 216 => indexed 3 (ifElse ((le (v 1) (v 0)).and (le (v 0) (v 2))) (c 1) (c 0)) [0]
  | 217 => indexed 6 (v 0 + v 1 + v 2 + v 3 + v 4 - v 5) [0, 1, 2, 3, 4, 5]
  | 218 => indexed 3 (ifElse ((less (v 1) (v 0)).and (le (v 0) (v 2))) (c 1) (c 0)) [0]
  | 219 => indexed 3 (ifElse ((le (v 1) (v 0)).and (less (v 0) (v 2))) (c 1) (c 0)) [0]
  | 220 => indexed 2 (ifElse (less (v 1) (v 0)) (v 1) (v 0)) [0, 1]
  | 221 => indexed 2 (ifElse (gt (v 1) (v 0)) (v 1) (v 0)) [0, 1]
  | 222 => indexed 7 (v 0 + v 1 + v 2 - v 3 - v 4 - v 5 - v 6) [0, 1, 2, 3, 4, 5, 6]
  | 223 => indexed 8 (v 0 + v 1 + v 2 - v 3 - v 4 - v 5 - v 6 - v 7) [0, 1, 2, 3, 4, 5, 6, 7]
  | 224 => indexed 7 (v 0 + v 1 + v 2 + v 3 + v 4 + v 5 - v 6) [0, 1, 2, 3, 4, 5, 6]
  | 226 => indexed 8 (v 0 + v 1 - v 2 - v 3 - v 4 - v 5 - v 6 - v 7) [0, 1, 2, 3, 4, 5, 6, 7]
  | 227 => indexed 5 (v 0 + v 1 + v 2 - v 3 - v 4) [0, 1, 2, 3, 4]
  | 228 => indexed 12
      (v 0 + v 1 + v 2 - v 3 - v 4 - v 5 - v 6 - v 7 - v 8 - v 9 - v 10 - v 11)
      [0, 1, 2, 3, 4, 5, 6, 7, 8, 9, 10, 11]
  | 229 => indexed 12
      (v 0 + v 1 + v 2 + v 3 + v 4 + v 5 + v 6 + v 7 + v 8 - v 9 - v 10 - v 11)
      [0, 1, 2, 3, 4, 5, 6, 7, 8, 9, 10, 11]
  | 230 => indexed 10
      (v 0 + v 1 + v 2 + v 3 + v 4 + v 5 + v 6 + v 7 + v 8 - v 9)
      [0, 1, 2, 3, 4, 5, 6, 7, 8, 9]
  | 231 => indexed 1 (ifElse (gt (v 0) (c 0)) (c 0) (v 0)) [0]
  | 232 => indexed 8 (v 0 + v 1 + v 2 + v 3 + v 4 - v 5 - v 6 - v 7) [0, 1, 2, 3, 4, 5, 6, 7]
  | 233 => indexed 11
      (v 0 + v 1 + v 2 + v 3 + v 4 + v 5 + v 6 - v 7 - v 8 - v 9 - v 10)
      [0, 1, 2, 3, 4, 5, 6, 7, 8, 9, 10]
  | 680 => indexed 5 (v 0 + v 1 + v 2 - v 3 - v 4) [0, 1, 2, 3, 4]
  | 5000 => indexed 6 (v 0 + v 1 + v 2 - v 3 - c 0.6 * v 4 + v 5) [0, 1, 2, 3, 4, 5]
  | 5022 => indexed 2 (v 0 + v 1) [0, 1]
  | 5041 => indexed 5 (v 0 + v 1 - v 2 + v 3 - v 4) [0, 1, 2, 3, 4]
  | 5043 => indexed 9
      (v 0 + v 1 + v 2 + v 3 - v 4 - v 5 + v 6 - v 7 - v 8)
      [0, 1, 2, 3, 4, 5, 6, 7, 8]
  | 5172 => indexed 1 (c (-0.72) * v 0) [0]
  | 5173 => indexed 1 (c 0.38 * v 0) [0]
  | 5174 => indexed 1 (c 0.14 * v 0) [0]
  | 5406 => indexed 11
      (-v 0 + v 1 + v 2 + v 3 + v 4 + v 5 - v 6 - v 7 + v 8 + v 9 + v 10)
      [0, 1, 2, 3, 4, 5, 6, 7, 8, 9, 10]
  | 5711 => indexed 4 (-v 0 - v 1 - v 2 - v 3) [0, 1, 2, 3]
  | 7374 => indexed 12
      (v 0 - v 1 - v 2 - v 3 - v 4 - v 5 - v 6 - v 7 - v 8 - v 9 - v 10 - v 11)
      [0, 1, 2, 3, 4, 5, 6, 7, 8, 9, 10, 11]
  | 8055 => indexed 8 (v 0 + v 1 - v 2 - v 3 - v 4 - v 5 - v 6 - v 7) [0, 1, 2, 3, 4, 5, 6, 7]
  | 25673 => indexed 2 (v 0 - v 1) [0, 1]
  -- loops over the parcels, the clock, and codes that are not there index nothing
  | _ => calculate vals invalids now p

variable {vals : ℤ → α} {invalids : ℤ → Bool} {now : α}

/-- With its indexes checked the switch gives the same, none for the same points. -/
theorem calculateChecked_eq (p : PointCalc) :
    calculateChecked vals invalids now p = calculate vals invalids now p := by
  obtain ⟨formula, idParcels⟩ := p
  fun_cases calculateChecked vals invalids now ⟨formula, idParcels⟩
  all_goals try subst_vars
  case case20 | case21 => exact pick_eq
  case case22 => exact doublePoint_eq
  case case70 => rfl
  all_goals try dsimp +zetaDelta only
  case case1 | case44 | case45 | case54 =>
    exact branch_eq (fun h => by rw [read_eq vals h]; exact ifElse_pure _ _ _) (by decide)
  case case40 | case42 | case43 =>
    refine branch_eq (fun h => ?_) (by decide)
    rw [read_eq vals h]
    exact (congrArg (fun b => ifElse b _ _) (and_pure _ _)).trans (ifElse_pure _ _ _)
  case case19 =>
    refine branch_eq (fun h => ?_) (by decide)
    rw [read_eq vals h]
    exact (congrArg (ifElse _ _) (ifElse_pure _ _ _)).trans (ifElse_pure _ _ _)
  case case23 =>
    refine branch_eq (fun h => ?_) (by decide)
    rw [read_eq vals h]
    change ifElse (pure _) (ifElse (pure _) (pure _) (ifElse (pure _) (pure _) (pure _))) (pure _) = _
    rw [ifElse_pure, ifElse_pure, ifElse_pure]
  case case27 h =>
    have hequal : (read vals idParcels 0).equal (const 0) =
        pure (GoFloat.equal (vals (idParcels.getD 0 0)) (GoFloat.const 0)) := by
      rw [read_eq vals h]
      rfl
    have hbranch : ∀ i < 3, branch invalids idParcels 3 (read vals idParcels i) [i] =
        (pure (fixed invalids idParcels 3 (vals (idParcels.getD i 0)) [i]) :
          Checked (Calculation α)) := by
      intro i hi
      refine branch_eq (fun h => ?_) (by simpa using hi)
      rw [read_eq vals h]
      exact if_pos hi
    rw [hequal, hbranch 1 (by omega), hbranch 2 (by omega), ifElse_pure]
    change some _ = if GoFloat.equal (vals (idParcels.getD 0 0)) (GoFloat.const 0) then some _
      else some _
    split_ifs <;> rfl
  case case28 h =>
    have hfixed : ∀ (val : α) (flags : List ℕ),
        fixed invalids idParcels 3 val flags = untouched := fun val flags => if_neg h
    change some _ = if GoFloat.equal (vals (idParcels.getD 0 0)) (GoFloat.const 0) then some _
      else some _
    rw [hfixed, hfixed]
    split_ifs <;> rfl
  all_goals exact branch_eq (fun h => by rw [read_eq vals h]; rfl) (by decide)

end Switch

section Cycle

/-- A document of the query for calculated points. -/
structure RealtimeDataForm where
  ID : ℤ
  FORMULA : ℤ
  PARCELS : List ℤ
  deriving DecidableEq

/-- The calcs table, made of the documents with a positive formula in the order they come. -/
def readCalcs (cur : List RealtimeDataForm) : Calcs :=
  (cur.filter fun elem => 0 < elem.FORMULA).foldl (fun calcs elem id =>
    if id = elem.ID then some ⟨elem.FORMULA.toNat, elem.PARCELS⟩ else calcs id) fun _ => none

/-- The loop over all calcs with the indexes checked; a panic ends the process. -/
def opersChecked (calcs : Calcs) (docs : Docs) (now : Number) :
    List ℤ → Checked (List (ℤ × Update Number))
  | [] => pure []
  | id :: ids => do
    let p ← (calcs id : Checked PointCalc)
    let r ← calculateChecked (vals docs) (invalids docs) now p
    let rest ← opersChecked calcs docs now ids
    match changedUpdate (vals docs) (invalids docs) id r with
    | some u => return (id, u) :: rest
    | none => return rest

variable {calcs : Calcs} {docs : Docs} {now : Number} {ids : List ℤ}

theorem opersChecked_eq : opersChecked calcs docs now ids = opers calcs docs now ids := by
  induction ids with
  | nil => rfl
  | cons id ids ih =>
    rw [opersChecked, opers]
    cases calcs id with
    | none => rfl
    | some p =>
      have hcalc := @calculateChecked_eq Number _ _ _ _ _ _ (vals docs) (invalids docs) now p
      change Option.bind (calculateChecked _ _ _ p) _ = Option.bind (calculate _ _ _ p) _
      rw [hcalc, ih]
      rfl

/-- A point whose code reads its first parcel before it counts them, and has none. -/
def LacksParcel (p : PointCalc) : Prop := p.formula ∈ [50, 51, 54] ∧ p.idParcels = []

/-- A cycle over all points, in whatever order the map yields them, indexes only inside the
lists exactly where no point lacks the parcel its code takes for granted. -/
theorem completes_iff (cur : List RealtimeDataForm) (docs : Docs) (now : Number)
    (h : Enumerates (readCalcs cur) ids) :
    (∃ written, opersChecked (readCalcs cur) docs now ids = some written) ↔
      ∀ id p, readCalcs cur id = some p → ¬ LacksParcel p := by
  rw [opersChecked_eq]
  constructor
  · rintro ⟨written, hwritten⟩ id p hp hlacks
    have hid : id ∈ ids := (h.2 id).mpr (by rw [hp]; rfl)
    obtain ⟨p', r, hp', hr⟩ := calculate_of_opers hwritten hid
    obtain rfl := Option.some.inj (hp.symm.trans hp')
    rw [calculate_eq_none.mpr hlacks] at hr
    cases hr
  · intro hall
    refine opers_isSome fun id hid => ?_
    obtain ⟨p, hp⟩ := Option.isSome_iff_exists.mp ((h.2 id).mp hid)
    have hne : calculate (vals docs) (invalids docs) now p ≠ none := fun hnone =>
      hall id p hp (calculate_eq_none.mp hnone)
    obtain ⟨r, hr⟩ := Option.ne_none_iff_exists'.mp hne
    exact ⟨p, r, hp, hr⟩

end Cycle

section Example

theorem enumerates_single (elem : RealtimeDataForm) (h : 0 < elem.FORMULA) :
    Enumerates (readCalcs [elem]) [elem.ID] := by
  refine ⟨List.nodup_singleton _, fun id => ?_⟩
  by_cases hid : id = elem.ID <;> simp [readCalcs, h, hid]

/-- A choice between two parcels that do not exist is calculated. -/
theorem choice_completes :
    ∃ written, opersChecked (readCalcs [⟨7, 50, [1, 2]⟩]) (fun _ => none) (.fin 0) [7] =
      some written := by
  refine (completes_iff [⟨7, 50, [1, 2]⟩] _ _ (enumerates_single ⟨7, 50, [1, 2]⟩ (by decide))).mpr ?_
  rintro id p hp ⟨-, hnil⟩
  by_cases hid : id = 7
  · subst hid
    obtain rfl : ⟨50, [1, 2]⟩ = p := Option.some.inj hp
    cases hnil
  · simp [readCalcs, hid] at hp

/-- A double point without parcels ends the process. -/
theorem empty_parcels_panic :
    Enumerates (readCalcs [⟨7, 54, []⟩]) [7] ∧
      opersChecked (readCalcs [⟨7, 54, []⟩]) (fun _ => none) (.fin 0) [7] = none :=
  ⟨enumerates_single ⟨7, 54, []⟩ (by decide), rfl⟩

end Example

end JsonScada.Calculations.Indexing
