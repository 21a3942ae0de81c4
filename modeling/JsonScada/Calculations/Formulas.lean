/- path: JsonScada/Calculations/Formulas
   source: src/calculations/calculations.go, switch p.calc and the changed-only filter
   digest: The formula engine: one calculated point from its parcels, and the update it writes. -/

import Mathlib.Data.Rat.Defs
import Mathlib.Data.List.Basic

set_option autoImplicit false
set_option relaxedAutoImplicit false

namespace JsonScada.Calculations.Formulas

/-- What the formulas ask of a float64 besides the four operations. The engine
runs them on binary64, the documentation reads them over the reals. -/
class GoFloat (α : Type) where
  const : ℚ → α
  Sqrt : α → α
  Abs : α → α
  less : α → α → Bool
  equal : α → α → Bool

def MaxFloat64 : ℚ := (2 ^ 53 - 1) * 2 ^ 971

/-- The `pointCalc` of a point with a formula. -/
structure PointCalc where
  formula : ℕ
  idParcels : List ℤ
  deriving DecidableEq

/-- The variables one pass of the loop leaves behind. -/
structure Calculation (α : Type) where
  ok : Bool
  val : α
  invalid : Bool
  transient : Bool
  deriving DecidableEq

/-- `sourceDataUpdate` as the engine writes it, without the clock. -/
structure Update (α : Type) where
  valueAtSource : α
  invalidAtSource : Bool
  transientAtSource : Bool
  deriving DecidableEq

section

open GoFloat

variable {α : Type} [Add α] [Sub α] [Mul α] [Div α] [Neg α] [GoFloat α]

def le (a b : α) : Bool := less a b || equal a b

def gt (a b : α) : Bool := less b a

/-- The values before the switch, left by a code that is not in it. -/
def untouched : Calculation α :=
  { ok := false, val := const 0, invalid := true, transient := false }

/-- A branch of fixed length: nothing is calculated from another number of parcels. -/
def fixed (invalids : ℤ → Bool) (idParcels : List ℤ) (n : ℕ) (val : α) (flags : List ℕ) :
    Calculation α :=
  if idParcels.length = n then
    { ok := true
      val := val
      invalid := flags.any fun i => invalids (idParcels.getD i 0)
      transient := false }
  else untouched

/-- Codes 7 and 500. -/
def anyNonzero (vals : ℤ → α) (invalids : ℤ → Bool) (idParcels : List ℤ) :
    Calculation α :=
  { ok := true
    val := idParcels.foldl (fun s e => if !equal (vals e) (const 0) then const 1 else s) (const 0)
    invalid := idParcels.any invalids
    transient := false }

/-- Codes 50 and 51. The loop has no break: each valid parcel replaces the one before. -/
def choice (vals : ℤ → α) (invalids : ℤ → Bool) (idParcels : List ℤ) :
    Option (Calculation α) := do
  let first ← idParcels.head?
  let chosen := idParcels.foldl (fun s e => if !invalids e then (vals e, false) else s)
    (vals first, invalids first)
  some { ok := true, val := chosen.1, invalid := chosen.2, transient := false }

/-- Code 54, double point from two single ones. -/
def double (vals : ℤ → α) (invalids : ℤ → Bool) (idParcels : List ℤ) :
    Option (Calculation α) := do
  let first ← idParcels.head?
  if idParcels.length = 2 then
    let off := vals first
    let on := vals (idParcels.getD 1 0)
    let equalValues := equal off on
    some
      { ok := true
        val :=
          if !equal off (const 0) && equal on (const 0) then const 1
          else if equal off (const 0) && !equal on (const 0) then const 0 else off
        invalid := equalValues || invalids first || invalids (idParcels.getD 1 0)
        transient := equalValues }
  else some { ok := false, val := vals first, invalid := false, transient := false }

/-- The switch on the code of the formula; `none` where it indexes an empty list. -/
def calculate (vals : ℤ → α) (invalids : ℤ → Bool) (now : α) (p : PointCalc) :
    Option (Calculation α) :=
  let c (q : ℚ) : α := const q
  let v (i : ℕ) : α := vals (p.idParcels.getD i 0)
  let indexed (n : ℕ) (val : α) (flags : List ℕ) : Option (Calculation α) :=
    some (fixed invalids p.idParcels n val flags)
  match p.formula with
  -- 577.35027 stands for 1000 / sqrt 3; a voltage that is not positive leaves 0
  | 1 => indexed 3
      (if gt (v 2) (c 0) then
        c 577.35027 * Sqrt (v 0 * v 0 + v 1 * v 1) / v 2 else c 0)
      [0, 1, 2]
  | 2 => indexed 2 (v 0 / Sqrt (v 0 * v 0 + v 1 * v 1)) [0, 1]
  | 3 => indexed 2 (Sqrt (v 0 * v 0 + v 1 * v 1)) [0, 1]
  | 4 => some
      { ok := true
        val := p.idParcels.foldl (fun s e => s + vals e) (c 0)
        invalid := p.idParcels.any invalids
        transient := false }
  | 5 => indexed 1 (Sqrt (v 0)) [0]
  | 6 => some
      { ok := true
        val := p.idParcels.foldl (fun s e => if equal (vals e) (c 0) then c 0 else s) (c 1)
        invalid := p.idParcels.any invalids
        transient := false }
  | 7 => some (anyNonzero vals invalids p.idParcels)
  | 8 => some { ok := true, val := now, invalid := false, transient := false }
  | 9 => indexed 2 (v 0 * v 1 * Sqrt (c 3) / c 1000) [0, 1]
  | 10 => some
      { ok := true
        val := p.idParcels.foldl (fun s e => s - vals e) (c 0)
        invalid := p.idParcels.any invalids
        transient := false }
  | 11 => indexed 24
      (v 0 + v 1 + v 2 + v 3 + v 4 + v 5 + v 6 + v 7 + v 8 + v 9 + v 10 + v 11 + v 12 + v 13 +
        v 14 + v 15 + v 16 + v 17 + v 18 + v 19 + v 20 + v 21 + v 22 + v 23 * c 0.72)
      [0, 1, 2, 3, 4, 5, 6, 7, 8, 9, 10, 11, 12, 13, 14, 15, 16, 17, 18, 19, 20, 21, 22, 23]
  | 13 => indexed 34
      ((v 0 + v 1 + v 2 + v 3 + v 4 + v 5 + v 6 + v 7) - v 8 + v 9 + v 10 + v 11 +
        v 12 * c 0.52 + v 13 + v 14 - (v 15 + v 16) + v 17 + v 18 + v 19 + v 20 + v 21 -
        (v 22 + v 23) + v 22 + v 23 + v 24 + v 25 + v 26 + v 27 + v 28 + v 29 + v 30 + v 31 +
        v 32 + v 33 * c 0.2 - c 1)
      [0, 1, 2, 3, 4, 5, 6, 7, 8, 9, 10, 11, 12, 13, 14, 15, 16, 17, 18, 19, 20, 21, 22, 23, 24,
       25, 26, 27, 28, 29, 30, 31, 32, 33]
  | 14 => indexed 1 ((v 0 * c 10) / c 6) [0]
  | 15 => indexed 2 (v 0 - v 1) [0, 1]
  | 16 => indexed 3 (v 0 - v 1 - v 2) [0, 1, 2]
  | 17 => indexed 4 (v 0 - v 1 - v 2 - v 3) [0, 1, 2, 3]
  | 18 => indexed 6 (v 0 - v 1 - v 2 - v 3 - v 4 - v 5) [0, 1, 2, 3, 4, 5]
  | 19 => indexed 3 (v 0 + v 1 - v 2) [0, 1, 2]
  | 20 => indexed 6 (v 0 + v 1 + v 2 - v 3 - v 4 - v 5) [0, 1, 2, 3, 4, 5]
  | 21 => indexed 9
      (v 0 + v 1 + v 2 + v 3 - v 4 - v 5 - v 6 - v 7 - v 8)
      [0, 1, 2, 3, 4, 5, 6, 7, 8]
  | 22 => indexed 9
      (v 0 + v 1 + v 2 + v 3 + v 4 + v 5 - v 6 - v 7 - v 8)
      [0, 1, 2, 3, 4, 5, 6, 7, 8]
  | 23 => indexed 11
      (v 0 + v 1 + v 2 + v 3 + v 4 + v 5 + v 6 + v 7 + v 8 + v 9 - v 10)
      [0, 1, 2, 3, 4, 5, 6, 7, 8, 9, 10]
  | 24 => indexed 9
      (v 0 + v 1 + v 2 - v 3 - v 4 - v 5 - v 6 - v 7 - v 8)
      [0, 1, 2, 3, 4, 5, 6, 7, 8]
  | 26 => indexed 2
      (if le (Abs (v 0)) (c 0.5) then c 1
        else if gt (Abs (v 0)) (c 1.4) then c 0 else v 1)
      [0, 1]
  | 50 => choice vals invalids p.idParcels
  | 51 => choice vals invalids p.idParcels
  | 52 => some
      { ok := true
        val := p.idParcels.foldl (fun s e => if !invalids e then c 1 else s) (c 0)
        invalid := false
        transient := false }
  | 53 => some
      { ok := true
        val := p.idParcels.foldl (fun s e => if gt (vals e) s then vals e else s)
            (c (-MaxFloat64)) -
          p.idParcels.foldl (fun s e => if less (vals e) s then vals e else s)
            (c MaxFloat64)
        invalid := p.idParcels.any invalids
        transient := false }
  | 54 => double vals invalids p.idParcels
  -- the division by zero is avoided
  | 55 => indexed 2
      (if equal (v 1) (c 0) then
        if equal (v 0) (c 0) then c 0
        else if gt (v 0) (c 0) then c MaxFloat64 else c (-MaxFloat64)
      else v 0 / v 1)
      [0, 1]
  | 200 => indexed 8 (v 0 - v 1 - v 2 - v 3 - v 4 - v 5 - v 6 - v 7) [0, 1, 2, 3, 4, 5, 6, 7]
  | 201 => indexed 11
      (v 0 + v 1 + v 2 + v 3 + v 4 + v 5 + v 6 + v 7 - v 8 - v 9 - v 10)
      [0, 1, 2, 3, 4, 5, 6, 7, 8, 9, 10]
  | 202 => indexed 2 (v 0 * c 60 + v 1) [0, 1]
  | 203 =>
      if equal (v 0) (c 0) then indexed 3 (v 1) [1] else indexed 3 (v 2) [2]
  | 204 => indexed 1 (v 0 / c 2) [0]
  | 205 => indexed 5 (v 0 + v 1 - v 2 - v 3 - v 4) [0, 1, 2, 3, 4]
  | 206 => indexed 9
      (v 0 - v 1 - v 2 - v 3 - v 4 - v 5 - v 6 - v 7 - v 8)
      [0, 1, 2, 3, 4, 5, 6, 7, 8]
  | 207 => indexed 6 (v 0 + v 1 - v 2 - v 3 - v 4 - v 5) [0, 1, 2, 3, 4, 5]
  | 208 => indexed 5 (v 0 - v 1 - v 2 - v 3 - v 4) [0, 1, 2, 3, 4]
  | 209 => indexed 9
      (v 0 + v 1 - v 2 - v 3 - v 4 - v 5 - v 6 - v 7 - v 8)
      [0, 1, 2, 3, 4, 5, 6, 7, 8]
  | 210 => indexed 7 (v 0 - v 1 - v 2 - v 3 - v 4 - v 5 - v 6) [0, 1, 2, 3, 4, 5, 6]
  | 211 => indexed 9
      (v 0 + v 1 + v 2 + v 3 + v 4 - v 5 - v 6 - v 7 - v 8)
      [0, 1, 2, 3, 4, 5, 6, 7, 8]
  | 213 => indexed 4 (v 0 + v 1 + v 2 - v 3) [0, 1, 2, 3]
  | 214 => indexed 5 (v 0 + v 1 + v 2 + v 3 - v 4) [0, 1, 2, 3, 4]
  | 215 => indexed 4 (v 0 + v 1 - v 2 - v 3) [0, 1, 2, 3]
  | 216 => indexed 3 (if le (v 1) (v 0) && le (v 0) (v 2) then c 1 else c 0) [0]
  | 217 => indexed 6 (v 0 + v 1 + v 2 + v 3 + v 4 - v 5) [0, 1, 2, 3, 4, 5]
  | 218 => indexed 3 (if less (v 1) (v 0) && le (v 0) (v 2) then c 1 else c 0) [0]
  | 219 => indexed 3 (if le (v 1) (v 0) && less (v 0) (v 2) then c 1 else c 0) [0]
  | 220 => indexed 2 (if less (v 1) (v 0) then v 1 else v 0) [0, 1]
  | 221 => indexed 2 (if gt (v 1) (v 0) then v 1 else v 0) [0, 1]
  | 222 => indexed 7 (v 0 + v 1 + v 2 - v 3 - v 4 - v 5 - v 6) [0, 1, 2, 3, 4, 5, 6]
  | 223 => indexed 8 (v 0 + v 1 + v 2 - v 3 - v 4 - v 5 - v 6 - v 7) [0, 1, 2, 3, 4, 5, 6, 7]
  | 224 => indexed 7 (v 0 + v 1 + v 2 + v 3 + v 4 + v 5 - v 6) [0, 1, 2, 3, 4, 5, 6]
  | 225 => some
      (if p.idParcels.length ≤ 1 then
        { ok := true, val := c 1, invalid := false, transient := false }
      else untouched)
  | 226 => indexed 8 (v 0 + v 1 - v 2 - v 3 - v 4 - v 5 - v 6 - v 7) [0, 1, 2, 3, 4, 5, 6, 7]
  | 227 => indexed 5 (v 0 + v 1 + v 2 - v 3 - v 4) [0, 1, 2, 3, 4]
  | 228 => indexed 12
      (v 0 + v 1 + v 2 - v 3 - v 4 - v 5 - v 6 - v 7 - v 8 - v 9 - v 10 - v 11)
      [0, 1, 2, 3, 4, 5, 6, 7, 8, 9, 10, 11]
  | 229 => indexed 12
      (v 0 + v 1 + v 2 + v 3 + v 4 + v 5 + v 6 + v 7 + v 8 - v 9 - v 10 - v 11)
      [0, 1, 2, 3, 4, 5, 6, 7, 8, 9, 10, 11]
  | 230 => indexed 10
      (v 0 + v 1 + v 2 + v 3 + v 4 + v 5 + v 6 + v 7 + v 8 - v 9)
      [0, 1, 2, 3, 4, 5, 6, 7, 8, 9]
  | 231 => indexed 1 (if gt (v 0) (c 0) then c 0 else v 0) [0]
  | 232 => indexed 8 (v 0 + v 1 + v 2 + v 3 + v 4 - v 5 - v 6 - v 7) [0, 1, 2, 3, 4, 5, 6, 7]
  | 233 => indexed 11
      (v 0 + v 1 + v 2 + v 3 + v 4 + v 5 + v 6 - v 7 - v 8 - v 9 - v 10)
      [0, 1, 2, 3, 4, 5, 6, 7, 8, 9, 10]
  | 500 => some (anyNonzero vals invalids p.idParcels)
  | 680 => indexed 5 (v 0 + v 1 + v 2 - v 3 - v 4) [0, 1, 2, 3, 4]
  | 5000 => indexed 6 (v 0 + v 1 + v 2 - v 3 - c 0.6 * v 4 + v 5) [0, 1, 2, 3, 4, 5]
  | 5022 => indexed 2 (v 0 + v 1) [0, 1]
  | 5041 => indexed 5 (v 0 + v 1 - v 2 + v 3 - v 4) [0, 1, 2, 3, 4]
  | 5043 => indexed 9
      (v 0 + v 1 + v 2 + v 3 - v 4 - v 5 + v 6 - v 7 - v 8)
      [0, 1, 2, 3, 4, 5, 6, 7, 8]
  | 5172 => indexed 1 (c (-0.72) * v 0) [0]
  | 5173 => indexed 1 (c 0.38 * v 0) [0]
  | 5174 => indexed 1 (c 0.14 * v 0) [0]
  | 5406 => indexed 11
      (-v 0 + v 1 + v 2 + v 3 + v 4 + v 5 - v 6 - v 7 + v 8 + v 9 + v 10)
      [0, 1, 2, 3, 4, 5, 6, 7, 8, 9, 10]
  | 5711 => indexed 4 (-v 0 - v 1 - v 2 - v 3) [0, 1, 2, 3]
  | 7374 => indexed 12
      (v 0 - v 1 - v 2 - v 3 - v 4 - v 5 - v 6 - v 7 - v 8 - v 9 - v 10 - v 11)
      [0, 1, 2, 3, 4, 5, 6, 7, 8, 9, 10, 11]
  | 8055 => indexed 8 (v 0 + v 1 - v 2 - v 3 - v 4 - v 5 - v 6 - v 7) [0, 1, 2, 3, 4, 5, 6, 7]
  | 25673 => indexed 2 (v 0 - v 1) [0, 1]
  | _ => some untouched

/-- Accumulates an update for changed data. -/
def changedUpdate (vals : ℤ → α) (invalids : ℤ → Bool) (id : ℤ) (r : Calculation α) :
    Option (Update α) :=
  if r.ok && (!equal r.val (vals id) || r.invalid != invalids id) then
    some
      { valueAtSource := r.val
        invalidAtSource := r.invalid
        transientAtSource := r.transient }
  else none

end

end JsonScada.Calculations.Formulas
