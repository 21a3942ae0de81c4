/- path: JsonScada/Lib/FloatArith
   layer: library
   digest: Division and square root of doubles, and the doubles closed under arithmetic. -/

import JsonScada.Lib.Single

set_option autoImplicit false
set_option relaxedAutoImplicit false

namespace JsonScada.Lib.Binary64

namespace Number

/-- Division. The zero, which has no sign here, divides as the positive one. -/
def div : Number → Number → Number
  | nan, _ => nan
  | _, nan => nan
  | inf _, inf _ => nan
  | inf s, fin q => inf (s != decide (q < 0))
  | fin _, inf _ => fin 0
  | fin a, fin b =>
    if b = 0 then if a = 0 then nan else inf (decide (a < 0))
    else Binary64.round binary64 (a / b)

/-- A rational on the same side as the square root of `q` of every number that is
rounded to or from: the root to 1200 binary places, and half a place more if it is
not exact. -/
def rootApproximation (q : ℚ) : ℚ :=
  let scaled := q * 4 ^ 1200
  let n := Nat.sqrt ⌊scaled⌋₊
  (if (n : ℚ) ^ 2 = scaled then (n : ℚ) else n + 1 / 2) / 2 ^ 1200

def sqrt : Number → Number
  | nan => nan
  | inf neg => if neg then nan else inf false
  | fin q => if q < 0 then nan else Binary64.round binary64 (rootApproximation q)

instance : Add Number := ⟨add⟩

instance : Sub Number := ⟨sub⟩

instance : Mul Number := ⟨mul⟩

instance : Div Number := ⟨div⟩

instance : Neg Number := ⟨neg⟩

end Number

/-- The value is a number of the format, so that nothing is left to round. -/
abbrev IsDouble (x : Number) : Prop := binary64.Holds x

theorem isDouble_round (q : ℚ) : IsDouble (Binary64.round binary64 q) :=
  Single.holds_round (by decide) (by decide) (by decide) (by decide) q

theorem ofMagnitude_neg (f : Format) (neg : Bool) (m : ℚ) :
    ofMagnitude f (!neg) m = (ofMagnitude f neg m).neg := by
  unfold ofMagnitude
  split
  · rfl
  · cases neg <;> simp [Number.neg]

/-- Rounding is symmetric. -/
theorem round_neg (f : Format) {q : ℚ} (hq : q ≠ 0) :
    Binary64.round f (-q) = (Binary64.round f q).neg := by
  unfold Binary64.round
  rcases hq.lt_or_gt with hneg | hpos
  · rw [if_pos hneg, if_neg (by linarith)]
    exact ofMagnitude_neg f true (roundMagnitude f (-q))
  · rw [if_pos (neg_lt_zero.mpr hpos), if_neg (not_lt.mpr hpos.le), neg_neg]
    exact ofMagnitude_neg f false (roundMagnitude f q)

variable {x y : Number}

theorem isDouble_neg (hx : IsDouble x) : IsDouble (-x) := by
  cases x with
  | nan => trivial
  | inf s => trivial
  | fin q =>
    rcases eq_or_ne q 0 with rfl | hq
    · change IsDouble (.fin (-0))
      rwa [neg_zero]
    · have hround : Binary64.round binary64 q = .fin q := hx
      change Binary64.round binary64 (-q) = .fin (-q)
      rw [round_neg binary64 hq, hround]
      rfl

theorem isDouble_abs (hx : IsDouble x) : IsDouble x.abs := by
  cases x with
  | nan => trivial
  | inf s => trivial
  | fin q =>
    change IsDouble (.fin |q|)
    rcases abs_choice q with h | h
    · rwa [h]
    · rw [h]
      exact isDouble_neg hx

theorem isDouble_zero : IsDouble (.fin 0) := by
  simpa using @Single.holds_intCast 0 (by norm_num) (by norm_num)

theorem isDouble_add : IsDouble (x + y) := by
  change IsDouble (Number.add x y)
  cases x with
  | nan => trivial
  | inf s =>
    cases y with
    | inf t =>
      change IsDouble (if s = t then .inf s else .nan)
      split <;> trivial
    | _ => trivial
  | fin a =>
    cases y with
    | fin b => exact isDouble_round (a + b)
    | _ => trivial

theorem isDouble_sub : IsDouble (x - y) := isDouble_add (y := -y)

theorem isDouble_mul : IsDouble (x * y) := by
  change IsDouble (Number.mul x y)
  cases x <;> cases y
  case fin.fin a b => exact isDouble_round (a * b)
  case inf.fin s q =>
    change IsDouble (if q = 0 then .nan else .inf (s != decide (q < 0)))
    split <;> trivial
  case fin.inf q s =>
    change IsDouble (if q = 0 then .nan else .inf (s != decide (q < 0)))
    split <;> trivial
  all_goals trivial

theorem isDouble_div : IsDouble (x / y) := by
  change IsDouble (Number.div x y)
  cases x <;> cases y
  case fin.fin a b =>
    change IsDouble (if b = 0 then if a = 0 then .nan else .inf (decide (a < 0))
      else Binary64.round binary64 (a / b))
    split_ifs
    · trivial
    · trivial
    · exact isDouble_round (a / b)
  case fin.inf q s => exact isDouble_zero
  all_goals trivial

theorem isDouble_sqrt : IsDouble x.sqrt := by
  cases x with
  | nan => trivial
  | inf s => cases s <;> trivial
  | fin q =>
    change IsDouble (if q < 0 then .nan else Binary64.round binary64 (Number.rootApproximation q))
    split
    · trivial
    · exact isDouble_round _

end JsonScada.Lib.Binary64
