/- path: JsonScada/Lib/DotNet
   layer: library
   digest: Conversions of the .NET library between doubles and fixed-width numbers. -/

import JsonScada.Lib.Binary64

set_option autoImplicit false
set_option relaxedAutoImplicit false

namespace JsonScada.Lib.DotNet

open JsonScada.Lib.Binary64

/-- `(int)d`: the fraction is cut off; outside the range the result is the smallest
number, as the conversion instruction of the processor has it. -/
def toInt32 : Number → ℤ
  | .fin q =>
    let n := if q < 0 then -⌊-q⌋ else ⌊q⌋
    if -2 ^ 31 ≤ n ∧ n < 2 ^ 31 then n else -2 ^ 31
  | _ => -2 ^ 31

theorem toInt32_bounds (x : Number) : -2 ^ 31 ≤ toInt32 x ∧ toInt32 x < 2 ^ 31 := by
  unfold toInt32
  split
  · dsimp only
    split_ifs <;> omega
  · omega

theorem toInt32_intCast {n : ℤ} (h : -2 ^ 31 ≤ n ∧ n < 2 ^ 31) : toInt32 (.fin (n : ℚ)) = n := by
  have hfloor : (if (n : ℚ) < 0 then -⌊-(n : ℚ)⌋ else ⌊(n : ℚ)⌋) = n := by
    rw [← Int.cast_neg, Int.floor_intCast, Int.floor_intCast, neg_neg, ite_self]
  unfold toInt32
  dsimp only
  rw [hfloor, if_pos h]

/-- `AddHours(h)` of a time in milliseconds, for a number of hours the calendar has. -/
def addHours (t : ℤ) : Number → ℤ
  | .fin h => t + ⌊h * 3600000⌋
  | _ => t

/-- `Convert.To…(d)`: to the nearest integer, an exact half to the even one; `none` is
an `OverflowException`. -/
def convert (low high : ℤ) : Number → Option ℤ
  | .fin q =>
    let n := nearestEven q
    if low ≤ n ∧ n ≤ high then some n else none
  | _ => none

theorem convert_fin {low high : ℤ} {q : ℚ} (h : low ≤ nearestEven q ∧ nearestEven q ≤ high) :
    convert low high (.fin q) = some (nearestEven q) := if_pos h

theorem convert_eq_some {low high : ℤ} {x : Number} {n : ℤ} (h : convert low high x = some n) :
    ∃ q : ℚ, x = .fin q ∧ n = nearestEven q ∧ low ≤ n ∧ n ≤ high := by
  cases x with
  | fin q =>
    simp only [convert] at h
    split_ifs at h with hrange
    cases h
    exact ⟨q, rfl, rfl, hrange⟩
  | nan => cases h
  | inf neg => cases h

theorem convert_intCast {low high m n : ℤ} (h : convert low high (.fin m) = some n) : n = m := by
  obtain ⟨q, hq, rfl, -⟩ := convert_eq_some h
  rw [← Number.fin.inj hq, nearestEven_intCast]

namespace Convert

def toByte : Number → Option ℤ := convert 0 255

def toInt16 : Number → Option ℤ := convert (-32768) 32767

def toUInt16 : Number → Option ℤ := convert 0 65535

def toInt32 : Number → Option ℤ := convert (-2147483648) 2147483647

def toUInt32 : Number → Option ℤ := convert 0 4294967295

end Convert

def binary32 : Format := ⟨24, -149, 128⟩

/-- `Convert.ToSingle(d)` -/
def toSingle : Number → Number
  | .fin q => round binary32 q
  | d => d

/-- `~n` on 32 bits -/
def complement32 (n : ℤ) : ℤ := -n - 1

/-- `~n` on 32 bits without a sign -/
def complementU32 (n : ℤ) : ℤ := 2 ^ 32 - 1 - n

end JsonScada.Lib.DotNet
