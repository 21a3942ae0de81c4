/- path: JsonScada/Lib/Ring
   layer: library
   digest: A ring of places read as a list, and windows of serial numbers. -/

import Mathlib.Data.List.Basic
import Mathlib.Data.Nat.ModEq

set_option autoImplicit false
set_option relaxedAutoImplicit false

namespace JsonScada.Lib.Ring

universe u
variable {α : Type u}

/-- The place a number of steps after the first, in a ring of `n` places. -/
def place (n first i : ℕ) : ℕ := (first + i) % n

theorem place_lt {n : ℕ} (hn : 0 < n) (first i : ℕ) : place n first i < n :=
  Nat.mod_lt _ hn

theorem place_zero {n first : ℕ} (h : first < n) : place n first 0 = first := by
  rw [place, Nat.add_zero, Nat.mod_eq_of_lt h]

/-- The place after a place. -/
theorem place_succ (n first i : ℕ) : (place n first i + 1) % n = place n first (i + 1) := by
  rw [place, Nat.mod_add_mod, place, Nat.add_assoc]

/-- Counting from the second place is counting one less. -/
theorem place_next (n first i : ℕ) :
    place n (place n first 1) i = place n first (i + 1) := by
  rw [place, place, Nat.mod_add_mod, place]
  congr 1
  omega

theorem place_eq {n first i : ℕ} (hf : first < n) (hi : i < n) :
    place n first i = if first + i < n then first + i else first + i - n := by
  unfold place
  split
  next h => exact Nat.mod_eq_of_lt h
  next h =>
    rw [Nat.mod_eq_sub_mod (by omega)]
    exact Nat.mod_eq_of_lt (by omega)

/-- Fewer steps than places never meet. -/
theorem place_inj {n first i j : ℕ} (hf : first < n) (hi : i < n) (hj : j < n)
    (h : place n first i = place n first j) : i = j := by
  rw [place_eq hf hi, place_eq hf hj] at h
  split at h <;> split at h <;> omega

theorem place_full {n first : ℕ} (h : first < n) : place n first n = first := by
  rw [place, Nat.add_mod_right, Nat.mod_eq_of_lt h]

/-- A whole round ends where it began. -/
theorem place_eq_first {n first i : ℕ} (hf : first < n) (hpos : 0 < i) (hi : i ≤ n) :
    place n first i = first ↔ i = n := by
  constructor
  · intro h
    by_contra hne
    have hlt : i < n := by omega
    have hzero : place n first i = place n first 0 := by rw [h, place_zero hf]
    exact absurd (place_inj hf hlt (by omega) hzero) (by omega)
  · rintro rfl
    rw [place, Nat.add_mod_right, Nat.mod_eq_of_lt hf]

/-- Every place is some steps after the first. -/
theorem exists_place {n first p : ℕ} (hf : first < n) (hp : p < n) :
    ∃ i < n, place n first i = p := by
  by_cases h : first ≤ p
  · refine ⟨p - first, by omega, ?_⟩
    rw [place_eq hf (by omega)]
    split <;> omega
  · refine ⟨p + n - first, by omega, ?_⟩
    rw [place_eq hf (by omega)]
    split <;> omega

/-- The place before a place. -/
theorem place_pred {n first i : ℕ} (hf : first < n) (hpos : 0 < i) (hi : i < n) :
    (if place n first i = 0 then n - 1 else place n first i - 1) = place n first (i - 1) := by
  rw [place_eq hf hi, place_eq hf (by omega)]
  split_ifs <;> omega

/-- The places from `first` on hold the entries of the list, in order. -/
structure Holds (slots : List α) (first : ℕ) (l : List α) : Prop where
  first_lt : first < slots.length
  length_le : l.length ≤ slots.length
  get : ∀ i, i < l.length → slots[place slots.length first i]? = l[i]?

namespace Holds

variable {slots l : List α} {first : ℕ} {x : α}

theorem nil (h : first < slots.length) : Holds slots first [] :=
  ⟨h, Nat.zero_le _, fun i hi => absurd hi (Nat.not_lt_zero i)⟩

theorem head (h : Holds slots first (x :: l)) : slots[first]? = some x := by
  have hget := h.get 0 (by simp)
  rw [place_zero h.first_lt] at hget
  simpa using hget

theorem last (h : Holds slots first (l ++ [x])) :
    slots[place slots.length first l.length]? = some x := by
  rw [h.get l.length (by simp)]
  simp

/-- The first entry leaves. -/
theorem pop (h : Holds slots first (x :: l)) :
    Holds slots (place slots.length first 1) l := by
  refine ⟨place_lt (Nat.zero_lt_of_lt h.first_lt) _ _, ?_, ?_⟩
  · exact Nat.le_of_succ_le h.length_le
  · intro i hi
    rw [place_next, h.get (i + 1) (by simpa using hi)]
    rfl

/-- A number of entries leave. -/
theorem drop (h : Holds slots first l) {j : ℕ} (hj : j ≤ l.length) :
    Holds slots (place slots.length first j) (l.drop j) := by
  refine ⟨place_lt (Nat.zero_lt_of_lt h.first_lt) _ _, ?_, ?_⟩
  · rw [List.length_drop]
    have := h.length_le
    omega
  · intro i hi
    rw [List.length_drop] at hi
    have hplace : place slots.length (place slots.length first j) i =
        place slots.length first (j + i) := by
      rw [place, place, Nat.mod_add_mod, place, Nat.add_assoc]
    rw [hplace, h.get (j + i) (by omega), List.getElem?_drop]

/-- An entry is written over in its place. -/
theorem set (h : Holds slots first l) {j : ℕ} (hj : j < l.length) (x : α) :
    Holds (slots.set (place slots.length first j) x) first (l.set j x) := by
  have hn := Nat.zero_lt_of_lt h.first_lt
  refine ⟨?_, ?_, ?_⟩
  · rw [List.length_set]
    exact h.first_lt
  · rw [List.length_set, List.length_set]
    exact h.length_le
  · intro i hi
    rw [List.length_set] at hi ⊢
    by_cases hij : i = j
    · subst hij
      rw [List.getElem?_set_self (place_lt hn _ _), List.getElem?_set_self hj]
    · have hplace : place slots.length first j ≠ place slots.length first i := by
        intro heq
        have hle := h.length_le
        exact hij (place_inj h.first_lt (by omega) (by omega) heq).symm
      rw [List.getElem?_set_ne hplace, List.getElem?_set_ne (Ne.symm hij), h.get i hi]

/-- A new entry takes the place after the last one, as long as a place is free. -/
theorem push (h : Holds slots first l) (hfree : l.length < slots.length) (x : α) :
    Holds (slots.set (place slots.length first l.length) x) first (l ++ [x]) := by
  have hn := Nat.zero_lt_of_lt h.first_lt
  refine ⟨?_, ?_, ?_⟩
  · rw [List.length_set]
    exact h.first_lt
  · rw [List.length_set, List.length_append, List.length_singleton]
    exact hfree
  · intro i hi
    rw [List.length_append, List.length_singleton] at hi
    rw [List.length_set]
    by_cases hlast : i = l.length
    · subst hlast
      rw [List.getElem?_set_self (place_lt hn _ _)]
      simp
    · have hlt : i < l.length := by omega
      have hplace : place slots.length first l.length ≠ place slots.length first i := by
        intro heq
        exact hlast (place_inj h.first_lt hfree (by omega) heq).symm
      rw [List.getElem?_set_ne hplace, h.get i hlt, List.getElem?_append_left hlt]

/-- Every entry is changed in its place. -/
theorem map {β : Type u} (h : Holds slots first l) (f : α → β) :
    Holds (slots.map f) first (l.map f) := by
  refine ⟨?_, ?_, ?_⟩
  · rw [List.length_map]
    exact h.first_lt
  · rw [List.length_map, List.length_map]
    exact h.length_le
  · intro i hi
    rw [List.length_map] at hi ⊢
    rw [List.getElem?_map, List.getElem?_map, h.get i hi]

/-- Only the places of the entries matter. -/
theorem congr (h : Holds slots first l) {slots' : List α} (hlen : slots'.length = slots.length)
    (hget : ∀ i, i < l.length →
      slots'[place slots.length first i]? = slots[place slots.length first i]?) :
    Holds slots' first l := by
  refine ⟨?_, ?_, ?_⟩
  · rw [hlen]
    exact h.first_lt
  · rw [hlen]
    exact h.length_le
  · intro i hi
    rw [hlen, hget i hi, h.get i hi]

end Holds

/-- The window of serial numbers from `first` to `last`, which may pass the largest
number and start over. -/
def between (first last seq : ℕ) : Bool :=
  if first ≤ last then decide (first ≤ seq) && decide (seq ≤ last)
  else decide (first ≤ seq) || decide (seq ≤ last)

/-- The window over the serial numbers of `n` consecutive items holds these and no
others, as long as the items are fewer than the numbers. -/
theorem between_iff {m a n seq : ℕ} (hn : 0 < n) (hm : n ≤ m) (hseq : seq < m) :
    between (a % m) ((a + (n - 1)) % m) seq = true ↔ ∃ i < n, seq = (a + i) % m := by
  have hpos : 0 < m := by omega
  have hplace : ∀ i, (a + i) % m = place m (a % m) i := by
    intro i
    rw [place, Nat.mod_add_mod]
  have hf := Nat.mod_lt a hpos
  have hlast : (a + (n - 1)) % m = if a % m + (n - 1) < m then a % m + (n - 1)
      else a % m + (n - 1) - m := by
    rw [hplace, place_eq hf (by omega)]
  have hall : (∃ i < n, seq = (a + i) % m) ↔
      ∃ i < n, seq = if a % m + i < m then a % m + i else a % m + i - m := by
    constructor
    · rintro ⟨i, hi, rfl⟩
      exact ⟨i, hi, by rw [hplace, place_eq hf (by omega)]⟩
    · rintro ⟨i, hi, hi'⟩
      exact ⟨i, hi, by rw [hplace, place_eq hf (by omega), hi']⟩
  rw [hall, hlast]
  generalize a % m = f at *
  constructor
  · intro h
    by_cases hw : f + (n - 1) < m
    · rw [if_pos hw] at h
      simp only [between, Nat.le_add_right, if_true, Bool.and_eq_true, decide_eq_true_eq] at h
      refine ⟨seq - f, by omega, ?_⟩
      rw [if_pos (by omega)]
      omega
    · rw [if_neg hw] at h
      unfold between at h
      rw [if_neg (by omega)] at h
      simp only [Bool.or_eq_true, decide_eq_true_eq] at h
      by_cases hge : f ≤ seq
      · refine ⟨seq - f, by omega, ?_⟩
        rw [if_pos (by omega)]
        omega
      · refine ⟨seq + m - f, by omega, ?_⟩
        rw [if_neg (by omega)]
        omega
  · rintro ⟨i, hi, hi'⟩
    by_cases hw : f + (n - 1) < m
    · rw [if_pos (show f + i < m by omega)] at hi'
      rw [if_pos hw]
      simp only [between, Nat.le_add_right, if_true, Bool.and_eq_true, decide_eq_true_eq]
      omega
    · rw [if_neg hw]
      unfold between
      rw [if_neg (by omega)]
      simp only [Bool.or_eq_true, decide_eq_true_eq]
      split at hi' <;> omega

/-- Serial numbers of items fewer apart than there are numbers tell the items apart. -/
theorem serial_inj {m a i j : ℕ} (hi : i < m) (hj : j < m) (h : (a + i) % m = (a + j) % m) :
    i = j := by
  have hpos : 0 < m := by omega
  have hf := Nat.mod_lt a hpos
  refine place_inj hf hi hj ?_
  rw [place, place, Nat.mod_add_mod, Nat.mod_add_mod, h]

/-- Serial numbers that end above where they began never started over. -/
theorem serial_mono {m a n i j : ℕ} (hn : n < m) (hlast : a % m ≤ (a + n) % m) (hij : i ≤ j)
    (hj : j ≤ n) : (a + i) % m ≤ (a + j) % m := by
  have hplace : ∀ i, (a + i) % m = place m (a % m) i := by
    intro i
    rw [place, Nat.mod_add_mod]
  have hf := Nat.mod_lt a (show 0 < m by omega)
  rw [hplace n, place_eq hf (by omega)] at hlast
  rw [hplace i, hplace j, place_eq hf (by omega), place_eq hf (by omega)]
  split at hlast <;> split <;> split <;> omega

end JsonScada.Lib.Ring
