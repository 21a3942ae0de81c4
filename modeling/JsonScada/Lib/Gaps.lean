/- path: JsonScada/Lib/Gaps
   layer: library
   digest: What is missing between the received ones of numbers sent one after the other. -/

import Mathlib.Data.List.Basic

set_option autoImplicit false
set_option relaxedAutoImplicit false

namespace JsonScada.Lib.Gaps

/-- How many numbers are not received, of those between two that are. -/
def missing (sent got : List ℕ) : ℕ :=
  sent.countP fun n => n ∉ got ∧ (∃ m ∈ got, m < n) ∧ ∃ m ∈ got, n < m

/-- The numbers left out by a sequence that starts with `a`. -/
def between : ℕ → List ℕ → ℕ
  | _, [] => 0
  | a, b :: ns => (b - a - 1) + between b ns

/-- How many times such a sequence leaves some out. -/
def gaps : ℕ → List ℕ → ℕ
  | _, [] => 0
  | a, b :: ns => (if 1 < b - a then 1 else 0) + gaps b ns

variable {a : ℕ} {ns : List ℕ}

theorem gaps_eq_zero_iff : gaps a ns = 0 ↔ between a ns = 0 := by
  induction ns generalizing a with
  | nil => exact Iff.rfl
  | cons b ns ih =>
    rw [gaps, between, Nat.add_eq_zero_iff, Nat.add_eq_zero_iff, ih]
    refine and_congr_left fun _ => ?_
    by_cases hgap : 1 < b - a
    · rw [if_pos hgap]
      omega
    · rw [if_neg hgap]
      omega

section Count

theorem countP_or {α : Type} {p q r : α → Bool} (hor : ∀ x, r x = (p x || q x))
    (hdisjoint : ∀ x, p x = true → q x = false) (l : List α) :
    l.countP r = l.countP p + l.countP q := by
  induction l with
  | nil => rfl
  | cons x l ih =>
    rw [List.countP_cons, List.countP_cons, List.countP_cons, ih, hor]
    cases hp : p x with
    | false =>
      rw [Bool.false_or, if_neg Bool.false_ne_true]
      omega
    | true =>
      rw [hdisjoint x hp, Bool.true_or, if_pos rfl, if_neg Bool.false_ne_true]
      omega

theorem countP_interval (a b n : ℕ) :
    (List.range' 1 n).countP (fun k => a < k ∧ k < b) = min b (n + 1) - (a + 1) := by
  induction n with
  | zero =>
    rw [List.range'_zero, List.countP_nil]
    omega
  | succ n ih =>
    rw [List.range'_1_concat, List.countP_append, ih, List.countP_singleton]
    simp only [decide_eq_true_eq]
    split_ifs with hin
    · omega
    · omega

end Count

/-- Between the numbers received in order, as many are missing as they leave out. -/
theorem missing_eq_between {n : ℕ} (h : (a :: ns).Sublist (List.range' 1 n)) :
    missing (List.range' 1 n) (a :: ns) = between a ns := by
  induction ns generalizing a with
  | nil =>
    rw [between, missing, List.countP_eq_zero]
    intro k _
    simp only [List.mem_singleton, exists_eq_left, decide_eq_true_eq]
    omega
  | cons b ns ih =>
    have hlast : b ≤ n := by
      have hmem := h.subset (List.mem_cons_of_mem a List.mem_cons_self)
      rw [List.mem_range'_1] at hmem
      omega
    obtain ⟨hfirst, hrest⟩ := List.pairwise_cons.mp (List.Pairwise.sublist h List.pairwise_lt_range')
    obtain ⟨hsecond, -⟩ := List.pairwise_cons.mp hrest
    have hab := hfirst b List.mem_cons_self
    have hsplit : ∀ k : ℕ,
        decide (k ∉ a :: b :: ns ∧ (∃ m ∈ a :: b :: ns, m < k) ∧ ∃ m ∈ a :: b :: ns, k < m) =
          (decide (a < k ∧ k < b) ||
            decide (k ∉ b :: ns ∧ (∃ m ∈ b :: ns, m < k) ∧ ∃ m ∈ b :: ns, k < m)) := by
      intro k
      rw [← Bool.decide_or, decide_eq_decide]
      constructor
      · rintro ⟨hnot, ⟨m, hm, hmk⟩, m', hm', hkm'⟩
        by_cases hkb : k < b
        · refine Or.inl ⟨?_, hkb⟩
          rcases List.mem_cons.mp hm with rfl | hmem
          · exact hmk
          · exact Nat.lt_trans (hfirst m hmem) hmk
        · have hbk : b < k := by
            refine Nat.lt_of_le_of_ne (Nat.le_of_not_lt hkb) ?_
            rintro rfl
            exact hnot (List.mem_cons_of_mem a List.mem_cons_self)
          refine Or.inr ⟨fun hin => hnot (List.mem_cons_of_mem a hin),
            ⟨b, List.mem_cons_self, hbk⟩, m', ?_, hkm'⟩
          rcases List.mem_cons.mp hm' with rfl | hmem
          · omega
          · exact hmem
      · rintro (⟨hak, hkb⟩ | ⟨hnot, ⟨m, hm, hmk⟩, m', hm', hkm'⟩)
        · refine ⟨fun hin => ?_, ⟨a, List.mem_cons_self, hak⟩, b,
            List.mem_cons_of_mem a List.mem_cons_self, hkb⟩
          rcases List.mem_cons.mp hin with rfl | hin
          · exact absurd hak (Nat.lt_irrefl k)
          · rcases List.mem_cons.mp hin with rfl | hin
            · exact absurd hkb (Nat.lt_irrefl k)
            · exact absurd (hsecond k hin) (Nat.lt_asymm hkb)
        · refine ⟨fun hin => ?_, ⟨m, List.mem_cons_of_mem a hm, hmk⟩, m',
            List.mem_cons_of_mem a hm', hkm'⟩
          rcases List.mem_cons.mp hin with rfl | hin
          · exact absurd (hfirst m hm) (Nat.lt_asymm hmk)
          · exact hnot hin
    have hdisjoint : ∀ k : ℕ, decide (a < k ∧ k < b) = true →
        decide (k ∉ b :: ns ∧ (∃ m ∈ b :: ns, m < k) ∧ ∃ m ∈ b :: ns, k < m) = false := by
      intro k hk
      rw [decide_eq_true_eq] at hk
      rw [decide_eq_false_iff_not]
      rintro ⟨-, ⟨m, hm, hmk⟩, -⟩
      rcases List.mem_cons.mp hm with rfl | hmem
      · omega
      · have hlt := hsecond m hmem
        omega
    rw [missing, countP_or hsplit hdisjoint, countP_interval, ← missing, between,
      ih ((List.sublist_cons_self a _).trans h)]
    omega

end JsonScada.Lib.Gaps
