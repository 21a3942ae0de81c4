/- path: JsonScada/Lib/Watchdog
   layer: library
   digest: An observer that takes over when the tag of another stops changing. -/

import Mathlib.Data.List.Basic

set_option autoImplicit false
set_option relaxedAutoImplicit false

namespace JsonScada.Lib.Watchdog

universe u
variable {τ : Type u} [DecidableEq τ]

/-- What a look at the shared record finds: the observer's own name, or the name of
another with its tag. -/
inductive Sight (τ : Type u) where
  | own
  | other (tag : τ)
  deriving DecidableEq

/-- The observer: whether it is active, its count, and the tag it remembers. -/
structure Watch (τ : Type u) where
  active : Bool
  count : ℕ
  last : τ
  deriving DecidableEq

/-- The limit of the count, and the places where the count starts over. -/
structure Policy where
  limit : ℕ
  ownResets : Bool
  changeResets : Bool
  fireResets : Bool
  deriving DecidableEq

/-- A fresh observer. -/
def Watch.start (init : τ) : Watch τ := ⟨false, 0, init⟩

/-- An active observer that finds another named starts its count over. -/
def Watch.held (w : Watch τ) : ℕ := if w.active then 0 else w.count

variable (p : Policy)

/-- The count after the tag of another. -/
def counted (w : Watch τ) (tag : τ) : ℕ :=
  if w.last = tag then w.held + 1 else if p.changeResets then 0 else w.held

def look (w : Watch τ) : Sight τ → Watch τ
  | .own => { w with active := true, count := if p.ownResets then 0 else w.count }
  | .other tag =>
    let n := counted p w tag
    if p.limit < n then ⟨true, if p.fireResets then 0 else n, tag⟩
    else ⟨false, n, tag⟩

/-- The tag an observer remembers after the looks in the list. -/
def remembered (init : τ) (seen : List (Sight τ)) : τ :=
  seen.foldl (fun last s => match s with
    | .own => last
    | .other tag => tag) init

/-- The last `k` looks all found another, with the tag remembered before them. -/
def Unchanged (init : τ) (k : ℕ) (seen : List (Sight τ)) : Prop :=
  ∃ rest tag, seen = rest ++ List.replicate k (.other tag) ∧ remembered init rest = tag

/-- The observer goes active although it is not the one named. -/
def TakesOver (w : Watch τ) (s : Sight τ) (w' : Watch τ) : Prop :=
  w.active = false ∧ s ≠ .own ∧ w'.active = true

/-- The look finds another whose tag is not the one remembered. -/
def Changed (w : Watch τ) : Sight τ → Prop
  | .own => False
  | .other tag => w.last ≠ tag

instance (w : Watch τ) (s : Sight τ) : Decidable (Changed w s) := by
  cases s <;> unfold Changed <;> infer_instance

/-- A changed tag is found only while nothing has been counted. -/
def Settled (w : Watch τ) (s : Sight τ) : Prop := Changed w s → w.held = 0

instance (w : Watch τ) (s : Sight τ) : Decidable (Settled w s) := by
  unfold Settled; infer_instance

omit [DecidableEq τ] in
@[simp] theorem remembered_own (init : τ) (seen : List (Sight τ)) :
    remembered init (seen ++ [.own]) = remembered init seen := by
  simp [remembered]

omit [DecidableEq τ] in
@[simp] theorem remembered_other (init tag : τ) (seen : List (Sight τ)) :
    remembered init (seen ++ [.other tag]) = tag := by
  simp [remembered]

omit [DecidableEq τ] in
theorem Unchanged.zero (init : τ) (seen : List (Sight τ)) : Unchanged init 0 seen :=
  ⟨seen, remembered init seen, by simp, rfl⟩

omit [DecidableEq τ] in
/-- One more look at the tag remembered. -/
theorem Unchanged.succ {init tag : τ} {k : ℕ} {seen : List (Sight τ)}
    (h : Unchanged init k seen) (ht : remembered init seen = tag) :
    Unchanged init (k + 1) (seen ++ [.other tag]) := by
  obtain ⟨rest, t, rfl, hrest⟩ := h
  have hsame : t = tag := by
    cases k with
    | zero =>
      rw [← hrest, ← ht, List.replicate_zero, List.append_nil]
    | succ k =>
      rw [← ht, List.replicate_succ', ← List.append_assoc, remembered_other]
  subst hsame
  refine ⟨rest, t, ?_, hrest⟩
  rw [List.append_assoc, ← List.replicate_succ']

omit [DecidableEq τ] in
/-- The last looks of an unchanged stretch all found the same. -/
theorem Unchanged.suffix {init : τ} {k : ℕ} {seen : List (Sight τ)}
    (h : Unchanged init k seen) : ∃ tag, List.replicate k (Sight.other tag) <:+ seen := by
  obtain ⟨rest, tag, rfl, -⟩ := h
  exact ⟨tag, List.suffix_append _ _⟩

/-- What an observer knows after the looks in the list: the tag it remembers is the
last one found, and while it is not active its count is the length of an unchanged
stretch below the limit. -/
structure Watching (init : τ) (seen : List (Sight τ)) (w : Watch τ) : Prop where
  last : w.last = remembered init seen
  counts : w.active = false → w.count ≤ p.limit ∧ Unchanged init w.count seen

omit [DecidableEq τ] in
theorem watching_start (init : τ) : Watching p init [] (Watch.start init) where
  last := rfl
  counts := fun _ => ⟨Nat.zero_le _, Unchanged.zero init []⟩

variable {p}

omit [DecidableEq τ] in
theorem Watching.held {init : τ} {seen : List (Sight τ)} {w : Watch τ}
    (h : Watching p init seen w) : w.held ≤ p.limit ∧ Unchanged init w.held seen := by
  unfold Watch.held
  cases ha : w.active with
  | true => exact ⟨Nat.zero_le _, Unchanged.zero init seen⟩
  | false => exact h.counts ha

/-- A count that has started over at every changed tag is the length of an unchanged
stretch. -/
theorem Watching.counted {init tag : τ} {seen : List (Sight τ)} {w : Watch τ}
    (h : Watching p init seen w) (hs : p.changeResets = true ∨ Settled w (.other tag)) :
    counted p w tag ≤ p.limit + 1 ∧ Unchanged init (counted p w tag) (seen ++ [.other tag]) := by
  obtain ⟨hle, hun⟩ := h.held
  unfold Watchdog.counted
  by_cases ht : w.last = tag
  · rw [if_pos ht]
    exact ⟨Nat.succ_le_succ hle, hun.succ (h.last ▸ ht)⟩
  · rw [if_neg ht]
    have hzero : (if p.changeResets then 0 else w.held) = 0 := by
      rcases hs with hs | hs
      · rw [if_pos hs]
      · rw [hs ht]
        exact ite_self 0
    rw [hzero]
    exact ⟨Nat.zero_le _, Unchanged.zero init _⟩

theorem Watching.look {init : τ} {seen : List (Sight τ)} {w : Watch τ} {s : Sight τ}
    (h : Watching p init seen w) (hs : p.changeResets = true ∨ Settled w s) :
    Watching p init (seen ++ [s]) (look p w s) := by
  cases s with
  | own =>
    refine ⟨?_, fun ha => ?_⟩
    · rw [remembered_own]
      exact h.last
    · cases ha
  | other tag =>
    obtain ⟨-, hun⟩ := h.counted hs
    unfold Watchdog.look
    by_cases hf : p.limit < Watchdog.counted p w tag
    · simp only [hf, if_true]
      refine ⟨(remembered_other init tag seen).symm, fun ha => ?_⟩
      cases ha
    · simp only [hf, if_false]
      refine ⟨(remembered_other init tag seen).symm, fun _ => ?_⟩
      exact ⟨Nat.le_of_not_lt hf, hun⟩

/-- A takeover comes after as many unchanged looks as the limit asks for. -/
theorem Watching.unchanged_of_takesOver {init : τ} {seen : List (Sight τ)} {w : Watch τ}
    {s : Sight τ} (h : Watching p init seen w) (hs : p.changeResets = true ∨ Settled w s)
    (ht : TakesOver w s (Watchdog.look p w s)) :
    Unchanged init (p.limit + 1) (seen ++ [s]) := by
  obtain ⟨-, hother, hact⟩ := ht
  cases s with
  | own => exact absurd rfl hother
  | other tag =>
    obtain ⟨hle, hun⟩ := h.counted hs
    have hfire : p.limit < Watchdog.counted p w tag := by
      by_contra hn
      simp [Watchdog.look, hn] at hact
    have heq : Watchdog.counted p w tag = p.limit + 1 := by omega
    rw [heq] at hun
    exact hun

/-- At a changed tag the count is zero afterwards just when it starts over there, or
was zero before. -/
theorem Watching.count_eq_zero_iff {init : τ} {seen : List (Sight τ)} {w : Watch τ}
    {s : Sight τ} (h : Watching p init seen w) (hc : Changed w s) :
    (Watchdog.look p w s).count = 0 ↔ p.changeResets = true ∨ w.held = 0 := by
  cases s with
  | own => exact hc.elim
  | other tag =>
    have hle := h.held.1
    have hcount : Watchdog.counted p w tag = if p.changeResets then 0 else w.held := if_neg hc
    have hquiet : ¬ p.limit < Watchdog.counted p w tag := by
      rw [hcount]
      split <;> omega
    have hlook : (Watchdog.look p w (.other tag)).count = Watchdog.counted p w tag := by
      simp [Watchdog.look, hquiet]
    rw [hlook, hcount]
    cases p.changeResets <;> simp

end JsonScada.Lib.Watchdog
