/- path: JsonScada/Lib/WriteBehind
   layer: library
   digest: A stored value behind a queue of writes that take effect later, in order. -/

import Mathlib.Data.List.Basic

set_option autoImplicit false
set_option relaxedAutoImplicit false

namespace JsonScada.Lib.WriteBehind

universe u v w

/-- A stored value, the writes already sent to it, and the entries still queued.
An entry is split into writes when it is sent. -/
structure Buffer (S : Type u) (W : Type v) (Q : Type w) where
  stored : S
  sent : List W
  queued : List Q
  deriving DecidableEq

variable {S : Type u} {W : Type v} {Q : Type w}

namespace Buffer

def enqueue (b : Buffer S W Q) (qs : List Q) : Buffer S W Q :=
  { b with queued := b.queued ++ qs }

/-- A write by somebody else, with effect at once. -/
def edit (b : Buffer S W Q) (f : S → S) : Buffer S W Q := { b with stored := f b.stored }

/-- Nothing is on its way to the store. -/
def Idle (b : Buffer S W Q) : Prop := b.sent = [] ∧ b.queued = []

section Writes

variable (split : Q → List W) (act : W → S → S)

/-- Send everything that is queued. -/
def drain (b : Buffer S W Q) : Buffer S W Q :=
  { b with sent := b.sent ++ b.queued.flatMap split, queued := [] }

/-- The oldest sent write takes effect. -/
def applyNext (b : Buffer S W Q) : Option (Buffer S W Q) :=
  match b.sent with
  | [] => none
  | w :: ws => some { b with stored := act w b.stored, sent := ws }

/-- The writes on their way, oldest first. -/
def pending (b : Buffer S W Q) : List W := b.sent ++ b.queued.flatMap split

/-- The value the store will hold when all that is on its way has taken effect. -/
def newest (b : Buffer S W Q) : S := (b.pending split).foldl (fun s w => act w s) b.stored

variable {split act}

theorem newest_of_idle {b : Buffer S W Q} (h : b.Idle) : b.newest split act = b.stored := by
  simp [newest, pending, h.1, h.2]

theorem pending_drain (b : Buffer S W Q) : (b.drain split).pending split = b.pending split := by
  simp [drain, pending]

theorem newest_drain (b : Buffer S W Q) :
    (b.drain split).newest split act = b.newest split act := by
  unfold newest
  rw [pending_drain]
  rfl

theorem pending_enqueue (b : Buffer S W Q) (qs : List Q) :
    (b.enqueue qs).pending split = b.pending split ++ qs.flatMap split := by
  simp [enqueue, pending]

theorem newest_enqueue (b : Buffer S W Q) (qs : List Q) :
    (b.enqueue qs).newest split act =
      (qs.flatMap split).foldl (fun s w => act w s) (b.newest split act) := by
  unfold newest
  rw [pending_enqueue, List.foldl_append]
  rfl

theorem applyNext_eq_some {b c : Buffer S W Q} (h : b.applyNext act = some c) :
    ∃ w, b.pending split = w :: c.pending split ∧ c.stored = act w b.stored := by
  unfold applyNext at h
  cases hs : b.sent with
  | nil => simp [hs] at h
  | cons w ws =>
    simp only [hs, Option.some.injEq] at h
    subst h
    exact ⟨w, by simp [pending, hs], rfl⟩

theorem newest_applyNext {b c : Buffer S W Q} (h : b.applyNext act = some c) :
    c.newest split act = b.newest split act := by
  obtain ⟨w, hp, hs⟩ := @applyNext_eq_some _ _ _ split act b c h
  unfold newest
  rw [hp, hs]
  rfl

/-- A relation every write preserves carries from two stored values to the newest. -/
theorem foldl_related {R : S → S → Prop} (hact : ∀ w s t, R s t → R (act w s) (act w t))
    (ws : List W) {s t : S} (h : R s t) :
    R (ws.foldl (fun s w => act w s) s) (ws.foldl (fun s w => act w s) t) := by
  induction ws generalizing s t with
  | nil => exact h
  | cons w ws ih => exact ih (hact w s t h)

theorem newest_edit_related {R : S → S → Prop} (hact : ∀ w s t, R s t → R (act w s) (act w t))
    (b : Buffer S W Q) (f : S → S) (h : R (f b.stored) b.stored) :
    R ((b.edit f).newest split act) (b.newest split act) :=
  foldl_related hact _ h

/-- What every write on its way preserves of the stored value holds of the newest. -/
theorem newest_invariant {I : S → Prop} (b : Buffer S W Q)
    (hact : ∀ w ∈ b.pending split, ∀ s, I s → I (act w s)) (h : I b.stored) :
    I (b.newest split act) := by
  unfold newest
  generalize b.pending split = ws at hact
  generalize b.stored = s at h
  induction ws generalizing s with
  | nil => exact h
  | cons w ws ih =>
    have htail : ∀ w' ∈ ws, ∀ s, I s → I (act w' s) := fun w' hw' =>
      hact w' (List.mem_cons_of_mem w hw')
    exact ih htail (act w s) (hact w List.mem_cons_self s h)

end Writes

end Buffer

end JsonScada.Lib.WriteBehind
