/- path: JsonScada/Lib/Chunks
   layer: library
   digest: A list cut into slices of one length, and batches taken from the head of a queue
   until a threshold is exceeded. -/

import Mathlib.Data.List.Nodup

set_option autoImplicit false
set_option relaxedAutoImplicit false

namespace JsonScada.Lib.Chunks

universe u
variable {α : Type u}

/-- The slices from an offset on, each `size` long until the list ends; the first argument
bounds their number. -/
def chunksFrom (size : ℕ) (l : List α) : ℕ → ℕ → List (List α)
  | 0, _ => []
  | fuel + 1, offset =>
    if offset < l.length then
      (l.take (min (offset + size) l.length)).drop offset ::
        chunksFrom size l fuel (offset + size)
    else []

/-- `for offset := 0; offset < len(l); offset += size`, with the slice of each iteration. -/
def chunks (size : ℕ) (l : List α) : List (List α) := chunksFrom size l l.length 0

section

variable {size : ℕ} {l : List α}

theorem flatten_chunksFrom (hsize : 0 < size) {fuel offset : ℕ}
    (hfuel : l.length ≤ offset + fuel) :
    (chunksFrom size l fuel offset).flatten = l.drop offset := by
  induction fuel generalizing offset with
  | zero => exact (List.drop_eq_nil_of_le hfuel).symm
  | succ fuel ih =>
    rw [chunksFrom]
    split_ifs with hlt
    · rw [List.flatten_cons, ih (by omega), List.drop_take]
      rcases Nat.le_total (offset + size) l.length with hle | hle
      · have hsub : offset + size - offset = size := by omega
        rw [Nat.min_eq_left hle, hsub, ← List.drop_drop, List.take_append_drop]
      · rw [Nat.min_eq_right hle, List.drop_eq_nil_of_le hle, List.append_nil,
          List.take_of_length_le (Nat.le_of_eq List.length_drop)]
    · exact (List.drop_eq_nil_of_le (by omega)).symm

/-- The slices are the list again. -/
theorem flatten_chunks (hsize : 0 < size) (l : List α) : (chunks size l).flatten = l := by
  rw [chunks, flatten_chunksFrom hsize (by omega), List.drop_zero]

theorem length_of_mem_chunks {c : List α} (h : c ∈ chunks size l) : c.length ≤ size := by
  have hfrom : ∀ fuel offset, c ∈ chunksFrom size l fuel offset → c.length ≤ size := by
    intro fuel
    induction fuel with
    | zero => nofun
    | succ fuel ih =>
      intro offset hc
      rw [chunksFrom] at hc
      split_ifs at hc with hlt
      · rcases List.mem_cons.mp hc with rfl | hc
        · rw [List.length_drop, List.length_take]
          omega
        · exact ih _ hc
      · cases hc
  exact hfrom _ _ h

/-- Lists that do not repeat an element share none. -/
theorem index_unique {ls : List (List α)} (h : ls.flatten.Nodup) {a : α} {i j : ℕ} {c d : List α}
    (hi : ls[i]? = some c) (hj : ls[j]? = some d) (hc : a ∈ c) (hd : a ∈ d) : i = j := by
  obtain ⟨-, hpairs⟩ := List.nodup_flatten.mp h
  have hlt : ∀ {i j : ℕ} {c d : List α}, ls[i]? = some c → ls[j]? = some d → a ∈ c → a ∈ d →
      ¬ i < j := by
    intro i j c d hi hj hc hd hij
    obtain ⟨hilt, hci⟩ := List.getElem?_eq_some_iff.mp hi
    obtain ⟨hjlt, hdj⟩ := List.getElem?_eq_some_iff.mp hj
    have hdisjoint := List.pairwise_iff_getElem.mp hpairs i j hilt hjlt hij
    rw [hci, hdj] at hdisjoint
    exact hdisjoint hc hd
  have hij := hlt hi hj hc hd
  have hji := hlt hj hi hd hc
  omega

/-- Each element of the list is in a slice. -/
theorem exists_chunk (hsize : 0 < size) {a : α} (ha : a ∈ l) :
    ∃ (i : ℕ) (c : List α), (chunks size l)[i]? = some c ∧ a ∈ c := by
  rw [← flatten_chunks hsize l, List.mem_flatten] at ha
  obtain ⟨c, hc, hac⟩ := ha
  obtain ⟨i, hi⟩ := List.mem_iff_getElem?.mp hc
  exact ⟨i, c, hi, hac⟩

end

end JsonScada.Lib.Chunks

namespace JsonScada.Lib.Batch

variable {α : Type} (weight : List α → ℕ) (threshold : ℕ)

/-- The shortest part of the queue that is heavier than the threshold, or all of the queue. -/
structure IsBatch (queue batch : List α) : Prop where
  head : batch <+: queue
  full : batch = queue ∨ threshold < weight batch
  shortest : ∀ part, part <+: batch → part ≠ batch → weight part ≤ threshold

variable {weight threshold} {queue : List α}

private theorem eq_of_isPrefix {batch batch' : List α} (h : IsBatch weight threshold queue batch)
    (h' : IsBatch weight threshold queue batch') (hpart : batch <+: batch') : batch = batch' := by
  by_contra hne
  have hlight := h'.shortest batch hpart hne
  rcases h.full with rfl | hheavy
  · exact hne (hpart.eq_of_length_le h'.head.length_le)
  · omega

theorem IsBatch.unique {batch batch' : List α} (h : IsBatch weight threshold queue batch)
    (h' : IsBatch weight threshold queue batch') : batch = batch' := by
  rcases List.prefix_or_prefix_of_prefix h.head h'.head with hpart | hpart
  · exact eq_of_isPrefix h h' hpart
  · exact (eq_of_isPrefix h' h hpart).symm

/-- An element goes before a batch of what is left, where it is light enough. -/
theorem IsBatch.cons {a : α} {batch : List α} (hnil : weight [] ≤ threshold)
    (h : IsBatch (fun l => weight (a :: l)) threshold queue batch) :
    IsBatch weight threshold (a :: queue) (a :: batch) := by
  refine ⟨List.cons_prefix_cons.mpr ⟨rfl, h.head⟩, ?_, fun part hpart hne => ?_⟩
  · exact h.full.imp (congrArg (a :: ·)) id
  · rcases List.prefix_cons_iff.mp hpart with rfl | ⟨rest, rfl, hrest⟩
    · exact hnil
    · exact h.shortest rest hrest fun heq => hne (congrArg (a :: ·) heq)

theorem IsBatch.singleton {a : α} (hnil : weight [] ≤ threshold) (h : threshold < weight [a]) :
    IsBatch weight threshold (a :: queue) [a] := by
  refine ⟨⟨queue, rfl⟩, Or.inr h, fun part hpart hne => ?_⟩
  rcases List.prefix_cons_iff.mp hpart with rfl | ⟨rest, rfl, hrest⟩
  · exact hnil
  · rw [List.prefix_nil.mp hrest] at hne
    exact absurd rfl hne

end JsonScada.Lib.Batch
