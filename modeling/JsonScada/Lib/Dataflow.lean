/- path: JsonScada/Lib/Dataflow
   layer: library
   digest: Networks of nodes computed in rounds from the nodes they read. -/

import Mathlib.Logic.Function.Iterate

set_option autoImplicit false
set_option relaxedAutoImplicit false

namespace JsonScada.Lib.Dataflow

universe u v

/-- Computed nodes, what each reads, and the value it has from the values read. The
other nodes are inputs. -/
structure Network (ι : Type u) (V : Type v) where
  Node : ι → Prop
  Reads : ι → ι → Prop
  eval : (ι → V) → ι → V
  eval_congr : ∀ i v w, Node i → (∀ j, Reads i j → v j = w j) → eval v i = eval w i

namespace Network

variable {ι : Type u} {V : Type v} {N : Network ι V} {s t : ℕ → ι → V}

/-- A chain of `n` reads among computed nodes that ends in a node. -/
inductive Chain (N : Network ι V) : ℕ → ι → Prop
  | node {i : ι} : N.Node i → Chain N 0 i
  | read {n : ℕ} {i j : ι} : N.Node i → N.Reads i j → Chain N n j → Chain N (n + 1) i

/-- No chain is longer: the network has no cycle, and this is at least its depth. -/
def DepthLE (N : Network ι V) (depth : ℕ) : Prop := ∀ n i, N.Chain n i → n ≤ depth

/-- `n` rounds in which every computed node takes its value from the round before and
every input that is read keeps its value. -/
structure Rounds (N : Network ι V) (s : ℕ → ι → V) (n : ℕ) : Prop where
  computed : ∀ k < n, ∀ i, N.Node i → s (k + 1) i = N.eval (s k) i
  input : ∀ k < n, ∀ i j, N.Node i → N.Reads i j → ¬N.Node j → s (k + 1) j = s k j

theorem Rounds.input_start {n : ℕ} (hs : N.Rounds s n) {i j : ι} (hi : N.Node i)
    (hr : N.Reads i j) (hj : ¬N.Node j) {k : ℕ} (hk : k ≤ n) : s k j = s 0 j := by
  induction k with
  | zero => rfl
  | succ k ih => rw [hs.input k (by omega) i j hi hr hj, ih (by omega)]

/-- Two runs of rounds on the same inputs agree on a node once they are past the
longest chain that ends in it. -/
theorem Rounds.agree {a b : ℕ} (hs : N.Rounds s a) (ht : N.Rounds t b)
    (hinput : ∀ i j, N.Node i → N.Reads i j → ¬N.Node j → s 0 j = t 0 j) {n : ℕ} {i : ι}
    (hi : N.Node i) (hchain : ∀ m, N.Chain m i → m ≤ n) {k l : ℕ} (hk : n < k) (hka : k ≤ a)
    (hl : n < l) (hlb : l ≤ b) : s k i = t l i := by
  induction n generalizing i k l with
  | zero =>
    obtain ⟨k, rfl⟩ : ∃ m, k = m + 1 := ⟨k - 1, by omega⟩
    obtain ⟨l, rfl⟩ : ∃ m, l = m + 1 := ⟨l - 1, by omega⟩
    rw [hs.computed k hka i hi, ht.computed l hlb i hi]
    apply N.eval_congr _ _ _ hi
    intro j hj
    have hnode : ¬N.Node j := by
      intro hnode
      have := hchain 1 (.read hi hj (.node hnode))
      omega
    rw [hs.input_start hi hj hnode (by omega), ht.input_start hi hj hnode (by omega),
      hinput i j hi hj hnode]
  | succ n ih =>
    obtain ⟨k, rfl⟩ : ∃ m, k = m + 1 := ⟨k - 1, by omega⟩
    obtain ⟨l, rfl⟩ : ∃ m, l = m + 1 := ⟨l - 1, by omega⟩
    rw [hs.computed k hka i hi, ht.computed l hlb i hi]
    apply N.eval_congr _ _ _ hi
    intro j hj
    by_cases hnode : N.Node j
    · refine ih hnode ?_ (by omega) (by omega) (by omega) (by omega)
      intro m hm
      have := hchain (m + 1) (.read hi hj hm)
      omega
    · rw [hs.input_start hi hj hnode (by omega), ht.input_start hi hj hnode (by omega),
        hinput i j hi hj hnode]

/-- A valuation that every computed node confirms stays as it is. -/
theorem rounds_const {w : ι → V} (hw : ∀ i, N.Node i → N.eval w i = w i) (n : ℕ) :
    N.Rounds (fun _ => w) n where
  computed := fun _ _ i hi => (hw i hi).symm
  input := fun _ _ _ _ _ _ _ => rfl

open Classical in
/-- One round from a valuation. -/
noncomputable def round (N : Network ι V) (w : ι → V) (i : ι) : V :=
  if N.Node i then N.eval w i else w i

/-- The rounds from a valuation. -/
noncomputable def rounds (N : Network ι V) (w : ι → V) (k : ℕ) : ι → V := N.round^[k] w

theorem rounds_rounds (N : Network ι V) (w : ι → V) (n : ℕ) : N.Rounds (N.rounds w) n where
  computed := by
    intro k _ i hi
    rw [rounds, Function.iterate_succ_apply']
    exact if_pos hi
  input := by
    intro k _ i j _ _ hj
    rw [rounds, Function.iterate_succ_apply']
    exact if_neg hj

/-- After more rounds than the depth every computed node confirms the valuation. -/
theorem rounds_fixed {depth : ℕ} (hdepth : N.DepthLE depth) (w : ι → V) {i : ι}
    (hi : N.Node i) {k : ℕ} (hk : depth < k) : N.eval (N.rounds w k) i = N.rounds w k i := by
  have hrounds := rounds_rounds N w (k + 1)
  rw [← hrounds.computed k (by omega) i hi]
  exact hrounds.agree hrounds (fun _ _ _ _ _ => rfl) hi (fun m hm => hdepth m i hm) (by omega)
    (by omega) hk (by omega)

end Network

end JsonScada.Lib.Dataflow
