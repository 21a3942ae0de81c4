/- path: JsonScada/Lib/Flow
   layer: library
   digest: A numbered stream of items over a channel that keeps their order, with
   cumulative confirmations on the way back. -/

import Mathlib.Data.List.Basic
import Mathlib.Data.List.Chain

set_option autoImplicit false
set_option relaxedAutoImplicit false

namespace JsonScada.Lib

universe u
variable {α : Type u}

/-- One direction of a connection: what was sent and what was received, the numbered items
in flight, the count the sender knows to be received, the count the receiver told last,
and the counts in flight. -/
structure Flow (α : Type u) where
  sent : List α := []
  received : List α := []
  items : List (ℕ × α) := []
  acked : ℕ := 0
  told : ℕ := 0
  acks : List ℕ := []

namespace Flow

/-- An item is sent under its number. -/
def send (f : Flow α) (x : α) : Flow α :=
  { f with sent := f.sent ++ [x], items := f.items ++ [(f.sent.length, x)] }

/-- The next item in flight is received. -/
def receive (f : Flow α) (x : α) : Flow α :=
  { f with received := f.received ++ [x], items := f.items.drop 1 }

/-- The receiver tells how many items it has. -/
def tell (f : Flow α) : Flow α :=
  { f with told := f.received.length, acks := f.acks ++ [f.received.length] }

/-- The next count in flight reaches the sender. -/
def hear (f : Flow α) (n : ℕ) : Flow α :=
  { f with acked := n, acks := f.acks.drop 1 }

/-- Received and in flight make up what was sent, the items in flight carry their numbers,
and the counts rise from the one the sender knows to the one told last. -/
structure Sound (f : Flow α) : Prop where
  data : f.received ++ f.items.map Prod.snd = f.sent
  numbers : f.items.map Prod.fst = List.range' f.received.length f.items.length
  told_le : f.told ≤ f.received.length
  rising : (f.acked :: f.acks).Pairwise (· ≤ ·)
  last : f.acks.getLastD f.acked = f.told

theorem Sound.start : Sound ({} : Flow α) :=
  ⟨rfl, rfl, le_rfl, List.pairwise_singleton _ _, rfl⟩

namespace Sound

variable {f : Flow α}

theorem received_prefix (h : Sound f) : f.received <+: f.sent :=
  ⟨_, h.data⟩

theorem sent_length (h : Sound f) : f.sent.length = f.received.length + f.items.length := by
  rw [← h.data, List.length_append, List.length_map]

theorem told_mem (h : Sound f) : f.told ∈ f.acked :: f.acks := by
  rw [← h.last]
  exact List.getLastD_mem_cons

theorem acked_le_told (h : Sound f) : f.acked ≤ f.told := by
  rcases List.mem_cons.mp h.told_mem with heq | hmem
  · exact heq.ge
  · exact List.rel_of_pairwise_cons h.rising hmem

/-- No count in flight is above the one told last. -/
theorem le_told (h : Sound f) {n : ℕ} (hn : n ∈ f.acks) : n ≤ f.told := by
  have hrising := (List.pairwise_cons.mp h.rising).2
  rw [← h.last]
  induction hacks : f.acks using List.reverseRecOn with
  | nil =>
    rw [hacks] at hn
    exact absurd hn List.not_mem_nil
  | append_singleton l a _ =>
    rw [hacks] at hn hrising
    rw [List.getLastD_concat]
    rcases List.mem_append.mp hn with hmem | hmem
    · exact (List.pairwise_append.mp hrising).2.2 n hmem a (List.mem_singleton_self a)
    · exact (List.mem_singleton.mp hmem).le

/-- The next item in flight carries the number the receiver expects. -/
theorem head_item (h : Sound f) {n : ℕ} {x : α} {rest : List (ℕ × α)}
    (hitems : f.items = (n, x) :: rest) : n = f.received.length := by
  have hnum := h.numbers
  rw [hitems, List.map_cons, List.length_cons, List.range'_succ] at hnum
  exact (List.cons_eq_cons.mp hnum).1

/-- The next count in flight is one the sender can take: not below what it knows and not
above what it sent. -/
theorem head_ack (h : Sound f) {n : ℕ} {rest : List ℕ} (hacks : f.acks = n :: rest) :
    f.acked ≤ n ∧ n ≤ f.sent.length := by
  have hmem : n ∈ f.acks := by
    rw [hacks]
    exact List.mem_cons_self
  have htold := h.le_told hmem
  have hle := h.told_le
  have hlen := h.sent_length
  exact ⟨List.rel_of_pairwise_cons h.rising hmem, by omega⟩

theorem send (h : Sound f) (x : α) : Sound (f.send x) := by
  refine ⟨?_, ?_, h.told_le, h.rising, h.last⟩
  · simp only [Flow.send, List.map_append, List.map_cons, List.map_nil]
    rw [← List.append_assoc, h.data]
  · simp only [Flow.send, List.map_append, List.map_cons, List.map_nil, List.length_append,
      List.length_singleton]
    rw [h.numbers, List.range'_concat, h.sent_length, Nat.one_mul]

theorem receive (h : Sound f) {n : ℕ} {x : α} {rest : List (ℕ × α)}
    (hitems : f.items = (n, x) :: rest) : Sound (f.receive x) := by
  have hdata := h.data
  have hnum := h.numbers
  have hle := h.told_le
  rw [hitems] at hdata hnum
  refine ⟨?_, ?_, ?_, h.rising, h.last⟩
  · simp only [Flow.receive, hitems, List.drop_succ_cons, List.drop_zero]
    rw [← hdata, List.map_cons, List.append_assoc]
    rfl
  · simp only [Flow.receive, hitems, List.drop_succ_cons, List.drop_zero, List.length_append,
      List.length_singleton]
    rw [List.map_cons, List.length_cons, List.range'_succ] at hnum
    exact (List.cons_eq_cons.mp hnum).2
  · simp only [Flow.receive, List.length_append, List.length_singleton]
    omega

theorem tell (h : Sound f) : Sound f.tell := by
  refine ⟨h.data, h.numbers, le_rfl, ?_, ?_⟩
  · have happend : f.acked :: (f.acks ++ [f.received.length]) =
        (f.acked :: f.acks) ++ [f.received.length] := rfl
    simp only [Flow.tell]
    rw [happend, List.pairwise_append]
    refine ⟨h.rising, List.pairwise_singleton _ _, ?_⟩
    intro a ha b hb
    rw [List.mem_singleton.mp hb]
    have hle := h.told_le
    rcases List.mem_cons.mp ha with rfl | hmem
    · have := h.acked_le_told
      omega
    · have := h.le_told hmem
      omega
  · simp only [Flow.tell]
    rw [List.getLastD_concat]

theorem hear (h : Sound f) {n : ℕ} {rest : List ℕ} (hacks : f.acks = n :: rest) :
    Sound (f.hear n) := by
  have hrising := h.rising
  have hlast := h.last
  rw [hacks] at hrising hlast
  refine ⟨h.data, h.numbers, h.told_le, ?_, ?_⟩
  · simp only [Flow.hear, hacks, List.drop_succ_cons, List.drop_zero]
    exact (List.pairwise_cons.mp hrising).2
  · simp only [Flow.hear, hacks, List.drop_succ_cons, List.drop_zero]
    rw [List.getLastD_cons] at hlast
    exact hlast

/-- With nothing in flight everything was received, and the sender knows what the receiver
told. -/
theorem quiet (h : Sound f) (hitems : f.items = []) (hacks : f.acks = []) :
    f.received = f.sent ∧ f.acked = f.told := by
  have hdata := h.data
  have hlast := h.last
  rw [hitems, List.map_nil, List.append_nil] at hdata
  rw [hacks] at hlast
  exact ⟨hdata, hlast⟩

end Sound

end Flow

end JsonScada.Lib
