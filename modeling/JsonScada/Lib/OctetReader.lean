/- path: JsonScada/Lib/OctetReader
   layer: library
   digest: Readers that take octets from the front of a message, and what they make of octets
   written before others. -/

import JsonScada.Lib.Endian
import Mathlib.Data.List.Induction

set_option autoImplicit false
set_option relaxedAutoImplicit false

namespace JsonScada.Lib.OctetReader

open JsonScada.Lib.Endian

variable {α β : Type}

/-- What is read, with the octets that follow; none where they do not suffice. -/
abbrev Reader (α : Type) := StateT (List ℕ) Option α

def next : Reader ℕ
  | [] => none
  | b :: rest => some (b, rest)

/-- A number of `n` octets, the lowest first. -/
def number : ℕ → Reader ℕ
  | 0 => pure 0
  | n + 1 => do
    let b ← next
    let high ← number n
    return b + 256 * high

/-- These octets are read as this value, whatever follows them. -/
def Reads (r : Reader α) (octets : List ℕ) (a : α) : Prop :=
  ∀ rest, r (octets ++ rest) = some (a, rest)

namespace Reads

theorem pure (a : α) : Reads (Pure.pure a) [] a := fun _ => rfl

theorem bind {r : Reader α} {f : α → Reader β} {front back : List ℕ} {a : α} {b : β}
    (hr : Reads r front a) (hf : Reads (f a) back b) : Reads (r >>= f) (front ++ back) b := by
  intro rest
  have hfront := hr (back ++ rest)
  have hrun : (r >>= f) (front ++ (back ++ rest)) = f a (back ++ rest) := by
    change (r (front ++ (back ++ rest))).bind (fun p => f p.1 p.2) = _
    rw [hfront]
    rfl
  rw [List.append_assoc, hrun]
  exact hf rest

theorem map {r : Reader α} {octets : List ℕ} {a : α} (h : Reads r octets a) (f : α → β) :
    Reads (f <$> r) octets (f a) := by
  intro rest
  change (r (octets ++ rest)).bind (fun p => some (f p.1, p.2)) = _
  rw [h rest]
  rfl

theorem next (b : ℕ) : Reads next [b] b := fun _ => rfl

theorem number {n x : ℕ} (h : x < 256 ^ n) : Reads (number n) (bytes n x) x := by
  induction n generalizing x with
  | zero =>
    have hzero : x = 0 := by simpa using h
    subst hzero
    exact pure 0
  | succ n ih =>
    have hlt : x / 256 < 256 ^ n := by
      rw [pow_succ] at h
      omega
    have hsum : x % 256 + 256 * (x / 256) = x := by omega
    have hread := bind (f := fun b => (b + 256 * ·) <$> OctetReader.number n) (next (x % 256))
      ((ih hlt).map (x % 256 + 256 * ·))
    rw [hsum] at hread
    exact hread

theorem of_eq {r : Reader α} {octets : List ℕ} {a b : α} (h : Reads r octets a) (heq : a = b) :
    Reads r octets b := heq ▸ h

end Reads

section Records

theorem drop_records {records : List (List ℕ)} {n : ℕ} (h : ∀ r ∈ records, r.length = n) (i : ℕ) :
    records.flatten.drop (i * n) = (records.drop i).flatten := by
  induction records generalizing i with
  | nil => simp
  | cons record records ih =>
    have hlen := h record List.mem_cons_self
    cases i with
    | zero => simp
    | succ i =>
      have hsize : (i + 1) * n = record.length + i * n := by
        rw [hlen, Nat.succ_mul, Nat.add_comm]
      rw [List.flatten_cons, hsize, List.drop_append, List.drop_succ_cons]
      have hnone : List.drop (record.length + i * n) record = [] :=
        List.drop_eq_nil_of_le (Nat.le_add_right _ _)
      rw [hnone, List.nil_append, Nat.add_sub_cancel_left]
      exact ih (fun r hr => h r (List.mem_cons_of_mem _ hr)) i

theorem length_records {records : List (List ℕ)} {n : ℕ} (h : ∀ r ∈ records, r.length = n) :
    records.flatten.length = records.length * n := by
  induction records with
  | nil => simp
  | cons record records ih =>
    obtain ⟨hlen, hall⟩ := List.forall_mem_cons.mp h
    rw [List.flatten_cons, List.length_append, ih hall, hlen, List.length_cons, Nat.succ_mul,
      Nat.add_comm]

/-- A record is read where the records before it end. -/
theorem Reads.at {records : List (List ℕ)} {n i : ℕ} (h : ∀ r ∈ records, r.length = n)
    {r : Reader α} {octets : List ℕ} {a : α} (hi : records[i]? = some octets)
    (hr : Reads r octets a) : ∃ rest, r (records.flatten.drop (i * n)) = some (a, rest) := by
  obtain ⟨hlt, rfl⟩ := List.getElem?_eq_some_iff.mp hi
  rw [drop_records h, List.drop_eq_getElem_cons hlt, List.flatten_cons]
  exact ⟨_, hr _⟩

/-- The records that are written of a list, one of a length for each element. -/
theorem exists_records {f : α → Option (List ℕ)} {n : ℕ} {P : α → List ℕ → Prop} {l : List α}
    (h : ∀ a ∈ l, ∃ octets, f a = some octets ∧ octets.length = n ∧ P a octets) :
    ∃ records, l.mapM f = some records ∧ records.length = l.length ∧
      (∀ r ∈ records, r.length = n) ∧
      ∀ (i : ℕ) a, l[i]? = some a → ∃ octets, records[i]? = some octets ∧ P a octets := by
  induction l with
  | nil => exact ⟨[], rfl, rfl, fun r hr => absurd hr List.not_mem_nil, fun i a ha => by cases ha⟩
  | cons b l ih =>
    obtain ⟨octets, hoctets, hlen, hp⟩ := h b List.mem_cons_self
    obtain ⟨records, hrecords, hcount, hall, hget⟩ := ih fun a ha => h a (List.mem_cons_of_mem b ha)
    refine ⟨octets :: records, ?_, ?_, List.forall_mem_cons.mpr ⟨hlen, hall⟩, fun i a ha => ?_⟩
    · rw [List.mapM_cons, hoctets, hrecords]
      rfl
    · rw [List.length_cons, List.length_cons, hcount]
    · cases i with
      | zero =>
        obtain rfl := Option.some.inj ha
        exact ⟨octets, rfl, hp⟩
      | succ i => exact hget i a ha

/-- What is read one after the other by its index. -/
theorem mapM_range {f : ℕ → Option α} {l : List α} (h : ∀ i a, l[i]? = some a → f i = some a) :
    (List.range l.length).mapM f = some l := by
  induction l using List.reverseRecOn with
  | nil => rfl
  | append_singleton l a ih =>
    have hfront := ih fun i b hb => h i b (by
      obtain ⟨hlt, -⟩ := List.getElem?_eq_some_iff.mp hb
      rw [List.getElem?_append_left hlt, hb])
    have hlast := h l.length a (by simp)
    rw [List.length_append, List.length_singleton, List.range_succ, List.mapM_append, hfront]
    simp [hlast]

end Records

end JsonScada.Lib.OctetReader
