/- path: JsonScada/Lib/Endian
   layer: library
   digest: Bytes of a fixed-width number in either order, and what reading them in the
     other order makes of it. -/

import Mathlib.Data.Nat.ModEq
import Mathlib.Tactic.NormNum

set_option autoImplicit false
set_option relaxedAutoImplicit false

namespace JsonScada.Lib.Endian

inductive ByteOrder where
  | little
  | big
  deriving DecidableEq

/-- The lowest `n` bytes of a number, the least significant one first. -/
def bytes : ℕ → ℕ → List ℕ
  | 0, _ => []
  | n + 1, x => x % 256 :: bytes n (x / 256)

/-- The number with these bytes, the least significant one first. -/
def ofBytes : List ℕ → ℕ
  | [] => 0
  | b :: bs => b + 256 * ofBytes bs

/-- `PutUint…` -/
def put (o : ByteOrder) (n x : ℕ) : List ℕ :=
  match o with
  | .little => bytes n x
  | .big => (bytes n x).reverse

/-- `Uint…` -/
def get (o : ByteOrder) (bs : List ℕ) : ℕ :=
  match o with
  | .little => ofBytes bs
  | .big => ofBytes bs.reverse

/-- A number written in one order and read in another. -/
def reread (n : ℕ) (o o' : ByteOrder) (x : ℕ) : ℕ := get o' (put o n x)

def reverseBytes (n x : ℕ) : ℕ := ofBytes (bytes n x).reverse

@[simp] theorem length_bytes (n x : ℕ) : (bytes n x).length = n := by
  induction n generalizing x with
  | zero => rfl
  | succ n ih => simp [bytes, ih]

theorem lt_of_mem_bytes {n x b : ℕ} (h : b ∈ bytes n x) : b < 256 := by
  induction n generalizing x with
  | zero => cases h
  | succ n ih =>
    rcases List.mem_cons.mp h with rfl | h
    · exact Nat.mod_lt x (by norm_num)
    · exact ih h

theorem ofBytes_bytes {n x : ℕ} (h : x < 256 ^ n) : ofBytes (bytes n x) = x := by
  induction n generalizing x with
  | zero =>
    have hzero : x = 0 := by simpa using h
    rw [hzero]
    rfl
  | succ n ih =>
    have hlt : x / 256 < 256 ^ n := by
      rw [pow_succ] at h
      omega
    show x % 256 + 256 * ofBytes (bytes n (x / 256)) = x
    rw [ih hlt]
    omega

theorem bytes_ofBytes {bs : List ℕ} (h : ∀ b ∈ bs, b < 256) : bytes bs.length (ofBytes bs) = bs := by
  induction bs with
  | nil => rfl
  | cons b bs ih =>
    have hb : b < 256 := h b List.mem_cons_self
    have htail := ih fun c hc => h c (List.mem_cons_of_mem b hc)
    have hmod : (b + 256 * ofBytes bs) % 256 = b := by omega
    have hdiv : (b + 256 * ofBytes bs) / 256 = ofBytes bs := by omega
    show (b + 256 * ofBytes bs) % 256 :: bytes bs.length ((b + 256 * ofBytes bs) / 256) = b :: bs
    rw [hmod, hdiv, htail]

theorem ofBytes_lt {bs : List ℕ} (h : ∀ b ∈ bs, b < 256) : ofBytes bs < 256 ^ bs.length := by
  induction bs with
  | nil => exact Nat.one_pos
  | cons b bs ih =>
    have hb : b < 256 := h b List.mem_cons_self
    have htail := ih fun c hc => h c (List.mem_cons_of_mem b hc)
    show b + 256 * ofBytes bs < 256 ^ (bs.length + 1)
    rw [pow_succ]
    omega

theorem reverseBytes_lt (n x : ℕ) : reverseBytes n x < 256 ^ n := by
  have hmem : ∀ b ∈ (bytes n x).reverse, b < 256 := fun b hb =>
    lt_of_mem_bytes (List.mem_reverse.mp hb)
  have hlt := ofBytes_lt hmem
  rwa [List.length_reverse, length_bytes] at hlt

theorem reverseBytes_reverseBytes {n x : ℕ} (h : x < 256 ^ n) :
    reverseBytes n (reverseBytes n x) = x := by
  have hmem : ∀ b ∈ (bytes n x).reverse, b < 256 := fun b hb =>
    lt_of_mem_bytes (List.mem_reverse.mp hb)
  have hback := bytes_ofBytes hmem
  rw [List.length_reverse, length_bytes] at hback
  unfold reverseBytes
  rw [hback, List.reverse_reverse, ofBytes_bytes h]

theorem reread_same {n x : ℕ} (o : ByteOrder) (h : x < 256 ^ n) : reread n o o x = x := by
  cases o with
  | little => exact ofBytes_bytes h
  | big =>
    show ofBytes (bytes n x).reverse.reverse = x
    rw [List.reverse_reverse, ofBytes_bytes h]

theorem reread_other {n x : ℕ} {o o' : ByteOrder} (h : o ≠ o') :
    reread n o o' x = reverseBytes n x := by
  cases o with
  | little =>
    cases o' with
    | little => exact absurd rfl h
    | big => rfl
  | big =>
    cases o' with
    | little => rfl
    | big => exact absurd rfl h

/-- Reading in another order reverses the bytes, reading in the same order does nothing. -/
theorem reread_eq {n x : ℕ} (o o' : ByteOrder) (h : x < 256 ^ n) :
    reread n o o' x = if o = o' then x else reverseBytes n x := by
  split_ifs with heq
  · rw [heq, reread_same o' h]
  · exact reread_other heq

end JsonScada.Lib.Endian
