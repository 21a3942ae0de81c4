/- path: JsonScada/Lib/Golang
   layer: library
   digest: Strings, conversions of floats and maps of the Go library. -/

import JsonScada.Lib.EcmaScript
import JsonScada.Lib.Collection
import Mathlib.Data.List.DropRight

set_option autoImplicit false
set_option relaxedAutoImplicit false

namespace JsonScada.Lib.Golang

open JsonScada.Lib.Binary64
open JsonScada.Lib.Collection (findLast? findLast?_eq_some_iff)
open JsonScada.Lib.EcmaScript (truncate)

section Strings

/-- `unicode.IsSpace` -/
def isSpace (c : Char) : Bool :=
  [0x9, 0xa, 0xb, 0xc, 0xd, 0x20, 0x85, 0xa0, 0x1680, 0x2028, 0x2029, 0x202f, 0x205f,
    0x3000].contains c.toNat || (0x2000 ≤ c.toNat && c.toNat ≤ 0x200a)

/-- The characters `strings.TrimSpace` leaves. -/
def trimmed (s : List Char) : List Char := (s.dropWhile isSpace).rdropWhile isSpace

/-- `strings.TrimSpace` -/
def trimSpace (s : String) : String := String.ofList (trimmed s.toList)

theorem trimmed_trimmed (s : List Char) : trimmed (trimmed s) = trimmed s := by
  have hhead : (trimmed s).dropWhile isSpace = trimmed s := by
    rw [List.dropWhile_eq_self_iff]
    intro hpos
    have hlead : (trimmed s) <+: s.dropWhile isSpace := List.rdropWhile_prefix isSpace _
    have hlong : 0 < (s.dropWhile isSpace).length := hpos.trans_le hlead.length_le
    have hget : (trimmed s)[0] = (s.dropWhile isSpace)[0] := hlead.getElem hpos
    have hkept := List.dropWhile_get_zero_not isSpace s hlong
    rw [List.get_eq_getElem] at hkept
    rwa [hget]
  rw [trimmed, hhead]
  exact List.rdropWhile_idempotent isSpace _

theorem trimSpace_trimSpace (s : String) : trimSpace (trimSpace s) = trimSpace s := by
  rw [trimSpace, trimSpace, String.toList_ofList, trimmed_trimmed]

/-- `fmt.Sprintf("%f", value)`; the model has no negative zero. -/
def formatF : Number → String
  | .nan => "NaN"
  | .inf neg => if neg then "-Inf" else "+Inf"
  | .fin q =>
    let n := (nearestEven (|q| * 10 ^ 6)).toNat
    let frac := (Nat.toDigits 10 (n % 10 ^ 6))
    (if q < 0 then "-" else "") ++ toString (n / 10 ^ 6) ++ "." ++
      String.ofList (List.replicate (6 - frac.length) '0' ++ frac)

/-- `fmt.Sprintf("%0*d", width, n)` of a number that is not negative. -/
def formatD (width n : ℕ) : String :=
  let digits := Nat.toDigits 10 n
  String.ofList (List.replicate (width - digits.length) '0' ++ digits)

/-- Leading zeros do not make two numbers one. -/
theorem formatD_inj {width n m : ℕ} (h : formatD width n = formatD width m) : n = m := by
  have hvalue : ∀ k, Nat.ofDigitChars 10 (formatD width k).toList 0 = k := by
    intro k
    rw [formatD, String.toList_ofList, Nat.ofDigitChars_append, Nat.ofDigitChars_replicate_zero,
      mul_zero, Nat.ofDigitChars_ten_toDigits]
  rw [← hvalue n, h, hvalue]

end Strings

section Conversions

/-- A float cut off to a number of bits with sign; outside the range the result is the smallest
number, as the conversion instruction of the processor has it. -/
def cutOff (bits : ℕ) : Number → ℤ
  | .fin q =>
    if -2 ^ (bits - 1) ≤ truncate q ∧ truncate q < 2 ^ (bits - 1) then truncate q
    else -2 ^ (bits - 1)
  | _ => -2 ^ (bits - 1)

def int64 : Number → ℤ := cutOff 64

def int32 : Number → ℤ := cutOff 32

/-- The conversion to 16 bits takes the lower half of one to 32. -/
def int16 (x : Number) : ℤ := (int32 x + 2 ^ 15) % 2 ^ 16 - 2 ^ 15

def uint16 (x : Number) : ℕ := (int32 x % 2 ^ 16).toNat

def uint32 (x : Number) : ℕ := (int64 x % 2 ^ 32).toNat

end Conversions

section Maps

universe u v w

/-- A map that is only looked up. -/
abbrev Map (κ : Type u) (α : Type v) := κ → Option α

variable {κ : Type u} {α : Type v} {β : Type w} [DecidableEq κ]

/-- `m[k] = a` -/
def Map.set (m : Map κ α) (k : κ) (a : α) : Map κ α := Function.update m k (some a)

/-- The map after an assignment for each entry, in order. -/
def Map.ofEntries (entries : List (κ × α)) : Map κ α :=
  entries.foldl (fun m e => m.set e.1 e.2) fun _ => none

theorem Map.set_apply (m : Map κ α) (k k' : κ) (a : α) :
    m.set k a k' = if k' = k then some a else m k' :=
  Function.update_apply m k (some a) k'

/-- The last assignment to a key is the one a lookup finds. -/
theorem Map.ofEntries_apply (entries : List (κ × α)) (k : κ) :
    Map.ofEntries entries k = (findLast? (fun e => e.1 = k) entries).map Prod.snd := by
  induction entries using List.reverseRecOn with
  | nil => rfl
  | append_singleton entries e ih =>
    rw [ofEntries] at ih ⊢
    rw [List.foldl_append, List.foldl_cons, List.foldl_nil, Map.set_apply, findLast?,
      List.reverse_append, List.reverse_singleton, List.singleton_append, List.find?_cons]
    by_cases h : e.1 = k
    · rw [if_pos h.symm]
      simp [h]
    · rw [if_neg fun h' => h h'.symm, ih]
      simp [h, findLast?]

theorem Map.ofEntries_map (key : β → κ) (val : β → α) (c : List β) (k : κ) :
    Map.ofEntries (c.map fun b => (key b, val b)) k =
      (findLast? (fun b => key b = k) c).map val := by
  rw [Map.ofEntries_apply, findLast?, findLast?, ← List.map_reverse, List.find?_map,
    Option.map_map]
  rfl

/-- A map of entries by their keys has the last entry of a key. -/
theorem Map.ofEntries_self (key : β → κ) (c : List β) (k : κ) :
    Map.ofEntries (c.map fun b => (key b, b)) k = findLast? (fun b => key b = k) c := by
  have h := Map.ofEntries_map key id c k
  rwa [Option.map_id] at h

/-- Where no key has two values the map has the entries, in any order. -/
theorem Map.ofEntries_eq_some_iff {entries : List (κ × α)}
    (h : ∀ e ∈ entries, ∀ f ∈ entries, e.1 = f.1 → e = f) {k : κ} {a : α} :
    Map.ofEntries entries k = some a ↔ (k, a) ∈ entries := by
  rw [Map.ofEntries_apply, Option.map_eq_some_iff]
  constructor
  · rintro ⟨⟨k', a'⟩, hlast, rfl⟩
    obtain ⟨hkey, pre, post, hsplit, -⟩ := findLast?_eq_some_iff.mp hlast
    obtain rfl : k' = k := of_decide_eq_true hkey
    rw [hsplit]
    exact List.mem_append_right pre List.mem_cons_self
  · intro hmem
    cases hlast : findLast? (fun e : κ × α => e.1 = k) entries with
    | none =>
      have hnone := List.find?_eq_none.mp hlast (k, a) (List.mem_reverse.mpr hmem)
      exact absurd (decide_eq_true rfl) hnone
    | some e =>
      obtain ⟨hkey, pre, post, hsplit, -⟩ := findLast?_eq_some_iff.mp hlast
      have hin : e ∈ entries := by
        rw [hsplit]
        exact List.mem_append_right pre List.mem_cons_self
      exact ⟨e, rfl, congrArg Prod.snd (h e hin (k, a) hmem (of_decide_eq_true hkey))⟩

end Maps

section Entries

universe u v
variable {α : Type u} {κ : Type v} [DecidableEq κ] {key : α → κ} {c : List α} {a x : α}

/-- `m[k] = a` for a map that is ranged over, by its entries. -/
def assign (key : α → κ) (a : α) (c : List α) : List α :=
  if c.any fun x => key x = key a then c.map fun x => if key x = key a then a else x
  else c ++ [a]

theorem mem_assign : x ∈ assign key a c ↔ x = a ∨ x ∈ c ∧ key x ≠ key a := by
  rw [assign]
  split_ifs with h
  · obtain ⟨b, hb, hkey⟩ := List.any_eq_true.mp h
    rw [List.mem_map]
    constructor
    · rintro ⟨y, hy, rfl⟩
      split_ifs with hya
      · exact .inl rfl
      · exact .inr ⟨hy, hya⟩
    · rintro (rfl | ⟨hx, hne⟩)
      · exact ⟨b, hb, if_pos (of_decide_eq_true hkey)⟩
      · exact ⟨x, hx, if_neg hne⟩
  · have hnone : ∀ y ∈ c, key y ≠ key a := by
      intro y hy heq
      exact h (List.any_eq_true.mpr ⟨y, hy, decide_eq_true heq⟩)
    rw [List.mem_append, List.mem_singleton]
    constructor
    · rintro (hx | rfl)
      · exact .inr ⟨hx, hnone x hx⟩
      · exact .inl rfl
    · rintro (rfl | ⟨hx, -⟩)
      · exact .inr rfl
      · exact .inl hx

theorem nodup_assign (h : (c.map key).Nodup) : ((assign key a c).map key).Nodup := by
  rw [assign]
  split_ifs with hany
  · have hkeys : (c.map fun x => if key x = key a then a else x).map key = c.map key := by
      rw [List.map_map]
      refine List.map_congr_left fun x _ => ?_
      rw [Function.comp_apply]
      split_ifs with hx
      · exact hx.symm
      · rfl
    rwa [hkeys]
  · rw [List.map_append, List.map_singleton, ← List.concat_eq_append]
    refine h.concat fun hmem => ?_
    obtain ⟨x, hx, hkey⟩ := List.mem_map.mp hmem
    exact hany (List.any_eq_true.mpr ⟨x, hx, decide_eq_true hkey⟩)

/-- What is at a key is the entry with this key. -/
theorem filter_eq_toList {k : κ} (h : (c.map key).Nodup) :
    c.filter (fun x => key x = k) = (c.find? fun x => key x = k).toList := by
  induction c with
  | nil => rfl
  | cons b c ih =>
    rw [List.map_cons, List.nodup_cons] at h
    by_cases hb : key b = k
    · have hrest : c.filter (fun x => key x = k) = [] := by
        refine List.filter_eq_nil_iff.mpr fun x hx hxk => h.1 ?_
        rw [hb, ← of_decide_eq_true hxk]
        exact List.mem_map_of_mem hx
      simp [hb, hrest]
    · simp [hb, ih h.2]

theorem find?_eq_some_iff_mem {k : κ} (h : (c.map key).Nodup) :
    c.find? (fun x => key x = k) = some x ↔ x ∈ c ∧ key x = k := by
  have hmem : x ∈ c.filter (fun x => key x = k) ↔ x ∈ c ∧ key x = k := by
    rw [List.mem_filter, decide_eq_true_iff]
  rw [← hmem, filter_eq_toList h, Option.mem_toList]

/-- Another order of the entries has the same entry at a key. -/
theorem find?_eq_of_perm {d : List α} {k : κ} (h : (c.map key).Nodup) (hperm : d.Perm c) :
    d.find? (fun x => key x = k) = c.find? fun x => key x = k := by
  have hd : (d.map key).Nodup := (hperm.map key).nodup_iff.mpr h
  ext x
  rw [find?_eq_some_iff_mem hd, find?_eq_some_iff_mem h, hperm.mem_iff]

end Entries

end JsonScada.Lib.Golang
