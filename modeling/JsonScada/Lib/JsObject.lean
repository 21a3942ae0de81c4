/- path: JsonScada/Lib/JsObject
   layer: library
   digest: JavaScript object values, member updates, and the JSON round trip. -/

import JsonScada.Lib.Json
import JsonScada.Lib.EcmaScript

set_option autoImplicit false
set_option relaxedAutoImplicit false

namespace JsonScada.Lib.JsObject

open JsonScada.Lib.Binary64 JsonScada.Lib.EcmaScript

/-- The members of an object in insertion order. -/
abbrev Members (α : Type) := List (String × α)

namespace Members

variable {α : Type}

def get (fs : Members α) (k : String) : Option α := fs.lookup k

/-- Assignment keeps the place of a member that is there and appends a new one. -/
def set : Members α → String → α → Members α
  | [], k, v => [(k, v)]
  | (j, w) :: fs, k, v => if j = k then (k, v) :: fs else (j, w) :: set fs k v

def delete (fs : Members α) (k : String) : Members α := fs.filter fun f => f.1 ≠ k

@[simp] theorem get_nil (k : String) : get ([] : Members α) k = none := rfl

theorem get_cons (j : String) (w : α) (fs : Members α) (k : String) :
    get ((j, w) :: fs) k = if k = j then some w else get fs k := by
  by_cases h : k = j
  · simp [get, h]
  · have hb : (k == j) = false := beq_eq_false_iff_ne.mpr h
    simp [get, List.lookup_cons, h, hb]

@[simp] theorem get_set_self (fs : Members α) (k : String) (v : α) :
    get (set fs k v) k = some v := by
  induction fs with
  | nil => simp [set, get_cons]
  | cons f fs ih =>
    obtain ⟨j, w⟩ := f
    by_cases h : j = k
    · simp [set, h, get_cons]
    · simp only [set, h, if_false, get_cons, Ne.symm h, ih]

theorem get_set_of_ne {j k : String} (h : j ≠ k) (fs : Members α) (v : α) :
    get (set fs k v) j = get fs j := by
  induction fs with
  | nil => simp [set, get_cons, h]
  | cons f fs ih =>
    obtain ⟨i, w⟩ := f
    by_cases hi : i = k
    · subst hi
      simp [set, get_cons, h]
    · simp only [set, hi, if_false, get_cons, ih]

@[simp] theorem get_delete_self (fs : Members α) (k : String) : get (delete fs k) k = none := by
  induction fs with
  | nil => rfl
  | cons f fs ih =>
    obtain ⟨j, w⟩ := f
    by_cases h : j = k
    · simpa [delete, h] using ih
    · have hne : delete ((j, w) :: fs) k = (j, w) :: delete fs k := by
        simp [delete, h]
      rw [hne, get_cons, if_neg (Ne.symm h), ih]

theorem get_delete_of_ne {j k : String} (h : j ≠ k) (fs : Members α) :
    get (delete fs k) j = get fs j := by
  induction fs with
  | nil => rfl
  | cons f fs ih =>
    obtain ⟨i, w⟩ := f
    by_cases hi : i = k
    · have hskip : delete ((i, w) :: fs) k = delete fs k := by
        simp [delete, hi]
      rw [hskip, ih, get_cons, if_neg (hi ▸ h)]
    · have hkeep : delete ((i, w) :: fs) k = (i, w) :: delete fs k := by
        simp [delete, hi]
      rw [hkeep, get_cons, get_cons, ih]

@[simp] theorem set_set_self (fs : Members α) (k : String) (v w : α) :
    set (set fs k v) k w = set fs k w := by
  induction fs with
  | nil => simp [set]
  | cons f fs ih =>
    obtain ⟨j, u⟩ := f
    by_cases h : j = k
    · simp [set, h]
    · simp [set, h, ih]

/-- Assignments to two members commute when the first of them is already there. -/
theorem set_comm {j k : String} (hne : j ≠ k) {fs : Members α} (hj : get fs j ≠ none)
    (v w : α) : set (set fs k v) j w = set (set fs j w) k v := by
  induction fs with
  | nil => exact absurd rfl hj
  | cons f fs ih =>
    obtain ⟨i, u⟩ := f
    by_cases hij : i = j
    · subst hij
      simp [set, hne]
    · have hj' : get fs j ≠ none := by
        rwa [get_cons, if_neg (Ne.symm hij)] at hj
      by_cases hik : i = k
      · subst hik
        simp [set, hij]
      · simp [set, hij, hik, ih hj']

end Members

/-- A value of a plain object. The undefined value is the absence of a member; an
invalid date has no instant. -/
inductive Value where
  | null
  | bool (b : Bool)
  | num (x : Number)
  | str (s : String)
  | date (ms : Option ℤ)
  | arr (vs : List Value)
  | obj (fs : List (String × Value))

abbrev Fields := Members Value

namespace Value

/-- `v?.k`. -/
def member (v : Option Value) (k : String) : Option Value :=
  match v with
  | some (.obj fs) => Members.get fs k
  | _ => none

@[simp] theorem member_obj (fs : Fields) (k : String) :
    member (some (.obj fs)) k = Members.get fs k := rfl

/-- The object with one member of it replaced; a missing member stays missing. -/
def modify (k : String) (f : Value → Value) : Value → Value
  | .obj fs => .obj ((Members.get fs k).elim fs fun v => Members.set fs k (f v))
  | v => v

/-- What a condition makes of a member that may be undefined. -/
def truthy : Option Value → Bool
  | none => false
  | some .null => false
  | some (.bool b) => b
  | some (.num x) => x ≠ .nan && x ≠ .fin 0
  | some (.str s) => s ≠ ""
  | some _ => true

/-- `v.length`, of a text in code units. -/
def length : Value → ℕ
  | .str s => codeUnits s
  | .arr vs => vs.length
  | _ => 0

mutual

/-- The text `JSON.stringify` writes. -/
def stringify : Value → List Char
  | .null => "null".toList
  | .bool b => if b then "true".toList else "false".toList
  | .num x => match x with
    | .fin q => numToString (.fin q)
    | _ => "null".toList
  | .str s => Json.quote s.toList
  | .date ms => ms.elim "null".toList fun t => Json.quote (toISOString t)
  | .arr vs => '[' :: stringifyAll vs
  | .obj fs => '\x7b' :: stringifyFields fs

def stringifyAll : List Value → List Char
  | [] => [']']
  | [v] => stringify v ++ [']']
  | v :: vs => stringify v ++ ',' :: stringifyAll vs

def stringifyFields : List (String × Value) → List Char
  | [] => ['\x7d']
  | [(k, v)] => Json.quote k.toList ++ ':' :: (stringify v ++ ['\x7d'])
  | (k, v) :: fs => Json.quote k.toList ++ ':' :: (stringify v ++ ',' :: stringifyFields fs)

end

/-- Null is joined as the empty text. -/
def isNull : Value → Bool
  | .null => true
  | _ => false

mutual

/-- `String(v)` of a parsed value, which holds no dates; an object with a `toString` of its
own, which is no function, throws. -/
def text : Value → Option (List Char)
  | .null => some "null".toList
  | .bool b => some (if b then "true".toList else "false".toList)
  | .num x => some (numToString x)
  | .str s => some s.toList
  | .date _ => none
  | .arr vs => joinTexts vs
  | .obj fs => if (Members.get fs "toString").isSome then none else some "[object Object]".toList

/-- `vs.join()` -/
def joinTexts : List Value → Option (List Char)
  | [] => some []
  | v :: vs =>
    match if isNull v then some [] else text v, joinTexts vs with
    | some t, some ts => some (if vs.isEmpty then t else t ++ ',' :: ts)
    | _, _ => none

end

/-- `v.toString()` -/
def toStringCall : Value → Option (List Char)
  | .null => none
  | v => text v

mutual

/-- What `JSON.parse` reads back from that text: a date comes back as its ISO text
and a number that is not finite as null. -/
def reread : Value → Value
  | .num x => match x with
    | .fin q => .num (.fin q)
    | _ => .null
  | .date ms => ms.elim .null fun t => .str (String.ofList (toISOString t))
  | .arr vs => .arr (rereadAll vs)
  | .obj fs => .obj (rereadFields fs)
  | v => v

def rereadAll : List Value → List Value
  | [] => []
  | v :: vs => reread v :: rereadAll vs

def rereadFields : List (String × Value) → Fields
  | [] => []
  | (k, v) :: fs => (k, reread v) :: rereadFields fs

end

@[simp] theorem reread_obj (fs : Fields) : reread (.obj fs) = .obj (rereadFields fs) := by
  simp only [reread]

@[simp] theorem reread_str (s : String) : reread (.str s) = .str s := by
  simp only [reread]

@[simp] theorem reread_bool (b : Bool) : reread (.bool b) = .bool b := by
  simp only [reread]

theorem get_rereadFields (fs : Fields) (k : String) :
    Members.get (rereadFields fs) k = (Members.get fs k).map reread := by
  induction fs with
  | nil => simp [rereadFields]
  | cons f fs ih =>
    obtain ⟨j, w⟩ := f
    by_cases h : k = j
    · simp [rereadFields, Members.get_cons, h]
    · simp only [rereadFields, Members.get_cons, h, if_false, ih]

theorem rereadFields_set (fs : Fields) (k : String) (v : Value) :
    rereadFields (Members.set fs k v) = Members.set (rereadFields fs) k (reread v) := by
  induction fs with
  | nil => simp [rereadFields, Members.set]
  | cons f fs ih =>
    obtain ⟨j, w⟩ := f
    by_cases h : j = k
    · simp [rereadFields, Members.set, h]
    · simp [rereadFields, Members.set, h, ih]

example : stringify (.obj [("a", .arr [.null, .bool true]), ("b", .date (some 0))]) =
    "\x7b\"a\":[null,true],\"b\":\"1970-01-01T00:00:00.000Z\"\x7d".toList := by decide +kernel

end Value

end JsonScada.Lib.JsObject
