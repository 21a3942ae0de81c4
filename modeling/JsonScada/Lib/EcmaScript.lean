/- path: JsonScada/Lib/EcmaScript
   layer: library
   digest: ECMAScript primitive values, their comparisons, and number-text conversions. -/

import JsonScada.Lib.Binary64

set_option autoImplicit false
set_option relaxedAutoImplicit false

namespace JsonScada.Lib.EcmaScript

open JsonScada.Lib.Binary64

/-- A value received as JSON or stored in a document. A composite value is kept
as its text: it has an identity of its own and equals no other value. -/
inductive JsVal where
  | undefined
  | null
  | bool (b : Bool)
  | num (x : Number)
  | str (s : String)
  | obj (json : String)
  deriving DecidableEq

/-- `length` of a string: code units, two for a character beyond the basic plane. -/
def codeUnits (s : String) : ℕ :=
  (s.toList.map fun c => if c.toNat < 0x10000 then 1 else 2).sum

/-- The white space and line terminators that `trim` and the number parsers skip. -/
def isWhite (c : Char) : Bool :=
  [0x9, 0xa, 0xb, 0xc, 0xd, 0x20, 0xa0, 0x1680, 0x2028, 0x2029, 0x202f, 0x205f, 0x3000,
    0xfeff].contains c.toNat || (0x2000 ≤ c.toNat && c.toNat ≤ 0x200a)

def trimStart (s : List Char) : List Char := s.dropWhile isWhite

def trimEnd (s : List Char) : List Char := (s.reverse.dropWhile isWhite).reverse

def trim (s : List Char) : List Char := trimEnd (trimStart s)

/-- `String.prototype.replaceAll` of one character by a text. -/
def replaceAll (c : Char) (by' : List Char) (s : List Char) : List Char :=
  s.flatMap fun d => if d = c then by' else [d]

def digitValue (base : ℕ) (c : Char) : Option ℕ :=
  let v :=
    if '0' ≤ c ∧ c ≤ '9' then c.toNat - '0'.toNat
    else if 'a' ≤ c ∧ c ≤ 'z' then c.toNat - 'a'.toNat + 10
    else if 'A' ≤ c ∧ c ≤ 'Z' then c.toNat - 'A'.toNat + 10
    else base
  if v < base then some v else none

/-- The longest run of digits, and what follows it. -/
def spanDigits (base : ℕ) : List Char → List ℕ × List Char
  | [] => ([], [])
  | c :: cs => match digitValue base c with
    | none => ([], c :: cs)
    | some d => (d :: (spanDigits base cs).1, (spanDigits base cs).2)

def ofDigits (base : ℕ) (ds : List ℕ) : ℕ := ds.foldl (fun n d => n * base + d) 0

/-- An exponent part, when the text begins with a complete one. -/
def exponentPart : List Char → ℤ × List Char
  | [] => (0, [])
  | e :: cs =>
    if e = 'e' ∨ e = 'E' then
      let signed := match cs with
        | '+' :: ds => ((1 : ℤ), ds)
        | '-' :: ds => (-1, ds)
        | ds => (1, ds)
      match spanDigits 10 signed.2 with
      | ([], _) => (0, e :: cs)
      | (ds, rest) => (signed.1 * ofDigits 10 ds, rest)
    else (0, e :: cs)

/-- The longest unsigned decimal literal at the start of a text. -/
def decimalPrefix (s : List Char) : Option (Number × List Char) :=
  if "Infinity".toList.isPrefixOf s then some (.inf false, s.drop 8) else
    let whole := spanDigits 10 s
    let frac := match whole.2 with
      | '.' :: ds => spanDigits 10 ds
      | ds => ([], ds)
    if whole.1 ++ frac.1 = [] then none else
      let expo := exponentPart frac.2
      some (round binary64
        (ofDigits 10 (whole.1 ++ frac.1) * 10 ^ (expo.1 - (frac.1.length : ℤ))), expo.2)

def signedDecimalPrefix : List Char → Option (Number × List Char)
  | '+' :: cs => decimalPrefix cs
  | '-' :: cs => (decimalPrefix cs).map fun r => (r.1.neg, r.2)
  | cs => decimalPrefix cs

/-- A literal `0x…`, `0o…` or `0b…` that is the whole text. -/
def nonDecimalLiteral : List Char → Option Number
  | '0' :: x :: cs =>
    let base := if x = 'x' ∨ x = 'X' then 16 else if x = 'o' ∨ x = 'O' then 8
      else if x = 'b' ∨ x = 'B' then 2 else 0
    match spanDigits base cs with
    | ([], _) => none
    | (ds, []) => some (round binary64 (ofDigits base ds))
    | _ => none
  | _ => none

/-- `Number(text)`. -/
def stringToNumber (s : List Char) : Number :=
  let t := trim s
  if t = [] then .fin 0 else
    match nonDecimalLiteral t with
    | some x => x
    | none => match signedDecimalPrefix t with
      | some (x, []) => x
      | _ => .nan

/-- `parseFloat(text)`: the longest decimal prefix, white space skipped. -/
def parseFloat (s : List Char) : Number :=
  match signedDecimalPrefix (trimStart s) with
  | some (x, _) => x
  | none => .nan

/-- A sign, and what follows it. -/
def signPart : List Char → Bool × List Char
  | '+' :: cs => (false, cs)
  | '-' :: cs => (true, cs)
  | cs => (false, cs)

/-- The radix a text calls for, and what follows its mark. -/
def radixPart : List Char → ℕ × List Char
  | '0' :: 'x' :: cs => (16, cs)
  | '0' :: 'X' :: cs => (16, cs)
  | cs => (10, cs)

/-- `parseInt(text)` without a radix: the longest digit prefix, hexadecimal after `0x`. -/
def parseInt (s : List Char) : Number :=
  let signed := signPart (trimStart s)
  let based := radixPart signed.2
  match (spanDigits based.1 based.2).1 with
  | [] => .nan
  | ds =>
    let x := round binary64 (ofDigits based.1 ds)
    if signed.1 then x.neg else x

/-- A text that begins with neither space, sign nor digit is no number. -/
theorem parseInt_eq_nan {c : Char} (cs : List Char) (hw : isWhite c = false)
    (hd : digitValue 10 c = none) (hp : c ≠ '+') (hm : c ≠ '-') :
    parseInt (c :: cs) = .nan := by
  have hzero : c ≠ '0' := by
    rintro rfl
    cases hd
  have htrim : trimStart (c :: cs) = c :: cs := by
    rw [trimStart, List.dropWhile_cons, hw]
    rfl
  have hsign : signPart (c :: cs) = (false, c :: cs) := by
    simp [signPart, hp, hm]
  have hradix : radixPart (c :: cs) = (10, c :: cs) := by
    simp [radixPart, hzero]
  have hspan : (spanDigits 10 (c :: cs)).1 = [] := by
    rw [spanDigits, hd]
  simp only [parseInt, htrim, hsign, hradix, hspan]

example : parseInt "12abc".toList = .fin 12 := by decide +kernel

/-- Fewest significant digits that round back to the magnitude `q`, with the
position of the decimal point: the value is `0.ds` times ten to the position. -/
def shortestDigits (q : ℚ) : List Char × ℤ :=
  let n := Int.log 10 q + 1
  let attempt (k : ℕ) : ℕ := (nearestEven (q / 10 ^ (n - k))).toNat
  let good (k : ℕ) : Bool := round binary64 (attempt k * 10 ^ (n - k)) = .fin q
  let k := (((List.range 17).map (· + 1)).find? good).getD 17
  if attempt k = 10 ^ k then (['1'], n + 1) else (Nat.toDigits 10 (attempt k), n)

def formatExponent (e : ℤ) : List Char :=
  'e' :: (if e < 0 then '-' else '+') :: Nat.toDigits 10 e.natAbs

def formatDigits (ds : List Char) (n : ℤ) : List Char :=
  if (ds.length : ℤ) ≤ n ∧ n ≤ 21 then ds ++ List.replicate (n.toNat - ds.length) '0'
  else if 0 < n ∧ n ≤ 21 then ds.take n.toNat ++ '.' :: ds.drop n.toNat
  else if -6 < n ∧ n ≤ 0 then '0' :: '.' :: (List.replicate (-n).toNat '0' ++ ds)
  else match ds with
    | [d] => d :: formatExponent (n - 1)
    | ds => ds.take 1 ++ '.' :: (ds.drop 1 ++ formatExponent (n - 1))

/-- `Number.prototype.toString()`. -/
def numToString : Number → List Char
  | .nan => "NaN".toList
  | .inf false => "Infinity".toList
  | .inf true => "-Infinity".toList
  | .fin q =>
    if q = 0 then ['0']
    else if q < 0 then '-' :: formatDigits (shortestDigits (-q)).1 (shortestDigits (-q)).2
    else formatDigits (shortestDigits q).1 (shortestDigits q).2

/-- `Number.prototype.toFixed(f)`. -/
def toFixed (f : ℕ) : Number → List Char
  | .fin q =>
    if 10 ^ 21 ≤ |q| then numToString (.fin q) else
      let n := ⌊|q| * 10 ^ f + 1 / 2⌋.toNat
      let ds := Nat.toDigits 10 n
      let padded := List.replicate (f + 1 - ds.length) '0' ++ ds
      let whole := padded.take (padded.length - f)
      let frac := padded.drop (padded.length - f)
      (if q < 0 then ['-'] else []) ++ whole ++ (if f = 0 then [] else '.' :: frac)
  | x => numToString x

def fractionBits : ℕ → ℚ → List Char
  | 0, _ => []
  | n + 1, q =>
    if q = 0 then []
    else if 1 ≤ q * 2 then '1' :: fractionBits n (q * 2 - 1)
    else '0' :: fractionBits n (q * 2)

/-- `Number.prototype.toString(2)`; a finite double has at most 1074 fraction bits. -/
def toStringBinary : Number → List Char
  | .fin q =>
    let bits := fractionBits 1074 (|q| - ⌊|q|⌋)
    (if q < 0 then ['-'] else []) ++ Nat.toDigits 2 ⌊|q|⌋.toNat ++
      (if bits = [] then [] else '.' :: bits)
  | x => numToString x

/-- Truncation toward zero, as `ToInt32` and the bitwise operators use it. -/
def truncate (q : ℚ) : ℤ := if q < 0 then -⌊-q⌋ else ⌊q⌋

theorem truncate_intCast (z : ℤ) : truncate (z : ℚ) = z := by
  unfold truncate
  rw [← Int.cast_neg, Int.floor_intCast, Int.floor_intCast, neg_neg]
  split_ifs <;> rfl

/-- The 32 bits of a number, as the bitwise operators see them. -/
def toUint32 : Number → ℕ
  | .fin q => (truncate q % 2 ^ 32).toNat
  | _ => 0

/-- Year, month and day of a day counted from 1970-01-01 in the proleptic
Gregorian calendar. -/
def civilFromDays (days : ℤ) : ℤ × ℤ × ℤ :=
  let z := days + 719468
  let era := z / 146097
  let doe := z - era * 146097
  let yoe := (doe - doe / 1460 + doe / 36524 - doe / 146096) / 365
  let doy := doe - (365 * yoe + yoe / 4 - yoe / 100)
  let mp := (5 * doy + 2) / 153
  let d := doy - (153 * mp + 2) / 5 + 1
  let m := if mp < 10 then mp + 3 else mp - 9
  (yoe + era * 400 + (if m ≤ 2 then 1 else 0), m, d)

/-- `Date.prototype.getFullYear()` of an instant in milliseconds, in a zone that
is `zone` milliseconds ahead of UTC. -/
def getFullYear (zone ms : ℤ) : ℤ := (civilFromDays ((ms + zone) / 86400000)).1

def padded (width : ℕ) (n : ℤ) : List Char :=
  let ds := Nat.toDigits 10 n.natAbs
  List.replicate (width - ds.length) '0' ++ ds

/-- `Date.prototype.toISOString()`. -/
def toISOString (ms : ℤ) : List Char :=
  let days := ms / 86400000
  let rest := ms % 86400000
  let date := civilFromDays days
  let year :=
    if 0 ≤ date.1 ∧ date.1 ≤ 9999 then padded 4 date.1
    else (if date.1 < 0 then '-' else '+') :: padded 6 date.1
  year ++ '-' :: (padded 2 date.2.1 ++ '-' :: (padded 2 date.2.2 ++ 'T' ::
    (padded 2 (rest / 3600000) ++ ':' :: (padded 2 (rest / 60000 % 60) ++ ':' ::
      (padded 2 (rest / 1000 % 60) ++ '.' :: (padded 3 (rest % 1000) ++ ['Z']))))))

example : toISOString 951782400123 = "2000-02-29T00:00:00.123Z".toList := by decide +kernel

namespace JsVal

/-- `Number(v)`. -/
def toNumber : JsVal → Number
  | undefined => .nan
  | null => .fin 0
  | bool b => .fin (if b then 1 else 0)
  | num x => x
  | str s => stringToNumber s.toList
  | obj _ => .nan

def truthy : JsVal → Bool
  | undefined => false
  | null => false
  | bool b => b
  | num x => x ≠ .nan && x ≠ .fin 0
  | str s => s ≠ ""
  | obj _ => true

/-- `a === b`. -/
def strictEq : JsVal → JsVal → Bool
  | num x, num y => x.eqv y
  | obj _, obj _ => false
  | a, b => a = b

/-- `v & mask` is not zero. -/
def hasBit (v : JsVal) (mask : ℕ) : Bool := toUint32 v.toNumber &&& mask ≠ 0

theorem strictEq_eq {a b : JsVal} (h : strictEq a b = true) : a = b := by
  cases a <;> cases b <;> simp_all [strictEq, Number.eqv_iff]

end JsVal

end JsonScada.Lib.EcmaScript
