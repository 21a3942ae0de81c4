/- path: JsonScada/Lib/Json
   layer: library
   digest: A pushdown recogniser of JSON texts that decodes strings and outer members. -/

import JsonScada.Lib.Machine
import Mathlib.Tactic.IntervalCases

set_option autoImplicit false
set_option relaxedAutoImplicit false

namespace JsonScada.Lib.Json

open JsonScada.Lib.Machine

inductive Frame where
  | obj
  | arr
  deriving DecidableEq

/-- Where in a string the recogniser is: among plain characters, after a backslash,
in the digits of a unicode escape, or between the two escapes of a surrogate pair. -/
inductive Escape where
  | plain
  | backslash
  | hex (high : Option ℕ) (count value : ℕ)
  | low (high : ℕ)
  | lowBackslash (high : ℕ)
  deriving DecidableEq

inductive NumPart where
  | minus
  | zero
  | int
  | dot
  | frac
  | exp
  | expSign
  | expDigits
  deriving DecidableEq

inductive Literal where
  | true
  | false
  | null
  deriving DecidableEq

def Literal.letters : Literal → List Char
  | .true => ['t', 'r', 'u', 'e']
  | .false => ['f', 'a', 'l', 's', 'e']
  | .null => ['n', 'u', 'l', 'l']

inductive Mode where
  | value
  | arrStart
  | objStart
  | key
  | string (isKey : Bool) (escape : Escape)
  | colon
  | literal (word : Literal) (count : ℕ)
  | number (part : NumPart)
  | after
  deriving DecidableEq

/-- The recogniser after some characters: what it expects, the open containers, the
current token in reverse, and what the outermost value has shown so far. A value is
kept as its text when it is a string, and as `none` otherwise. -/
structure State where
  mode : Mode := .value
  stack : List Frame := []
  text : List Char := []
  name : List Char := []
  members : List (List Char × Option (List Char)) := []
  root : Option (List Char) := none
  deriving DecidableEq

def isSpace (c : Char) : Bool := c = ' ' || c = '\t' || c = '\n' || c = '\r'

/-- A value has ended. -/
def complete (v : Option (List Char)) (s : State) : State :=
  match s.stack with
  | [.obj] => { s with mode := .after, members := s.members ++ [(s.name, v)] }
  | [] => { s with mode := .after, root := v }
  | _ => { s with mode := .after }

def afterStep (s : State) (c : Char) : Option State :=
  if isSpace c then some s
  else match s.stack with
    | .obj :: fs =>
      if c = ',' then some { s with mode := .key }
      else if c = '\x7d' then some (complete none { s with stack := fs })
      else none
    | .arr :: fs =>
      if c = ',' then some { s with mode := .value }
      else if c = ']' then some (complete none { s with stack := fs })
      else none
    | [] => none

def valueStep (s : State) (c : Char) : Option State :=
  if isSpace c then some s
  else if c = '\x7b' then some { s with mode := .objStart, stack := .obj :: s.stack }
  else if c = '[' then some { s with mode := .arrStart, stack := .arr :: s.stack }
  else if c = '"' then some { s with mode := .string false .plain, text := [] }
  else if c = '-' then some { s with mode := .number .minus, text := [c] }
  else if c = '0' then some { s with mode := .number .zero, text := [c] }
  else if '1' ≤ c ∧ c ≤ '9' then some { s with mode := .number .int, text := [c] }
  else if c = 't' then some { s with mode := .literal .true 1 }
  else if c = 'f' then some { s with mode := .literal .false 1 }
  else if c = 'n' then some { s with mode := .literal .null 1 }
  else none

def keyStep (s : State) (c : Char) : Option State :=
  if isSpace c then some s
  else if c = '"' then some { s with mode := .string true .plain, text := [] }
  else none

def hexValue (c : Char) : Option ℕ :=
  if '0' ≤ c ∧ c ≤ '9' then some (c.toNat - '0'.toNat)
  else if 'a' ≤ c ∧ c ≤ 'f' then some (c.toNat - 'a'.toNat + 10)
  else if 'A' ≤ c ∧ c ≤ 'F' then some (c.toNat - 'A'.toNat + 10)
  else none

def simpleEscape (c : Char) : Option Char :=
  if c = '"' || c = '\\' || c = '/' then some c
  else if c = 'b' then some '\x08'
  else if c = 'f' then some '\x0c'
  else if c = 'n' then some '\n'
  else if c = 'r' then some '\r'
  else if c = 't' then some '\t'
  else none

/-- A unicode escape is complete: text cannot hold NUL, nor half a surrogate pair. -/
def unicodeEscape (isKey : Bool) (high : Option ℕ) (v : ℕ) (s : State) : Option State :=
  match high with
  | none =>
    if v = 0 then none
    else if 0xd800 ≤ v ∧ v ≤ 0xdbff then some { s with mode := .string isKey (.low v) }
    else if 0xdc00 ≤ v ∧ v ≤ 0xdfff then none
    else some { s with mode := .string isKey .plain, text := Char.ofNat v :: s.text }
  | some h =>
    if 0xdc00 ≤ v ∧ v ≤ 0xdfff then
      some { s with
        mode := .string isKey .plain
        text := Char.ofNat (0x10000 + (h - 0xd800) * 0x400 + (v - 0xdc00)) :: s.text }
    else none

/-- A string has ended: a name, of which the outermost object's is kept, or a value. -/
def endString (isKey : Bool) (s : State) : State :=
  if isKey then
    { s with mode := .colon, name := if s.stack = [.obj] then s.text.reverse else s.name }
  else complete (some s.text.reverse) s

def stringStep (isKey : Bool) (escape : Escape) (s : State) (c : Char) : Option State :=
  match escape with
  | .plain =>
    if c = '"' then some (endString isKey s)
    else if c = '\\' then some { s with mode := .string isKey .backslash }
    else if c.toNat < 32 then none
    else some { s with text := c :: s.text }
  | .backslash =>
    if c = 'u' then some { s with mode := .string isKey (.hex none 0 0) }
    else (simpleEscape c).map fun d =>
      { s with mode := .string isKey .plain, text := d :: s.text }
  | .hex high count value =>
    (hexValue c).bind fun d =>
      if count = 3 then unicodeEscape isKey high (16 * value + d) s
      else some { s with mode := .string isKey (.hex high (count + 1) (16 * value + d)) }
  | .low high =>
    if c = '\\' then some { s with mode := .string isKey (.lowBackslash high) } else none
  | .lowBackslash high =>
    if c = 'u' then some { s with mode := .string isKey (.hex (some high) 0 0) } else none

def isDigit (c : Char) : Bool := '0' ≤ c && c ≤ '9'

def NumPart.next (part : NumPart) (c : Char) : Option NumPart :=
  match part with
  | minus => if c = '0' then some zero else if isDigit c then some int else none
  | zero => if c = '.' then some dot else if c = 'e' || c = 'E' then some exp else none
  | int =>
    if isDigit c then some int
    else if c = '.' then some dot else if c = 'e' || c = 'E' then some exp else none
  | dot => if isDigit c then some frac else none
  | frac => if isDigit c then some frac else if c = 'e' || c = 'E' then some exp else none
  | exp =>
    if c = '+' || c = '-' then some expSign else if isDigit c then some expDigits else none
  | expSign => if isDigit c then some expDigits else none
  | expDigits => if isDigit c then some expDigits else none

def NumPart.isComplete : NumPart → Bool
  | zero | int | frac | expDigits => true
  | _ => false

section Recogniser

-- the numbers the reader of the text can represent
variable (inRange : List Char → Bool)

def numberDone (part : NumPart) (s : State) : Bool := part.isComplete && inRange s.text.reverse

def numberStep (part : NumPart) (s : State) (c : Char) : Option State :=
  match part.next c with
  | some p => some { s with mode := .number p, text := c :: s.text }
  | none => if numberDone inRange part s then afterStep (complete none s) c else none

def literalStep (word : Literal) (count : ℕ) (s : State) (c : Char) : Option State :=
  if word.letters[count]? = some c then
    if count + 1 = word.letters.length then some (complete none s)
    else some { s with mode := .literal word (count + 1) }
  else none

def step (s : State) (c : Char) : Option State :=
  match s.mode with
  | .value => valueStep s c
  | .arrStart =>
    if c = ']' then some (complete none { s with stack := s.stack.tail })
    else valueStep { s with mode := if isSpace c then .arrStart else .value } c
  | .objStart =>
    if c = '\x7d' then some (complete none { s with stack := s.stack.tail }) else keyStep s c
  | .key => keyStep s c
  | .string isKey escape => stringStep isKey escape s c
  | .colon =>
    if isSpace c then some s else if c = ':' then some { s with mode := .value } else none
  | .literal word count => literalStep word count s c
  | .number part => numberStep inRange part s c
  | .after => afterStep s c

/-- The reader stands behind a value. -/
def ended (s : State) : Bool :=
  match s.mode with
  | .after => true
  | .number part => numberDone inRange part s
  | _ => false

/-- The text read so far is a complete value. -/
def accepts (s : State) : Bool := s.stack = [] && ended inRange s

/-- What a text shows of its value, when it is JSON. -/
def parse (text : List Char) : Option State :=
  (run (step inRange) {} text).filter (accepts inRange)

end Recogniser

/-- The value of the last member with a name, in the outermost object. -/
def State.member (s : State) (name : List Char) : Option (Option (List Char)) :=
  s.members.reverse.lookup name

/-- A character in a JSON string, as the writer escapes it. -/
def escapeChar (c : Char) : List Char :=
  if c = '"' then ['\\', '"']
  else if c = '\\' then ['\\', '\\']
  else if c = '\x08' then ['\\', 'b']
  else if c = '\x0c' then ['\\', 'f']
  else if c = '\n' then ['\\', 'n']
  else if c = '\r' then ['\\', 'r']
  else if c = '\t' then ['\\', 't']
  else if c.toNat < 32 then
    ['\\', 'u', '0', '0', Nat.digitChar (c.toNat / 16), Nat.digitChar (c.toNat % 16)]
  else [c]

/-- An escape begins with a backslash; other characters stand for themselves. -/
theorem escapeChar_cases (c : Char) :
    (∃ ds, escapeChar c = '\\' :: ds) ∨ escapeChar c = [c] := by
  have hite : ∀ (p : Prop) [Decidable p] (ds l : List Char),
      ((∃ es, l = '\\' :: es) ∨ l = [c]) →
        (∃ es, (if p then '\\' :: ds else l) = '\\' :: es) ∨
          (if p then '\\' :: ds else l) = [c] := by
    intro p _ ds l hl
    by_cases hp : p
    · rw [if_pos hp]
      exact .inl ⟨ds, rfl⟩
    · rw [if_neg hp]
      exact hl
  unfold escapeChar
  iterate 8 apply hite
  exact .inr rfl

/-- The JSON string of a text. -/
def quote (text : List Char) : List Char := '"' :: (text.flatMap escapeChar ++ ['"'])

section Strings

variable {inRange : List Char → Bool}

/-- The recogniser reads an escaped character back. -/
theorem run_escapeChar {c : Char} (hc : c ≠ '\x00') (isKey : Bool) (s : State)
    (hs : s.mode = .string isKey .plain) :
    run (step inRange) s (escapeChar c) = some { s with text := c :: s.text } := by
  obtain ⟨mode, stack, text, name, members, root⟩ := s
  obtain rfl : mode = .string isKey .plain := hs
  by_cases hlow : c.toNat < 32
  · -- the control characters one by one
    obtain ⟨n, hn, rfl⟩ : ∃ n, n < 32 ∧ c = Char.ofNat n := ⟨c.toNat, hlow, c.ofNat_toNat.symm⟩
    have hpos : n ≠ 0 := by
      rintro rfl
      exact hc rfl
    interval_cases n <;> first | exact absurd rfl hpos | rfl
  · by_cases hq : c = '"'
    · subst hq
      rfl
    by_cases hb : c = '\\'
    · subst hb
      rfl
    have hctrl : ∀ d : Char, d.toNat < 32 → c ≠ d := by
      rintro d hd rfl
      exact hlow hd
    have hesc : escapeChar c = [c] := by
      simp [escapeChar, hq, hb, hlow, hctrl '\x08' (by decide), hctrl '\x0c' (by decide),
        hctrl '\n' (by decide), hctrl '\r' (by decide), hctrl '\t' (by decide)]
    rw [hesc]
    simp [run, step, stringStep, hq, hb, hlow]

theorem run_escaped {cs : List Char} (hcs : '\x00' ∉ cs) (isKey : Bool) (s : State)
    (hs : s.mode = .string isKey .plain) :
    run (step inRange) s (cs.flatMap escapeChar) =
      some { s with text := cs.reverse ++ s.text } := by
  induction cs generalizing s with
  | nil => rfl
  | cons c cs ih =>
    have hc : c ≠ '\x00' := fun h => hcs (h ▸ List.mem_cons_self)
    have hrest : '\x00' ∉ cs := fun h => hcs (List.mem_cons_of_mem c h)
    rw [List.flatMap_cons, run_append, run_escapeChar hc isKey s hs, Option.bind_some,
      ih hrest { s with text := c :: s.text } hs]
    simp

/-- A JSON string is read as the text it was made of. -/
theorem run_quote {text : List Char} (h : '\x00' ∉ text) (s : State) (hs : s.mode = .value) :
    run (step inRange) s (quote text) =
      some (complete (some text)
        { s with mode := .string false .plain, text := text.reverse }) := by
  have hopen : step inRange s '"' = some { s with mode := .string false .plain, text := [] } := by
    simp [step, hs, valueStep, isSpace]
  rw [quote, run_cons_eq_some]
  refine ⟨_, hopen, ?_⟩
  rw [run_append, run_escaped h false _ rfl, Option.bind_some]
  simp [run, step, stringStep, endString]

theorem parse_quote {text : List Char} (h : '\x00' ∉ text) :
    ∃ s, parse inRange (quote text) = some s ∧ s.root = some text := by
  refine ⟨complete (some text) { mode := .string false .plain, text := text.reverse }, ?_, rfl⟩
  unfold parse
  rw [run_quote h {} rfl]
  simp [complete, accepts, ended]

end Strings

section Members

variable {inRange : List Char → Bool}

/-- A reader inside a container: nothing but white space follows the outermost value,
and an object just opened is an inner one. -/
structure Inside (s : State) : Prop where
  closed : s.stack = [] → s.mode = .after
  opened : s.mode = .objStart → 2 ≤ s.stack.length

theorem complete_mode (v : Option (List Char)) (s : State) : (complete v s).mode = .after := by
  unfold complete
  split <;> rfl

theorem complete_stack (v : Option (List Char)) (s : State) : (complete v s).stack = s.stack := by
  unfold complete
  split <;> simp_all

theorem inside_of_after {s : State} (h : s.mode = .after) : Inside s where
  closed := fun _ => h
  opened := by simp [h]

theorem inside_complete (v : Option (List Char)) (s : State) : Inside (complete v s) :=
  inside_of_after (complete_mode v s)

/-- Inside a container the reader stays inside while it opens no object. -/
theorem inside_of_stack {s t : State} (hs : s.stack ≠ []) (ht : t.stack = s.stack)
    (hm : t.mode ≠ .objStart) : Inside t where
  closed := fun h => absurd (ht ▸ h) hs
  opened := fun h => absurd h hm

private theorem inside_afterStep {s t : State} {c : Char} (hs : s.mode = .after)
    (h : afterStep s c = some t) : Inside t := by
  by_cases hc : isSpace c = true
  · obtain rfl : s = t := by simpa [afterStep, hc] using h
    exact inside_of_after hs
  · rcases hst : s.stack with _ | ⟨_ | _, fs⟩
    · simp [afterStep, hc, hst] at h
    · simp only [afterStep, hc, hst, Bool.false_eq_true, if_false] at h
      split_ifs at h <;> obtain rfl := Option.some.inj h
      · exact inside_of_stack (s := s) (by simp [hst]) hst.symm (by simp)
      · exact inside_complete _ _
    · simp only [afterStep, hc, hst, Bool.false_eq_true, if_false] at h
      split_ifs at h <;> obtain rfl := Option.some.inj h
      · exact inside_of_stack (s := s) (by simp [hst]) hst.symm (by simp)
      · exact inside_complete _ _

private theorem inside_of_ite {p : Prop} [Decidable p] {a t : State} {o : Option State}
    (ha : Inside a) (ho : o = some t → Inside t) (h : (if p then some a else o) = some t) :
    Inside t := by
  rcases ite_eq_iff.mp h with ⟨-, h⟩ | ⟨-, h⟩
  · obtain rfl := Option.some.inj h
    exact ha
  · exact ho h

private theorem inside_valueStep {s t : State} {c : Char} (hs : s.stack ≠ [])
    (hm : s.mode ≠ .objStart) (h : valueStep s c = some t) : Inside t := by
  have hblank : Inside s := inside_of_stack hs rfl hm
  have hobj : Inside { s with mode := .objStart, stack := .obj :: s.stack } := by
    refine ⟨fun h => by simp at h, fun _ => ?_⟩
    have hpos := List.length_pos_iff.mpr hs
    simp only [List.length_cons]
    omega
  have harr : Inside { s with mode := .arrStart, stack := .arr :: s.stack } :=
    ⟨fun h => by simp at h, fun h => by simp at h⟩
  have hnumber : ∀ part, Inside { s with mode := .number part, text := [c] } := fun part =>
    inside_of_stack hs rfl (by simp)
  have hliteral : ∀ word, Inside { s with mode := .literal word 1 } := fun word =>
    inside_of_stack hs rfl (by simp)
  unfold valueStep at h
  revert h
  refine inside_of_ite hblank (inside_of_ite hobj (inside_of_ite harr (inside_of_ite ?_
    (inside_of_ite (hnumber _) (inside_of_ite (hnumber _) (inside_of_ite (hnumber _)
      (inside_of_ite (hliteral _) (inside_of_ite (hliteral _) (inside_of_ite (hliteral _) ?_)))))))))
  · exact inside_of_stack hs rfl (by simp)
  · intro h
    cases h

private theorem inside_keyStep {s t : State} {c : Char} (hi : Inside s) (hs : s.stack ≠ [])
    (h : keyStep s c = some t) : Inside t := by
  unfold keyStep at h
  split_ifs at h <;> obtain rfl := Option.some.inj h
  · exact hi
  · exact inside_of_stack hs rfl (by simp)

private theorem inside_stringStep {s t : State} {c : Char} {isKey : Bool} {escape : Escape}
    (hs : s.stack ≠ []) (hm : s.mode = .string isKey escape)
    (h : stringStep isKey escape s c = some t) : Inside t := by
  have hkeep : ∀ u : State, u.stack = s.stack → u.mode ≠ .objStart → Inside u :=
    fun u => inside_of_stack hs
  have hend : Inside (endString isKey s) := by
    unfold endString
    split
    · exact hkeep _ rfl (by simp)
    · exact inside_complete _ _
  cases escape with
  | plain =>
    simp only [stringStep] at h
    split_ifs at h <;> obtain rfl := Option.some.inj h
    · exact hend
    · exact hkeep _ rfl (by simp)
    · exact hkeep _ rfl (by simp [hm])
  | backslash =>
    simp only [stringStep] at h
    split_ifs at h
    · obtain rfl := Option.some.inj h
      exact hkeep _ rfl (by simp)
    · obtain ⟨d, -, rfl⟩ := Option.map_eq_some_iff.mp h
      exact hkeep _ rfl (by simp)
  | hex high count value =>
    obtain ⟨d, -, h⟩ := Option.bind_eq_some_iff.mp h
    split_ifs at h
    · unfold unicodeEscape at h
      split at h
      · split_ifs at h <;> obtain rfl := Option.some.inj h <;> exact hkeep _ rfl (by simp)
      · split_ifs at h
        obtain rfl := Option.some.inj h
        exact hkeep _ rfl (by simp)
    · obtain rfl := Option.some.inj h
      exact hkeep _ rfl (by simp)
  | low high =>
    simp only [stringStep] at h
    split_ifs at h
    obtain rfl := Option.some.inj h
    exact hkeep _ rfl (by simp)
  | lowBackslash high =>
    simp only [stringStep] at h
    split_ifs at h
    obtain rfl := Option.some.inj h
    exact hkeep _ rfl (by simp)

theorem inside_step {s t : State} {c : Char} (hi : Inside s) (h : step inRange s c = some t) :
    Inside t := by
  have hstack : s.mode ≠ .after → s.stack ≠ [] := fun hm hs => hm (hi.closed hs)
  unfold step at h
  split at h
  · rename_i hm
    exact inside_valueStep (hstack (by simp [hm])) (by simp [hm]) h
  · rename_i hm
    split_ifs at h
    · obtain rfl := Option.some.inj h
      exact inside_complete _ _
    all_goals
      have hvalue := fun hs hm => inside_valueStep hs hm h
      exact hvalue (hstack (by simp [hm])) (by simp)
  · rename_i hm
    split_ifs at h
    · obtain rfl := Option.some.inj h
      exact inside_complete _ _
    · exact inside_keyStep hi (hstack (by simp [hm])) h
  · rename_i hm
    exact inside_keyStep hi (hstack (by simp [hm])) h
  · rename_i isKey escape hm
    exact inside_stringStep (hstack (by simp [hm])) hm h
  · rename_i hm
    split_ifs at h <;> obtain rfl := Option.some.inj h
    · exact hi
    · exact inside_of_stack (hstack (by simp [hm])) rfl (by simp)
  · rename_i word count hm
    unfold literalStep at h
    split_ifs at h <;> obtain rfl := Option.some.inj h
    · exact inside_complete _ _
    · exact inside_of_stack (hstack (by simp [hm])) rfl (by simp)
  · rename_i part hm
    unfold numberStep at h
    split at h
    · obtain rfl := Option.some.inj h
      exact inside_of_stack (hstack (by simp [hm])) rfl (by simp)
    · split_ifs at h
      exact inside_afterStep (complete_mode none s) h
  · rename_i hm
    exact inside_afterStep hm h

/-- The state behind a value, a number being ended by what follows it. -/
def settle (s : State) : State :=
  match s.mode with
  | .number _ => complete none s
  | _ => s

theorem settle_stack (s : State) : (settle s).stack = s.stack := by
  unfold settle
  split
  · exact complete_stack none s
  · rfl

theorem settle_mode {s : State} (h : ended inRange s = true) : (settle s).mode = .after := by
  unfold ended at h
  unfold settle
  split at h
  · rename_i hm
    simp [hm]
  · rename_i part hm
    simp [hm, complete_mode]
  · cases h

theorem step_of_ended {s : State} {c : Char} (h : ended inRange s = true)
    (hc : c = ',' ∨ c = '}') : step inRange s c = afterStep (settle s) c := by
  unfold ended at h
  split at h
  · rename_i hm
    simp [step, settle, hm]
  · rename_i part hm
    have hnext : part.next c = none := by
      rcases hc with rfl | rfl <;> cases part <;> rfl
    simp [step, settle, hm, numberStep, hnext, h]
  · cases h

theorem literalStep_of_not_mem {word : Literal} {count : ℕ} {s : State} {c : Char}
    (hc : c ∉ word.letters) : literalStep word count s c = none := by
  have hne : word.letters[count]? ≠ some c := fun h => hc (List.mem_of_getElem? h)
  simp [literalStep, hne]

/-- A comma or brace in a string is one of its characters. -/
theorem stringStep_structural {s t : State} {isKey : Bool} {escape : Escape} {c : Char}
    (hc : c = ',' ∨ c = '}') (h : stringStep isKey escape s c = some t) :
    escape = .plain ∧ t = { s with text := c :: s.text } := by
  cases escape with
  | plain =>
    obtain rfl | rfl := hc
    · exact ⟨rfl, by simpa [stringStep] using h.symm⟩
    · exact ⟨rfl, by simpa [stringStep] using h.symm⟩
  | backslash => obtain rfl | rfl := hc <;> simp [stringStep, simpleEscape] at h
  | hex high count value => obtain rfl | rfl := hc <;> simp [stringStep, hexValue] at h
  | low high => obtain rfl | rfl := hc <;> simp [stringStep] at h
  | lowBackslash high => obtain rfl | rfl := hc <;> simp [stringStep] at h

/-- A reader inside a container that is not behind a value rejects a closing brace,
or reads it in a string, or closes an inner object with it. -/
theorem step_close {s t : State} (hi : Inside s) (h : step inRange s '}' = some t) :
    (accepts inRange t = true ↔ ended inRange s = true ∧ s.stack = [.obj]) := by
  by_cases he : ended inRange s = true
  · rw [step_of_ended he (.inr rfl)] at h
    have hm := settle_mode he
    rcases hst : s.stack with _ | ⟨_ | _, fs⟩
    · simp [afterStep, isSpace, settle_stack, hst] at h
    · obtain rfl : complete none { settle s with stack := fs } = t := by
        simpa [afterStep, isSpace, settle_stack, hst] using h
      simp only [accepts, complete_stack, ended, complete_mode, Bool.and_true,
        decide_eq_true_eq, List.cons.injEq, true_and]
      exact ⟨fun h => ⟨he, h⟩, fun h => h.2⟩
    · simp [afterStep, isSpace, settle_stack, hst] at h
  · simp only [he, Bool.false_eq_true, false_and, iff_false]
    have hended : ∀ u : State, ended inRange u = false → ¬ accepts inRange u = true := by
      intro u hu
      simp [accepts, hu]
    unfold step at h
    split at h
    · simp [valueStep, isSpace] at h
    · simp [valueStep, isSpace] at h
    · rename_i hm
      obtain rfl := Option.some.inj h
      have hlen := hi.opened hm
      rw [accepts, complete_stack]
      rcases hst : s.stack with _ | ⟨f, _ | ⟨g, fs⟩⟩
      · simp [hst] at hlen
      · simp [hst] at hlen
      · simp
    · simp [keyStep, isSpace] at h
    · rename_i isKey escape hm
      obtain ⟨rfl, rfl⟩ := stringStep_structural (.inr rfl) h
      exact hended _ (by simp [ended, hm])
    · simp [isSpace] at h
    · rename_i word count hm
      rw [literalStep_of_not_mem (by cases word <;> decide)] at h
      cases h
    · rename_i part hm
      have hnext : part.next '}' = none := by cases part <;> rfl
      simp [numberStep, hnext] at h
      simp [ended, hm, h.1] at he
    · rename_i hm
      simp [ended, hm] at he

/-- What a comma can be: behind a value in a container, or a character of a string. -/
theorem step_comma {s t : State} (h : step inRange s ',' = some t) :
    (ended inRange s = true ∧ ((∃ fs, s.stack = .obj :: fs ∧ t = { settle s with mode := .key }) ∨
        ∃ fs, s.stack = .arr :: fs ∧ t = { settle s with mode := .value })) ∨
      ∃ isKey, s.mode = .string isKey .plain ∧ t = { s with text := ',' :: s.text } := by
  by_cases he : ended inRange s = true
  · refine .inl ⟨he, ?_⟩
    rw [step_of_ended he (.inl rfl)] at h
    rcases hst : s.stack with _ | ⟨_ | _, fs⟩
    · simp [afterStep, isSpace, settle_stack, hst] at h
    · refine .inl ⟨fs, rfl, ?_⟩
      simpa [afterStep, isSpace, settle_stack, hst] using h.symm
    · refine .inr ⟨fs, rfl, ?_⟩
      simpa [afterStep, isSpace, settle_stack, hst] using h.symm
  · unfold step at h
    split at h
    · simp [valueStep, isSpace] at h
    · simp [valueStep, isSpace] at h
    · simp [keyStep, isSpace] at h
    · simp [keyStep, isSpace] at h
    · rename_i isKey escape hm
      obtain ⟨rfl, ht⟩ := stringStep_structural (.inl rfl) h
      exact .inr ⟨isKey, hm, ht⟩
    · simp [isSpace] at h
    · rename_i word count hm
      rw [literalStep_of_not_mem (by cases word <;> decide)] at h
      cases h
    · rename_i part hm
      have hnext : part.next ',' = none := by cases part <;> rfl
      simp [numberStep, hnext] at h
      simp [ended, hm, h.1] at he
    · rename_i hm
      simp [ended, hm] at he

/-- Characters a string may be followed by. -/
def separators : List Char := [' ', '\t', '\n', '\r', ',', ':', '\x7d', ']']

/-- No text of a string goes on right behind the string. -/
theorem step_behind_string {s : State} {isKey : Bool} {c : Char} (hc : c ∉ separators)
    {d : Char} {ds : List Char} (hd : escapeChar c = d :: ds) :
    step inRange (endString isKey s) d = none := by
  have hds : d ∉ separators := by
    rcases escapeChar_cases c with ⟨es, he⟩ | he
    · obtain ⟨rfl, -⟩ := List.cons.inj (hd.symm.trans he)
      decide
    · obtain ⟨rfl, -⟩ := List.cons.inj (hd.symm.trans he)
      exact hc
  simp only [separators, List.mem_cons, List.not_mem_nil, or_false, not_or] at hds
  obtain ⟨h1, h2, h3, h4, h5, h6, h7, h8⟩ := hds
  have hspace : isSpace d = false := by simp [isSpace, h1, h2, h3, h4]
  cases isKey with
  | true => simp [endString, step, hspace, h6]
  | false =>
    have hm := complete_mode (some s.text.reverse) s
    simp only [endString, Bool.false_eq_true, if_false, step, hm, afterStep, hspace, h5, h7, h8]
    split <;> rfl

/-- A member is read where a name is expected. -/
theorem run_member {name value : List Char} (hn : '\x00' ∉ name) (hv : '\x00' ∉ value) {s : State}
    (hs : s.mode = .key) :
    run (step inRange) s (quote name ++ ':' :: quote value) = some (complete (some value)
      { s with
        mode := .string false .plain
        text := value.reverse
        name := if s.stack = [.obj] then name else s.name }) := by
  have hopen : step inRange s '"' = some { s with mode := .string true .plain, text := [] } := by
    simp [step, hs, keyStep, isSpace]
  have hname : run (step inRange) s (quote name) = some (endString true
      { s with mode := .string true .plain, text := name.reverse }) := by
    rw [quote, run_cons_eq_some]
    refine ⟨_, hopen, ?_⟩
    rw [run_append, run_escaped hn true _ rfl, Option.bind_some]
    simp [run, step, stringStep]
  rw [run_append, hname, Option.bind_some, run_cons_eq_some]
  refine ⟨{ s with
    mode := .value, text := name.reverse, name := if s.stack = [.obj] then name else s.name },
    ?_, ?_⟩
  · simp [endString, step, isSpace]
  · rw [run_quote hv _ rfl]

/-- A further member with a string value, and the brace that closes the object, are
read just when the brace alone could have closed it. -/
theorem run_further_member {c : Char} {cs value : List Char} (hn : '\x00' ∉ c :: cs)
    (hc : c ∉ separators) (hv : '\x00' ∉ value) {s : State} (hi : Inside s) :
    (∃ t, run (step inRange) s (',' :: (quote (c :: cs) ++ ':' :: (quote value ++ ['\x7d']))) =
        some t ∧ accepts inRange t = true ∧ t.member (c :: cs) = some (some value)) ↔
      ∃ t, run (step inRange) s ['\x7d'] = some t ∧ accepts inRange t = true := by
  have hclose : (∃ t, run (step inRange) s ['\x7d'] = some t ∧ accepts inRange t = true) ↔
      ended inRange s = true ∧ s.stack = [.obj] := by
    simp only [run_cons_eq_some, run_nil, Option.some.injEq]
    constructor
    · rintro ⟨t, ⟨m, hm, rfl⟩, hacc⟩
      exact (step_close hi hm).mp hacc
    · rintro ⟨he, hst⟩
      have hstep : step inRange s '\x7d' = some (complete none { settle s with stack := [] }) := by
        rw [step_of_ended he (.inr rfl)]
        simp [afterStep, isSpace, settle_stack, hst]
      exact ⟨_, ⟨_, hstep, rfl⟩, (step_close hi hstep).mpr ⟨he, hst⟩⟩
  have hassoc : quote (c :: cs) ++ ':' :: (quote value ++ ['\x7d']) =
      (quote (c :: cs) ++ ':' :: quote value) ++ ['\x7d'] := by simp
  rw [hclose, hassoc]
  constructor
  · rintro ⟨t, hrun, hacc, -⟩
    obtain ⟨m, hm, hrun⟩ := run_cons_eq_some.mp hrun
    rcases step_comma hm with ⟨he, ⟨fs, hst, rfl⟩ | ⟨fs, hst, rfl⟩⟩ | ⟨isKey, hmode, rfl⟩
    · refine ⟨he, ?_⟩
      rw [run_append, run_member hn hv rfl, Option.bind_some] at hrun
      simp only [run_cons_eq_some, run_nil, Option.some.injEq] at hrun
      obtain ⟨u, hu, rfl⟩ := hrun
      have hin := (step_close (inside_complete _ _) hu).mp hacc
      rw [complete_stack, settle_stack] at hin
      exact hin.2
    · -- in an array the name is read as a value, which no colon follows
      exfalso
      rw [run_append, run_append, run_quote hn _ rfl, Option.bind_some] at hrun
      have hcolon : ∀ v u, u.stack = .arr :: fs → step inRange (complete v u) ':' = none := by
        intro v u hu
        simp [step, complete_mode, afterStep, isSpace, complete_stack, hu]
      simp [run, hcolon, settle_stack, hst] at hrun
    · -- in a string the quote of the name ends it
      exfalso
      have hquote : ∀ u : State, u.mode = .string isKey .plain →
          step inRange u '"' = some (endString isKey u) := by
        intro u hu
        simp [step, hu, stringStep]
      obtain ⟨d, ds, hd⟩ : ∃ d ds, escapeChar c = d :: ds := by
        rcases escapeChar_cases c with ⟨es, he⟩ | he
        · exact ⟨_, es, he⟩
        · exact ⟨c, [], he⟩
      have hsplit : quote (c :: cs) ++ ':' :: quote value ++ ['\x7d'] =
          '"' :: d :: (ds ++ cs.flatMap escapeChar ++ ['"'] ++ ':' :: quote value ++ ['\x7d']) := by
        simp [quote, hd]
      rw [hsplit, run_cons_eq_some] at hrun
      obtain ⟨u, hu, hrun⟩ := hrun
      obtain ⟨v, hv', -⟩ := run_cons_eq_some.mp hrun
      rw [hquote { s with text := ',' :: s.text } hmode] at hu
      obtain rfl := Option.some.inj hu
      rw [step_behind_string hc hd] at hv'
      cases hv'
  · rintro ⟨he, hst⟩
    have hcomma : step inRange s ',' = some { settle s with mode := .key } := by
      rw [step_of_ended he (.inl rfl)]
      simp [afterStep, isSpace, settle_stack, hst]
    rw [run, hcomma, Option.bind_some, run_append, run_member hn hv rfl, Option.bind_some]
    simp only [settle_stack, hst, if_true]
    refine ⟨_, rfl, rfl, ?_⟩
    simp [State.member, complete]

/-- An object with one member whose value is any text, closed at once or after a further
member with a string value. -/
theorem parse_further_member {k text value cs : List Char} {c : Char} (hk : '\x00' ∉ k)
    (hn : '\x00' ∉ c :: cs) (hc : c ∉ separators) (hv : '\x00' ∉ value) :
    (∃ t, parse inRange ('\x7b' :: (quote k ++ ':' :: (text ++
        ',' :: (quote (c :: cs) ++ ':' :: (quote value ++ ['\x7d']))))) = some t ∧
        t.member (c :: cs) = some (some value)) ↔
      (parse inRange ('\x7b' :: (quote k ++ ':' :: (text ++ ['\x7d'])))).isSome := by
  have hopen : ∃ s, run (step inRange) {} ('\x7b' :: (quote k ++ [':'])) = some s ∧ Inside s := by
    have hkey : step inRange { mode := .objStart, stack := [.obj] } '"' =
        some { mode := .string true .plain, stack := [.obj] } := rfl
    refine ⟨{ mode := .value, stack := [.obj], text := k.reverse, name := k }, ?_, ?_⟩
    · rw [run_cons_eq_some]
      refine ⟨_, rfl, ?_⟩
      rw [quote, List.cons_append, run_cons_eq_some]
      refine ⟨_, hkey, ?_⟩
      rw [List.append_assoc, run_append, run_escaped hk true _ rfl, Option.bind_some]
      simp [run, step, stringStep, endString, isSpace]
    · exact inside_of_stack (s := { stack := [.obj] }) (by simp) rfl (by simp)
  obtain ⟨s₀, hrun₀, hin₀⟩ := hopen
  have hsplit : ∀ rest : List Char, '\x7b' :: (quote k ++ ':' :: (text ++ rest)) =
      ('\x7b' :: (quote k ++ [':'])) ++ (text ++ rest) := by simp
  have hparse : ∀ rest : List Char,
      run (step inRange) {} ('\x7b' :: (quote k ++ ':' :: (text ++ rest))) =
        (run (step inRange) s₀ text).bind fun s => run (step inRange) s rest := by
    intro rest
    rw [hsplit, run_append, hrun₀, Option.bind_some, run_append]
  unfold parse
  rw [hparse, hparse]
  cases hs : run (step inRange) s₀ text with
  | none => simp
  | some s =>
    have hin : Inside s :=
      run_invariant (fun _ _ _ _ => inside_step) (every_of_forall_mem fun _ _ => trivial) hin₀ hs
    have hmember := @run_further_member inRange c cs value hn hc hv s hin
    simp only [Option.bind_some, Option.isSome_filter, Option.any_eq_true,
      Option.filter_eq_some_iff]
    simpa [and_assoc] using hmember

end Members

end JsonScada.Lib.Json
