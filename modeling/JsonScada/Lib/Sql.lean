/- path: JsonScada/Lib/Sql
   layer: library
   digest: A fragment of PostgreSQL: lexical rules, expressions, and an INSERT of rows. -/

import JsonScada.Lib.Json

set_option autoImplicit false
set_option relaxedAutoImplicit false

namespace JsonScada.Lib.Sql

open JsonScada.Lib.Machine

/-- Words are folded to lower case, and the text of a literal is what it stands for. -/
inductive Token where
  | str (text : List Char)
  | num (digits : List Char)
  | bits (digits : List Char)
  | word (name : List Char)
  | op (name : List Char)
  | lparen
  | rparen
  | comma
  | semicolon
  | cast
  deriving DecidableEq

/-- Where in a numeric constant the lexer is. -/
inductive NumPart where
  | int
  | dot
  | frac
  | exp
  | expSign
  | expDigits
  deriving DecidableEq

/-- What the lexer is reading, with the characters read so far in reverse. -/
inductive Mode where
  | blank
  | string (text : List Char)
  | stringQuote (text : List Char)
  | bits (digits : List Char)
  | word (name : List Char)
  | number (part : NumPart) (digits : List Char)
  | op (name : List Char)
  | colon
  deriving DecidableEq

/-- The lexer after some characters: its mode and the tokens read, in reverse. -/
structure Lexer where
  mode : Mode := .blank
  out : List Token := []
  deriving DecidableEq

def isSpace (c : Char) : Bool := [' ', '\t', '\n', '\r', '\x0b', '\x0c'].contains c

def isLetter (c : Char) : Bool := ('a' ≤ c && c ≤ 'z') || ('A' ≤ c && c ≤ 'Z') || c = '_'

def isOperator (c : Char) : Bool :=
  ['+', '-', '*', '/', '<', '>', '=', '~', '!', '@', '#', '%', '^', '&', '|', '?'].contains c

def toLower (c : Char) : Char :=
  if 'A' ≤ c ∧ c ≤ 'Z' then Char.ofNat (c.toNat + 32) else c

def NumPart.next (part : NumPart) (c : Char) : Option NumPart :=
  match part with
  | int =>
    if c.isDigit then some int
    else if c = '.' then some dot else if c = 'e' || c = 'E' then some exp else none
  | dot | frac => if c.isDigit then some frac else if c = 'e' || c = 'E' then some exp else none
  | exp =>
    if c = '+' || c = '-' then some expSign else if c.isDigit then some expDigits else none
  | expSign | expDigits => if c.isDigit then some expDigits else none

def NumPart.isComplete : NumPart → Bool
  | int | dot | frac | expDigits => true
  | _ => false

/-- The first character of a token. Comments, quoted identifiers and the other kinds of
string constants are no part of the fragment. -/
def begin_ (out : List Token) (c : Char) : Option Lexer :=
  if isSpace c then some ⟨.blank, out⟩
  else if c = '\'' then some ⟨.string [], out⟩
  else if isLetter c then some ⟨.word [c], out⟩
  else if c.isDigit then some ⟨.number .int [c], out⟩
  else if isOperator c then some ⟨.op [c], out⟩
  else if c = '(' then some ⟨.blank, .lparen :: out⟩
  else if c = ')' then some ⟨.blank, .rparen :: out⟩
  else if c = ',' then some ⟨.blank, .comma :: out⟩
  else if c = ';' then some ⟨.blank, .semicolon :: out⟩
  else if c = ':' then some ⟨.colon, out⟩
  else none

/-- The token a mode stands for, when the token can end here. -/
def pending : Mode → Option (List Token)
  | .blank => some []
  | .string _ => none
  | .stringQuote text => some [.str text.reverse]
  | .bits _ => none
  | .word name => some [.word (name.reverse.map toLower)]
  | .number part digits => if part.isComplete then some [.num digits.reverse] else none
  | .op name => some [.op name.reverse]
  | .colon => none

/-- End the token of the mode and begin another. -/
def endToken (s : Lexer) (c : Char) : Option Lexer :=
  (pending s.mode).bind fun ts => begin_ (ts ++ s.out) c

def readChar (s : Lexer) (c : Char) : Option Lexer :=
  match s.mode with
  | .blank => endToken s c
  | .string text =>
    if c = '\'' then some { s with mode := .stringQuote text }
    else some { s with mode := .string (c :: text) }
  | .stringQuote text =>
    -- a doubled quote stands for one
    if c = '\'' then some { s with mode := .string (c :: text) } else endToken s c
  | .bits digits =>
    if c = '0' || c = '1' then some { s with mode := .bits (c :: digits) }
    else if c = '\'' then some ⟨.blank, .bits digits.reverse :: s.out⟩
    else none
  | .word name =>
    if isLetter c || c.isDigit then some { s with mode := .word (c :: name) }
    else if c = '\'' then
      if name.map toLower = ['b'] then some { s with mode := .bits [] } else none
    else endToken s c
  | .number part digits =>
    match part.next c with
    | some p => some { s with mode := .number p (c :: digits) }
    | none => if isLetter c then none else endToken s c
  | .op name =>
    if isOperator c then
      if (name = ['-'] && c = '-') || (name = ['/'] && c = '*') then none
      else some { s with mode := .op (c :: name) }
    else endToken s c
  | .colon => if c = ':' then some ⟨.blank, .cast :: s.out⟩ else none

/-- A statement holds no NUL. -/
def step (s : Lexer) (c : Char) : Option Lexer := if c = '\x00' then none else readChar s c

/-- The tokens of a text. -/
def tokens (text : List Char) : Option (List Token) :=
  (run step {} text).bind fun s => (pending s.mode).map fun ts => (ts ++ s.out).reverse

example : tokens "trim('it''s'::text) || -1.5e+3".toList = some [.word "trim".toList, .lparen,
    .str "it's".toList, .cast, .word "text".toList, .rparen, .op "||".toList, .op "-".toList,
    .num "1.5e+3".toList] := by decide +kernel

inductive Expr where
  | str (text : List Char)
  | num (digits : List Char)
  | bits (digits : List Char)
  | null
  | column (name : List Char)
  | neg (e : Expr)
  | cast (e : Expr) (type : List Char)
  | op (name : List Char) (a b : Expr)
  | call (function : List Char) (a : Expr)
  | trim (characters a : Expr)
  deriving DecidableEq

namespace Word

def null : List Char := ['n', 'u', 'l', 'l']
def trim : List Char := ['t', 'r', 'i', 'm']
def from_ : List Char := ['f', 'r', 'o', 'm']
def text : List Char := ['t', 'e', 'x', 't']
def jsonb : List Char := ['j', 's', 'o', 'n', 'b']
def to_json : List Char := ['t', 'o', '_', 'j', 's', 'o', 'n']
def concat : List Char := ['|', '|']
def extract : List Char := ['#', '>', '>']
def minus : List Char := ['-']

end Word

/-- What the expression parser is to read: a whole expression, what follows its left
operand, an operand with its casts, the casts, or the operand alone. -/
inductive Level where
  | expr
  | rest (left : Expr)
  | typed
  | typedRest (e : Expr)
  | primary
  deriving DecidableEq

/-- Recursive descent with a bound on the depth. The operators of the fragment have one
precedence and associate to the left; a cast binds tighter. -/
def parseExpr : ℕ → Level → List Token → Option (Expr × List Token)
  | 0, _, _ => none
  | n + 1, .expr, ts => (parseExpr n .typed ts).bind fun r => parseExpr n (.rest r.1) r.2
  | n + 1, .rest left, ts =>
    match ts with
    | .op o :: us =>
      if o = Word.concat ∨ o = Word.extract then
        (parseExpr n .typed us).bind fun r => parseExpr n (.rest (.op o left r.1)) r.2
      else none
    | _ => some (left, ts)
  | n + 1, .typed, ts => (parseExpr n .primary ts).bind fun r => parseExpr n (.typedRest r.1) r.2
  | n + 1, .typedRest e, ts =>
    match ts with
    | .cast :: .word type :: us => parseExpr n (.typedRest (.cast e type)) us
    | .cast :: _ => none
    | _ => some (e, ts)
  | n + 1, .primary, ts =>
    match ts with
    | .str text :: us => some (.str text, us)
    | .num digits :: us => some (.num digits, us)
    | .bits digits :: us => some (.bits digits, us)
    | .op o :: us =>
      if o = Word.minus then (parseExpr n .primary us).map fun r => (.neg r.1, r.2) else none
    | .lparen :: us =>
      (parseExpr n .expr us).bind fun r => match r.2 with
        | .rparen :: vs => some (r.1, vs)
        | _ => none
    | .word w :: .lparen :: us =>
      (parseExpr n .expr us).bind fun r => match r.2 with
        | .rparen :: vs => if w = Word.trim then none else some (.call w r.1, vs)
        | .word v :: vs =>
          if w = Word.trim ∧ v = Word.from_ then
            (parseExpr n .expr vs).bind fun r' => match r'.2 with
              | .rparen :: ws => some (.trim r.1 r'.1, ws)
              | _ => none
          else none
        | _ => none
    | .word w :: us => some (if w = Word.null then .null else .column w, us)
    | _ => none

/-- The bound on the nesting of an expression. -/
def maxDepth : ℕ := 64

/-- Expressions with commas between them, up to the closing parenthesis. -/
def parseFields : ℕ → List Token → Option (List Expr × List Token)
  | 0, _ => none
  | n + 1, ts => (parseExpr maxDepth .expr ts).bind fun r => match r.2 with
    | .rparen :: us => some ([r.1], us)
    | .comma :: us => (parseFields n us).map fun r' => (r.1 :: r'.1, r'.2)
    | _ => none

/-- Rows in parentheses with commas between them. A table has at most 1600 columns. -/
def parseRows : ℕ → List Token → Option (List (List Expr) × List Token)
  | 0, _ => none
  | n + 1, ts => match ts with
    | .lparen :: us => (parseFields 1600 us).bind fun r => match r.2 with
      | .comma :: vs => (parseRows n vs).map fun r' => (r.1 :: r'.1, r'.2)
      | vs => some ([r.1], vs)
    | _ => none

def Word.start : List Char := ['s', 't', 'a', 'r', 't']
def Word.transaction : List Char := ['t', 'r', 'a', 'n', 's', 'a', 'c', 't', 'i', 'o', 'n']
def Word.insert : List Char := ['i', 'n', 's', 'e', 'r', 't']
def Word.into : List Char := ['i', 'n', 't', 'o']
def Word.values : List Char := ['v', 'a', 'l', 'u', 'e', 's']
def Word.on : List Char := ['o', 'n']
def Word.conflict : List Char := ['c', 'o', 'n', 'f', 'l', 'i', 'c', 't']
def Word.do_ : List Char := ['d', 'o']
def Word.nothing : List Char := ['n', 'o', 't', 'h', 'i', 'n', 'g']
def Word.commit : List Char := ['c', 'o', 'm', 'm', 'i', 't']

/-- Names with commas between them, up to the closing parenthesis. -/
def parseNames : ℕ → List Token → Option (List (List Char) × List Token)
  | 0, _ => none
  | n + 1, ts => match ts with
    | .word w :: .rparen :: us => some ([w], us)
    | .word w :: .comma :: us => (parseNames n us).map fun r => (w :: r.1, r.2)
    | _ => none

/-- `INSERT INTO table (columns) VALUES rows ON CONFLICT (keys) DO NOTHING`. -/
structure Insert where
  table : List Char
  columns : List (List Char)
  rows : List (List Expr)
  keys : List (List Char)
  deriving DecidableEq

def parseConflict (ts : List Token) : Option (List (List Char) × List Token) :=
  match ts with
  | .word w :: .word w' :: .lparen :: us =>
    if w = Word.on ∧ w' = Word.conflict then
      (parseNames 1600 us).bind fun r => match r.2 with
        | .word v :: .word v' :: vs =>
          if v = Word.do_ ∧ v' = Word.nothing then some (r.1, vs) else none
        | _ => none
    else none
  | _ => none

def parseInsert (ts : List Token) : Option (Insert × List Token) :=
  match ts with
  | .word w :: .word w' :: .word table :: .lparen :: us =>
    if w = Word.insert ∧ w' = Word.into then
      (parseNames 1600 us).bind fun names => match names.2 with
        | .word v :: vs =>
          if v = Word.values then
            (parseRows vs.length vs).bind fun rows => (parseConflict rows.2).bind fun keys =>
              -- every row has a value for every column
              if rows.1.all fun row => row.length = names.1.length then
                some (⟨table, names.1, rows.1, keys.1⟩, keys.2)
              else none
          else none
        | _ => none
    else none
  | _ => none

/-- A transaction of one INSERT. -/
def parseTransaction (ts : List Token) : Option Insert :=
  match ts with
  | .word w :: .word w' :: .semicolon :: us =>
    if w = Word.start ∧ w' = Word.transaction then
      (parseInsert us).bind fun r =>
        if r.2 = [.semicolon, .word Word.commit, .semicolon] then some r.1 else none
    else none
  | _ => none

inductive Value where
  | null
  | text (s : List Char)
  | json (s : List Char)
  | jsonb (doc : Json.State)
  | numeric (digits : List Char)
  | bits (digits : List Char)
  deriving DecidableEq

/-- `trim(characters FROM s)`. -/
def trimBoth (characters s : List Char) : List Char :=
  ((s.dropWhile characters.contains).reverse.dropWhile characters.contains).reverse

section Evaluation

-- the numbers the type numeric can represent
variable (inRange : List Char → Bool)

def castTo (type : List Char) : Value → Option Value
  | .text s =>
    if type = Word.text then some (.text s)
    else if type = Word.jsonb then (Json.parse inRange s).map .jsonb
    else none
  | .json s =>
    if type = Word.text then some (.text s)
    else if type = Word.jsonb then (Json.parse inRange s).map .jsonb
    else none
  | _ => none

/-- Concatenation, and the text of a whole jsonb string. -/
def evalOp (name : List Char) : Value → Value → Option Value
  | .text a, .text b => if name = Word.concat then some (.text (a ++ b)) else none
  | .text a, .json b => if name = Word.concat then some (.text (a ++ b)) else none
  | .jsonb doc, .text path =>
    if name = Word.extract ∧ path = ['\x7b', '\x7d'] then doc.root.map .text else none
  | _, _ => none

/-- The value of an expression, or `none` for an error. -/
def eval : Expr → Option Value
  | .str s => some (.text s)
  | .num digits => some (.numeric digits)
  | .bits digits => some (.bits digits)
  | .null => some .null
  | .column _ => none
  | .neg e => (eval e).bind fun v => match v with
    | .numeric digits => some (.numeric ('-' :: digits))
    | _ => none
  | .cast e type => (eval e).bind (castTo inRange type)
  | .op name a b => (eval a).bind fun v => (eval b).bind fun w => evalOp name v w
  | .call function a => (eval a).bind fun v => match v with
    | .text s => if function = Word.to_json then some (.json (Json.quote s)) else none
    | _ => none
  | .trim characters a => (eval characters).bind fun v => (eval a).bind fun w => match v, w with
    | .text cs, .text s => some (.text (trimBoth cs s))
    | _, _ => none

end Evaluation

section Lexing

theorem begin_out (out : List Token) (c : Char) :
    begin_ out c = (begin_ [] c).map fun s => { s with out := s.out ++ out } := by
  unfold begin_
  simp only [apply_ite (Option.map fun s : Lexer => { s with out := s.out ++ out }),
    Option.map_some, Option.map_none]
  rfl

private theorem readChar_out (mode : Mode) (out : List Token) (c : Char) :
    readChar ⟨mode, out⟩ c =
      (readChar ⟨mode, []⟩ c).map fun s => { s with out := s.out ++ out } := by
  have hend : endToken ⟨mode, out⟩ c =
      (endToken ⟨mode, []⟩ c).map fun s => { s with out := s.out ++ out } := by
    unfold endToken
    simp only [List.append_nil]
    cases pending mode with
    | none => rfl
    | some ts =>
      simp only [Option.bind_some]
      rw [begin_out (ts ++ out), begin_out ts, Option.map_map]
      congr 1
      funext s
      simp
  cases mode with
  | blank => exact hend
  | string text =>
    simp only [readChar]
    split_ifs <;> rfl
  | stringQuote text =>
    simp only [readChar]
    split_ifs
    · rfl
    · exact hend
  | bits digits =>
    simp only [readChar]
    split_ifs <;> rfl
  | word name =>
    simp only [readChar]
    split_ifs
    · rfl
    · rfl
    · rfl
    · exact hend
  | number part digits =>
    simp only [readChar]
    split
    · rfl
    · split_ifs
      · rfl
      · exact hend
  | op name =>
    simp only [readChar]
    split_ifs
    · rfl
    · rfl
    · exact hend
  | colon =>
    simp only [readChar]
    split_ifs <;> rfl

theorem step_out (mode : Mode) (out : List Token) (c : Char) :
    step ⟨mode, out⟩ c = (step ⟨mode, []⟩ c).map fun s => { s with out := s.out ++ out } := by
  unfold step
  split_ifs
  · rfl
  · exact readChar_out mode out c

/-- The tokens read before do not matter to what is read next. -/
theorem run_out (mode : Mode) (out : List Token) (cs : List Char) :
    run step ⟨mode, out⟩ cs =
      (run step ⟨mode, []⟩ cs).map fun s => { s with out := s.out ++ out } := by
  induction cs generalizing mode out with
  | nil => rfl
  | cons c cs ih =>
    simp only [run]
    rw [step_out]
    cases step ⟨mode, []⟩ c with
    | none => rfl
    | some s =>
      obtain ⟨mode', out'⟩ := s
      simp only [Option.map_some, Option.bind_some]
      rw [ih mode' (out' ++ out), ih mode' out', Option.map_map]
      congr 1
      funext s
      simp

/-- The text of a string constant. -/
def escaped (s : List Char) : List Char := s.flatMap fun c => if c = '\'' then ['\'', '\''] else [c]

/-- A character of a constant stands for itself, a quote twice. -/
theorem run_escaped_char {c : Char} (hc : c ≠ '\x00') (text : List Char) (out : List Token) :
    run step ⟨.string text, out⟩ (if c = '\'' then ['\'', '\''] else [c]) =
      some ⟨.string (c :: text), out⟩ := by
  by_cases hq : c = '\''
  · subst hq
    rfl
  · simp [run, step, readChar, hc, hq]

theorem run_escaped {s : List Char} (h : '\x00' ∉ s) (text : List Char) (out : List Token) :
    run step ⟨.string text, out⟩ (escaped s) = some ⟨.string (s.reverse ++ text), out⟩ := by
  induction s generalizing text with
  | nil => rfl
  | cons c s ih =>
    have hc : c ≠ '\x00' := fun e => h (e ▸ List.mem_cons_self)
    have hrest : '\x00' ∉ s := fun e => h (List.mem_cons_of_mem c e)
    rw [escaped, List.flatMap_cons, run_append, run_escaped_char hc, Option.bind_some]
    exact (ih hrest (c :: text)).trans (by simp)

theorem run_escaped_nul {s : List Char} (h : '\x00' ∈ s) (text : List Char) (out : List Token) :
    run step ⟨.string text, out⟩ (escaped s) = none := by
  induction s generalizing text with
  | nil => cases h
  | cons c s ih =>
    rw [escaped, List.flatMap_cons, run_append]
    by_cases hc : c = '\x00'
    · subst hc
      rfl
    · have hrest : '\x00' ∈ s := (List.mem_cons.mp h).resolve_left (Ne.symm hc)
      rw [run_escaped_char hc, Option.bind_some]
      exact ih hrest (c :: text)

theorem escaped_of_not_mem {s : List Char} (h : '\'' ∉ s) : escaped s = s := by
  induction s with
  | nil => rfl
  | cons c s ih =>
    have hc : c ≠ '\'' := fun e => h (e ▸ List.mem_cons_self)
    have hrest := ih fun e => h (List.mem_cons_of_mem c e)
    rw [escaped] at hrest ⊢
    rw [List.flatMap_cons, if_neg hc, hrest]
    rfl

/-- A string constant is one token: the text it stands for. -/
theorem run_string {s : List Char} (h : '\x00' ∉ s) (out : List Token) {c : Char} (hc : c ≠ '\'')
    (cs : List Char) :
    run step ⟨.blank, out⟩ ('\'' :: (escaped s ++ '\'' :: c :: cs)) =
      run step ⟨.blank, .str s :: out⟩ (c :: cs) := by
  have hopen : step ⟨.blank, out⟩ '\'' = some ⟨.string [], out⟩ := rfl
  have hclose : step ⟨.string (s.reverse ++ []), out⟩ '\'' =
      some ⟨.stringQuote (s.reverse ++ []), out⟩ := rfl
  have hnext : step ⟨.stringQuote (s.reverse ++ []), out⟩ c = step ⟨.blank, .str s :: out⟩ c := by
    simp [step, readChar, hc, endToken, pending]
  simp only [run, run_append, run_escaped h, hopen, hclose, hnext, Option.bind_some]

theorem run_string_nul {s : List Char} (h : '\x00' ∈ s) (out : List Token) (cs : List Char) :
    run step ⟨.blank, out⟩ ('\'' :: (escaped s ++ cs)) = none := by
  have hopen : step ⟨.blank, out⟩ '\'' = some ⟨.string [], out⟩ := rfl
  rw [run, hopen, Option.bind_some, run_append, run_escaped_nul h]
  rfl

/-- A piece of fixed text between two tokens. -/
theorem run_piece {piece : List Char} {ts : List Token}
    (h : run step {} piece = some ⟨.blank, ts⟩) (out : List Token) (rest : List Char) :
    run step ⟨.blank, out⟩ (piece ++ rest) = run step ⟨.blank, ts ++ out⟩ rest := by
  have hpiece : run step ⟨.blank, []⟩ piece = some ⟨.blank, ts⟩ := h
  rw [run_append, run_out, hpiece]
  rfl

/-- A string constant and the fixed text behind it. -/
theorem run_constant {s piece : List Char} {ts : List Token} (h : '\x00' ∉ s)
    (hc : piece.head?.any (· ≠ '\'') = true) (hrun : run step {} piece = some ⟨.blank, ts⟩)
    (out : List Token) (rest : List Char) :
    run step ⟨.blank, out⟩ ('\'' :: (escaped s ++ '\'' :: (piece ++ rest))) =
      run step ⟨.blank, ts ++ .str s :: out⟩ rest := by
  cases piece with
  | nil => cases hc
  | cons c cs =>
    have hquote : c ≠ '\'' := of_decide_eq_true hc
    rw [List.cons_append, run_string h out hquote, ← List.cons_append, run_piece hrun]

theorem run_bits {ds : List Char} (h : ∀ c ∈ ds, c = '0' ∨ c = '1') (acc : List Char)
    (out : List Token) :
    run step ⟨.bits acc, out⟩ ds = some ⟨.bits (ds.reverse ++ acc), out⟩ := by
  induction ds generalizing acc with
  | nil => rfl
  | cons c ds ih =>
    have hc : step ⟨.bits acc, out⟩ c = some ⟨.bits (c :: acc), out⟩ := by
      rcases h c List.mem_cons_self with rfl | rfl <;> rfl
    rw [run, hc, Option.bind_some, ih fun d hd => h d (List.mem_cons_of_mem c hd)]
    simp

/-- The digits of a number are read on in the part they belong to. -/
theorem run_digits {part : NumPart} (hpart : ∀ c : Char, c.isDigit = true → part.next c = some part)
    {ds : List Char} (h : ∀ c ∈ ds, c.isDigit = true) (acc : List Char) (out : List Token) :
    run step ⟨.number part acc, out⟩ ds = some ⟨.number part (ds.reverse ++ acc), out⟩ := by
  induction ds generalizing acc with
  | nil => rfl
  | cons c ds ih =>
    have hdigit := h c List.mem_cons_self
    have hnul : c ≠ '\x00' := by
      rintro rfl
      cases hdigit
    have hc : step ⟨.number part acc, out⟩ c = some ⟨.number part (c :: acc), out⟩ := by
      simp [step, hnul, readChar, hpart c hdigit]
    rw [run, hc, Option.bind_some, ih fun d hd => h d (List.mem_cons_of_mem c hd)]
    simp

theorem isDigit_mem {c : Char} (h : c.isDigit = true) :
    c ∈ ['0', '1', '2', '3', '4', '5', '6', '7', '8', '9'] := by
  obtain ⟨n, hn, rfl⟩ : ∃ n, (48 ≤ n ∧ n ≤ 57) ∧ c = Char.ofNat n := by
    refine ⟨c.toNat, ?_, c.ofNat_toNat.symm⟩
    simpa [Char.isDigit, UInt32.le_iff_toNat_le] using h
  obtain ⟨hlow, hhigh⟩ := hn
  interval_cases n <;> decide

theorem step_digit {c : Char} (h : c.isDigit = true) (out : List Token) :
    step ⟨.blank, out⟩ c = some ⟨.number .int [c], out⟩ := by
  have hmem := isDigit_mem h
  simp only [List.mem_cons, List.not_mem_nil, or_false] at hmem
  rcases hmem with rfl | rfl | rfl | rfl | rfl | rfl | rfl | rfl | rfl | rfl <;> rfl

end Lexing

end JsonScada.Lib.Sql
