/- path: JsonScada/MqttSparkplug/TopicFilter
   source: src/mqtt-sparkplug/index.js
   digest: The test of a topic against a subscription, by a regular expression made of it. -/

import JsonScada.Lib.Pattern

set_option autoImplicit false
set_option relaxedAutoImplicit false

namespace JsonScada.MqttSparkplug.TopicFilter

open JsonScada.Lib.Pattern

/-- A string of JavaScript, by its code units. -/
abbrev Text := List ℕ

def units (s : String) : Text :=
  s.toList.flatMap fun c =>
    if c.toNat < 0x10000 then [c.toNat]
    else [0xD800 + (c.toNat - 0x10000) / 0x400, 0xDC00 + (c.toNat - 0x10000) % 0x400]

def slash : ℕ := 0x2F

def plus : ℕ := 0x2B

def hash : ℕ := 0x23

def dollar : ℕ := 0x24

def dot : ℕ := 0x2E

section RegExp

/-- The characters of the syntax of regular expressions. -/
def syntaxUnits : Text := units "^$\\.*+?()[]\x7b\x7d|"

/-- What the dot does not stand for. -/
def isLineEnd (c : ℕ) : Bool := c = 0x0A || c = 0x0D || c = 0x2028 || c = 0x2029

/-- The class of all characters but one, behind its bracket. -/
def readClass : Text → Option ((ℕ → Bool) × Text)
  | caret :: excluded :: close :: rest =>
    if caret = 0x5E ∧ close = 0x5D ∧ excluded ≠ 0x5C ∧ excluded ≠ 0x5D then
      some (fun x => x ≠ excluded, rest)
    else none
  | _ => none

/-- One symbol at the head of a pattern: the dot, a class, or a character that stands for
itself. -/
def readSymbol : Text → Option ((ℕ → Bool) × Text)
  | [] => none
  | c :: rest =>
    if c = dot then some (fun x => !isLineEnd x, rest)
    else if c = 0x5B then readClass rest
    else if c ∈ syntaxUnits then none
    else some (fun x => x = c, rest)

/-- Symbols, each alone or repeated by a plus sign. -/
def readPieces : ℕ → Text → Option (List (Piece ℕ))
  | _, [] => some []
  | 0, _ :: _ => none
  | fuel + 1, c :: cs =>
    match readSymbol (c :: cs) with
    | none => none
    | some (p, rest) =>
      if rest.head? = some plus then (readPieces fuel rest.tail).map (.many p :: ·)
      else (readPieces fuel rest).map (.one p :: ·)

/-- What the engine makes of a pattern of any other form, for a text; `none` is an
exception. -/
structure Engine where
  test : Text → Text → Option Bool

/-- `new RegExp(pattern).test(text)` -/
def regExpTest (engine : Engine) (pattern text : Text) : Option Bool :=
  match readPieces pattern.length pattern with
  | some ps => some (occurs ps text)
  | none => engine.test pattern text

end RegExp

/-- `s.split(separator).join(replacement)` -/
def splitJoin (separator : ℕ) (replacement s : Text) : Text :=
  replacement.intercalate (s.splitOn separator)

def topicMatchSub (engine : Engine) (t s : Text) : Option Bool :=
  regExpTest engine (splitJoin hash (units ".+") (splitJoin plus (units "[^/]+") s)) t

section Plain

/-- Characters that make another pattern of a subscription. -/
def special : Text := units "^$\\*?()[]\x7b\x7d|"

def Plain (s : Text) : Prop := ∀ c ∈ s, c ∉ special

instance (s : Text) : Decidable (Plain s) := inferInstanceAs (Decidable (∀ c ∈ s, c ∉ special))

/-- What a character of a subscription stands for in the pattern made of it. -/
def pieceOf (c : ℕ) : Piece ℕ :=
  if c = plus then .many fun x => x ≠ slash
  else if c = hash then .many fun x => !isLineEnd x
  else if c = dot then .one fun x => !isLineEnd x
  else .one fun x => x = c

/-- What is written for a character of a subscription. -/
def written (c : ℕ) : Text :=
  if c = plus then units "[^/]+" else if c = hash then units ".+" else [c]

theorem splitJoin_eq_flatMap (separator : ℕ) (replacement s : Text) :
    splitJoin separator replacement s =
      s.flatMap fun c => if c = separator then replacement else [c] := by
  induction s with
  | nil => simp [splitJoin]
  | cons c s ih =>
    rw [List.flatMap_cons, ← ih, splitJoin, splitJoin, List.splitOn_eq_splitOnP,
      List.splitOnP_cons_eq_if_modifyHead, ← List.splitOn_eq_splitOnP]
    by_cases hc : c = separator
    · rw [if_pos (by simpa using hc), if_pos hc,
        List.intercalate_cons_of_ne_nil (List.splitOn_ne_nil _ _), List.nil_append]
    · rw [if_neg (by simpa using hc), if_neg hc]
      obtain ⟨head, tail, hsplit⟩ := List.exists_cons_of_ne_nil (List.splitOn_ne_nil separator s)
      rw [hsplit, List.modifyHead_cons]
      cases tail with
      | nil => simp
      | cons next tail => simp [List.intercalate_cons_cons]

theorem splitJoin_written (s : Text) :
    splitJoin hash (units ".+") (splitJoin plus (units "[^/]+") s) = s.flatMap written := by
  rw [splitJoin_eq_flatMap, splitJoin_eq_flatMap, List.flatMap_assoc]
  refine List.flatMap_congr fun c _ => ?_
  by_cases hc : c = plus
  · rw [if_pos hc, written, if_pos hc]
    decide
  · rw [if_neg hc, written, if_neg hc, List.flatMap_singleton]

/-- A pattern that is written for characters does not begin with a plus sign. -/
theorem head_written (s : Text) : (s.flatMap written).head? ≠ some plus := by
  cases s with
  | nil => simp
  | cons c s =>
    by_cases hc : c = plus
    · subst hc
      simp [written, units, plus]
    · by_cases hh : c = hash
      · subst hh
        simp [written, units, plus, hash]
      · simp [written, hc, hh]

theorem mem_syntaxUnits : ∀ c ∈ syntaxUnits, c = dot ∨ c = plus ∨ c ∈ special := by decide

theorem readPieces_one {text rest : Text} {p : ℕ → Bool} (h : readSymbol text = some (p, rest))
    (hhead : rest.head? ≠ some plus) (fuel : ℕ) :
    readPieces (fuel + 1) text = (readPieces fuel rest).map (.one p :: ·) := by
  cases text with
  | nil => cases h
  | cons c cs => simp only [readPieces, h, if_neg hhead]

theorem readPieces_many {text rest : Text} {p : ℕ → Bool}
    (h : readSymbol text = some (p, plus :: rest)) (fuel : ℕ) :
    readPieces (fuel + 1) text = (readPieces fuel rest).map (.many p :: ·) := by
  cases text with
  | nil => cases h
  | cons c cs => simp only [readPieces, h, List.head?_cons, if_true, List.tail_cons]

/-- What is written for a character is read as its piece. -/
theorem readPieces_written {s : Text} (h : Plain s) {fuel : ℕ}
    (hfuel : (s.flatMap written).length ≤ fuel) :
    readPieces fuel (s.flatMap written) = some (s.map pieceOf) := by
  induction s generalizing fuel with
  | nil => cases fuel <;> rfl
  | cons c s ih =>
    have hc := h c List.mem_cons_self
    have hs : Plain s := fun x hx => h x (List.mem_cons_of_mem c hx)
    have hlength : 1 ≤ (written c).length := by
      rw [written]
      split_ifs <;> simp [units]
    rw [List.flatMap_cons, List.length_append] at hfuel
    obtain ⟨n, rfl⟩ : ∃ n, fuel = n + 1 := ⟨fuel - 1, by omega⟩
    have hrest := @ih hs n (by omega)
    rw [List.flatMap_cons, List.map_cons, pieceOf]
    by_cases hplus : c = plus
    · have hread : readSymbol (written c ++ s.flatMap written) =
          some (fun x => decide (x ≠ slash), plus :: s.flatMap written) := by
        rw [written, if_pos hplus]
        rfl
      rw [readPieces_many hread, hrest, if_pos hplus]
      rfl
    · by_cases hhash : c = hash
      · have hread : readSymbol (written c ++ s.flatMap written) =
            some (fun x => !isLineEnd x, plus :: s.flatMap written) := by
          rw [written, if_neg hplus, if_pos hhash]
          rfl
        rw [readPieces_many hread, hrest, if_neg hplus, if_pos hhash]
        rfl
      · have hwritten : written c = [c] := by rw [written, if_neg hplus, if_neg hhash]
        rw [hwritten, List.singleton_append, if_neg hplus, if_neg hhash]
        by_cases hdot : c = dot
        · have hread : readSymbol (c :: s.flatMap written) =
              some (fun x => !isLineEnd x, s.flatMap written) := by
            rw [readSymbol, if_pos hdot]
          rw [readPieces_one hread (head_written s), hrest, if_pos hdot]
          rfl
        · have hbracket : c ≠ 0x5B := fun heq => hc (heq ▸ by decide)
          have hsyntax : c ∉ syntaxUnits := by
            intro hmem
            rcases mem_syntaxUnits c hmem with h | h | h
            · exact hdot h
            · exact hplus h
            · exact hc h
          have hread : readSymbol (c :: s.flatMap written) =
              some (fun x => decide (x = c), s.flatMap written) := by
            rw [readSymbol, if_neg hdot, if_neg hbracket, if_neg hsyntax]
          rw [readPieces_one hread (head_written s), hrest, if_neg hdot]
          rfl

/-- A plain subscription is looked for anywhere in the topic. -/
theorem topicMatchSub_plain (engine : Engine) (t : Text) {s : Text} (h : Plain s) :
    topicMatchSub engine t s = some (occurs (s.map pieceOf) t) := by
  rw [topicMatchSub, regExpTest, splitJoin_written, readPieces_written h le_rfl]

end Plain

end JsonScada.MqttSparkplug.TopicFilter
