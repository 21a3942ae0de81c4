/- path: JsonScada/Processor/HistorianLex
   source: src/cs_data_processor/cs_data_processor.js, sqlHistQueue and processSqlAndMongoHistUpdates
   digest: The tokens of a historian entry and of the transaction of a batch. -/

import JsonScada.Lib.Sql
import JsonScada.Processor.Historian

set_option autoImplicit false
set_option relaxedAutoImplicit false

namespace JsonScada.Processor.HistorianLex

open JsonScada.Lib.Binary64 JsonScada.Lib.EcmaScript JsonScada.Lib.Machine JsonScada.Lib.Sql
open JsonScada.Model.Documents JsonScada.Processor.Historian

section Numbers

theorem isDigit_toDigits {n : ℕ} {c : Char} (h : c ∈ Nat.toDigits 10 n) : c.isDigit = true :=
  Nat.isDigit_of_mem_toDigits (by decide) (by decide) h

theorem shortestDigits_digits (q : ℚ) :
    (shortestDigits q).1 ≠ [] ∧ ∀ c ∈ (shortestDigits q).1, c.isDigit = true := by
  unfold shortestDigits
  simp only []
  split_ifs
  · simp
  · exact ⟨Nat.toDigits_ne_nil, fun c hc => isDigit_toDigits hc⟩

/-- The text so far is the beginning of a number that can end here. -/
def NumberAt (out : List Token) (text : List Char) : Prop :=
  ∃ part : NumPart, part.isComplete = true ∧
    run step ⟨.blank, out⟩ text = some ⟨.number part text.reverse, out⟩

variable {out : List Token} {ds : List Char}

private theorem run_int (hne : ds ≠ []) (h : ∀ c ∈ ds, c.isDigit = true) :
    run step ⟨.blank, out⟩ ds = some ⟨.number .int ds.reverse, out⟩ := by
  obtain ⟨d, ds, rfl⟩ := List.exists_cons_of_ne_nil hne
  have hrest := @run_digits .int (fun c hc => by simp [NumPart.next, hc]) ds
    (fun c hc => h c (List.mem_cons_of_mem d hc)) [d] out
  rw [run, step_digit (h d List.mem_cons_self), Option.bind_some, hrest]
  simp

private theorem run_frac {acc : List Char} (hne : ds ≠ []) (h : ∀ c ∈ ds, c.isDigit = true) :
    run step ⟨.number .int acc, out⟩ ('.' :: ds) =
      some ⟨.number .frac (ds.reverse ++ '.' :: acc), out⟩ := by
  obtain ⟨d, ds, rfl⟩ := List.exists_cons_of_ne_nil hne
  have hd := h d List.mem_cons_self
  have hnul : d ≠ '\x00' := by
    rintro rfl
    cases hd
  have hrest := @run_digits .frac (fun c hc => by simp [NumPart.next, hc]) ds
    (fun c hc => h c (List.mem_cons_of_mem d hc)) (d :: '.' :: acc) out
  have hdot : step ⟨.number .int acc, out⟩ '.' = some ⟨.number .dot ('.' :: acc), out⟩ := rfl
  have hfirst : step ⟨.number .dot ('.' :: acc), out⟩ d =
      some ⟨.number .frac (d :: '.' :: acc), out⟩ := by
    simp [step, hnul, readChar, NumPart.next, hd]
  simp only [run, hdot, hfirst, Option.bind_some]
  rw [hrest]
  simp

private theorem run_exponent {part : NumPart} (hpart : part = .int ∨ part = .frac)
    (acc : List Char) (e : ℤ) :
    run step ⟨.number part acc, out⟩ (formatExponent e) =
      some ⟨.number .expDigits ((formatExponent e).reverse ++ acc), out⟩ := by
  obtain ⟨d, ds, hds⟩ := List.exists_cons_of_ne_nil (@Nat.toDigits_ne_nil e.natAbs 10)
  have hdigits : ∀ c ∈ d :: ds, c.isDigit = true := fun c hc => isDigit_toDigits (hds ▸ hc)
  have hd := hdigits d List.mem_cons_self
  have hnul : d ≠ '\x00' := by
    rintro rfl
    cases hd
  unfold formatExponent
  rw [hds]
  generalize hs : (if e < 0 then '-' else '+') = sign
  have hsign : sign = '-' ∨ sign = '+' := by
    rw [← hs]
    split_ifs <;> simp
  have hexp : step ⟨.number part acc, out⟩ 'e' = some ⟨.number .exp ('e' :: acc), out⟩ := by
    rcases hpart with rfl | rfl <;> rfl
  have hstep : step ⟨.number .exp ('e' :: acc), out⟩ sign =
      some ⟨.number .expSign (sign :: 'e' :: acc), out⟩ := by
    rcases hsign with rfl | rfl <;> rfl
  have hfirst : step ⟨.number .expSign (sign :: 'e' :: acc), out⟩ d =
      some ⟨.number .expDigits (d :: sign :: 'e' :: acc), out⟩ := by
    simp [step, hnul, readChar, NumPart.next, hd]
  have hrest := @run_digits .expDigits (fun c hc => by simp [NumPart.next, hc]) ds
    (fun c hc => hdigits c (List.mem_cons_of_mem d hc)) (d :: sign :: 'e' :: acc) out
  simp only [run, hexp, hstep, hfirst, Option.bind_some]
  rw [hrest]
  simp

/-- Every text the language makes of digits and a decimal point is a number of SQL. -/
theorem numberAt_formatDigits (hne : ds ≠ []) (h : ∀ c ∈ ds, c.isDigit = true) (n : ℤ) :
    NumberAt out (formatDigits ds n) := by
  unfold formatDigits
  split_ifs with h1 h2 h3
  · refine ⟨.int, rfl, run_int (by simp [hne]) ?_⟩
    intro c hc
    rcases List.mem_append.mp hc with hc | hc
    · exact h c hc
    · rw [List.eq_of_mem_replicate hc]
      rfl
  · have hlt : n.toNat < ds.length := by omega
    have hpos : 0 < n.toNat := by omega
    have hwhole : ds.take n.toNat ≠ [] := by
      intro hnil
      have := congrArg List.length hnil
      simp only [List.length_take, List.length_nil] at this
      omega
    have hfrac : ds.drop n.toNat ≠ [] := by
      intro hnil
      have := congrArg List.length hnil
      simp only [List.length_drop, List.length_nil] at this
      omega
    refine ⟨.frac, rfl, ?_⟩
    rw [run_append, run_int hwhole fun c hc => h c (List.mem_of_mem_take hc), Option.bind_some,
      run_frac hfrac fun c hc => h c (List.mem_of_mem_drop hc)]
    simp
  · refine ⟨.frac, rfl, ?_⟩
    have hdigits : ∀ c ∈ List.replicate (-n).toNat '0' ++ ds, c.isDigit = true := by
      intro c hc
      rcases List.mem_append.mp hc with hc | hc
      · rw [List.eq_of_mem_replicate hc]
        rfl
      · exact h c hc
    have hzero : step ⟨.blank, out⟩ '0' = some ⟨.number .int ['0'], out⟩ := rfl
    rw [run, hzero, Option.bind_some, run_frac (by simp [hne]) hdigits]
    simp
  · split
    · rename_i d
      refine ⟨.expDigits, rfl, ?_⟩
      rw [run, step_digit (h d (by simp)), Option.bind_some, run_exponent (.inl rfl)]
      simp
    · rename_i hlong
      obtain ⟨d, ds, rfl⟩ := List.exists_cons_of_ne_nil hne
      have htail : ds ≠ [] := by
        rintro rfl
        exact hlong d rfl
      refine ⟨.expDigits, rfl, ?_⟩
      have hd : run step ⟨.blank, out⟩ [d] = some ⟨.number .int [d], out⟩ := by
        rw [run, step_digit (h d List.mem_cons_self)]
        rfl
      have hfrac := @run_frac out ds [d] htail fun c hc => h c (List.mem_cons_of_mem d hc)
      simp only [List.take_succ_cons, List.take_zero, List.drop_succ_cons, List.drop_zero]
      rw [run_append, hd, Option.bind_some, ← List.cons_append, run_append, hfrac,
        Option.bind_some, run_exponent (.inr rfl)]
      simp

theorem formatDigits_head (hne : ds ≠ []) (h : ∀ c ∈ ds, c.isDigit = true) (n : ℤ) :
    ∃ d rest, formatDigits ds n = d :: rest ∧ d.isDigit = true := by
  obtain ⟨d, ds, rfl⟩ := List.exists_cons_of_ne_nil hne
  have hd := h d List.mem_cons_self
  unfold formatDigits
  split_ifs with h1 h2 h3
  · exact ⟨d, _, rfl, hd⟩
  · obtain ⟨k, hk⟩ : ∃ k, n.toNat = k + 1 := ⟨n.toNat - 1, by omega⟩
    rw [hk]
    exact ⟨d, _, rfl, hd⟩
  · exact ⟨'0', _, rfl, rfl⟩
  · cases ds with
    | nil => exact ⟨d, _, rfl, hd⟩
    | cons d' ds => exact ⟨d, _, rfl, hd⟩

/-- A minus sign before a digit is a token of its own. -/
private theorem run_minus {d : Char} (hd : d.isDigit = true) (cs : List Char) :
    run step ⟨.blank, out⟩ ('-' :: d :: cs) = run step ⟨.blank, .op Word.minus :: out⟩ (d :: cs) := by
  have hminus : step ⟨.blank, out⟩ '-' = some ⟨.op ['-'], out⟩ := rfl
  have hnext : step ⟨.op ['-'], out⟩ d = step ⟨.blank, .op Word.minus :: out⟩ d := by
    have hmem := isDigit_mem hd
    simp only [List.mem_cons, List.not_mem_nil, or_false] at hmem
    rcases hmem with rfl | rfl | rfl | rfl | rfl | rfl | rfl | rfl | rfl | rfl <;> rfl
  rw [run, hminus, Option.bind_some, run, run, hnext]

/-- The tokens of a number: its text, after a minus sign when it is negative. A number
that is not finite is a word. -/
def valueTokens : Number → List Token
  | .nan => [.word ['n', 'a', 'n']]
  | .inf false => [.word ['i', 'n', 'f', 'i', 'n', 'i', 't', 'y']]
  | .inf true => [.op Word.minus, .word ['i', 'n', 'f', 'i', 'n', 'i', 't', 'y']]
  | .fin q =>
    if q = 0 then [.num ['0']]
    else if q < 0 then
      [.op Word.minus, .num (formatDigits (shortestDigits (-q)).1 (shortestDigits (-q)).2)]
    else [.num (formatDigits (shortestDigits q).1 (shortestDigits q).2)]

private theorem run_number {text : List Char} (h : NumberAt out text) (cs : List Char) :
    run step ⟨.blank, out⟩ (text ++ ',' :: cs) =
      run step ⟨.blank, .num text :: out⟩ (',' :: cs) := by
  obtain ⟨part, hpart, hrun⟩ := h
  have hnext : part.next ',' = none := by cases part <;> rfl
  have hcomma : step ⟨.number part text.reverse, out⟩ ',' =
      step ⟨.blank, .num text :: out⟩ ',' := by
    have hletter : isLetter ',' = false := by decide
    simp [step, readChar, hnext, hletter, endToken, pending, hpart]
  rw [run_append, hrun, Option.bind_some, run, run, hcomma]

theorem run_value (x : Number) (out : List Token) (cs : List Char) :
    run step ⟨.blank, out⟩ (numToString x ++ ',' :: cs) =
      run step ⟨.blank, (valueTokens x).reverse ++ out⟩ (',' :: cs) := by
  have hcomma : ∀ (text : List Char) (ts : List Token),
      run step {} (text ++ [',']) = some ⟨.blank, .comma :: ts⟩ →
      run step ⟨.blank, out⟩ (text ++ ',' :: cs) = run step ⟨.blank, ts ++ out⟩ (',' :: cs) := by
    intro text ts h
    have hpiece := run_piece h out cs
    rw [List.append_assoc] at hpiece
    exact hpiece
  cases x with
  | nan =>
    refine hcomma "NaN".toList [.word _] ?_
    rw [(String.toList_ofList : "NaN".toList = _)]
    rfl
  | inf s =>
    cases s with
    | false =>
      refine hcomma "Infinity".toList [.word _] ?_
      rw [(String.toList_ofList : "Infinity".toList = _)]
      rfl
    | true =>
      refine hcomma "-Infinity".toList [.word _, .op _] ?_
      rw [(String.toList_ofList : "-Infinity".toList = _)]
      rfl
  | fin q =>
    unfold numToString valueTokens
    simp only []
    split_ifs with h0 hneg
    · exact hcomma ['0'] [.num ['0']] rfl
    · obtain ⟨hne, hdigits⟩ := shortestDigits_digits (-q)
      obtain ⟨d, rest, htext, hd⟩ := formatDigits_head hne hdigits (shortestDigits (-q)).2
      have hnum := run_number (@numberAt_formatDigits (.op Word.minus :: out) _ hne hdigits
        (shortestDigits (-q)).2) cs
      rw [htext] at hnum ⊢
      rw [List.cons_append, List.cons_append, run_minus hd]
      exact hnum
    · obtain ⟨hne, hdigits⟩ := shortestDigits_digits q
      exact run_number (numberAt_formatDigits hne hdigits _) cs

end Numbers

section Entry

theorem mem_padded {width : ℕ} {n : ℤ} {c : Char} (h : c ∈ padded width n) : c.isDigit = true := by
  rcases List.mem_append.mp h with h | h
  · rw [List.eq_of_mem_replicate h]
    rfl
  · exact isDigit_toDigits h

/-- A time text has neither quotes nor NUL in it. -/
theorem not_mem_toISOString {c : Char} (hc : c = '\'' ∨ c = '\x00') (t : ℤ) : c ∉ toISOString t := by
  have hdigit : ¬ c.isDigit = true := by rcases hc with rfl | rfl <;> decide
  have hpadded : ∀ width n, c ∉ padded width n := fun width n h => hdigit (mem_padded h)
  have hmarks : c ∉ ['-', '+', 'T', ':', '.', 'Z'] := by rcases hc with rfl | rfl <;> decide
  simp only [List.mem_cons, List.not_mem_nil, or_false, not_or] at hmarks
  obtain ⟨h1, h2, h3, h4, h5, h6⟩ := hmarks
  unfold toISOString
  simp only []
  split_ifs <;> simp [hpadded, h1, h2, h3, h4, h5, h6]

theorem quoted_eq_escaped (s : List Char) : HistEntry.quoted s = escaped s := rfl

end Entry

end JsonScada.Processor.HistorianLex

namespace JsonScada.Processor.Historian.HistEntry

open JsonScada.Lib.EcmaScript JsonScada.Lib.Sql

/-- The text of valueJson before any quote is doubled. -/
def jsonSource (e : HistEntry) : List Char :=
  if e.valueJson = "" then ['"', '"'] else trim e.valueJson.toList

/-- The text the string constant of value_json stands for. -/
def jsonPlain (e : HistEntry) : List Char :=
  if wrapped e.valueJsonText then '"' :: (e.jsonSource ++ ['"']) else e.jsonSource

theorem valueJsonText_eq (e : HistEntry) : e.valueJsonText = escaped e.jsonSource := by
  unfold valueJsonText jsonSource
  split_ifs <;> rfl

theorem vj_eq (e : HistEntry) : e.vj = escaped e.jsonPlain := by
  unfold vj jsonPlain
  simp only []
  split_ifs
  · rw [valueJsonText_eq]
    simp [escaped]
  · exact valueJsonText_eq e

/-- No text of the entry holds a NUL. -/
def Printable (e : HistEntry) : Prop :=
  '\x00' ∉ e.tag.toList ∧ '\x00' ∉ e.jsonPlain ∧ '\x00' ∉ e.valueString.toList

end JsonScada.Processor.Historian.HistEntry

namespace JsonScada.Processor.HistorianLex

open JsonScada.Lib.Binary64 JsonScada.Lib.EcmaScript JsonScada.Lib.Machine JsonScada.Lib.Sql
open JsonScada.Model.Documents JsonScada.Processor.Historian

section Entry

/-- The tokens of the time at source. -/
def sourceTokens (e : HistEntry) : List Token :=
  match e.timeTagAtSource with
  | some t => [.str (toISOString t)]
  | none => [.word Word.null]

/-- Time at source, flags, and the end of the tuple. -/
def tailTokens (e : HistEntry) : List Token :=
  sourceTokens e ++ ([.comma, .bits e.flags, .rparen] : List Token)

/-- The tokens of one tuple. -/
def entryTokens (e : HistEntry) : List Token :=
  ([.lparen, .str e.tag.toList, .comma, .str (toISOString e.timeTag), .comma] : List Token) ++
    valueTokens e.value ++
    ([.comma, .lparen, .str ['\x7b', '"', 'v', '"', ':'], .op Word.concat, .word Word.trim, .lparen,
      .str (HistEntry.trimS e.valueJsonText), .word Word.from_, .word Word.to_json, .lparen,
      .str e.jsonPlain, .cast, .word Word.text, .rparen, .cast, .word Word.jsonb,
      .op Word.extract, .str ['\x7b', '\x7d'], .rparen, .op Word.concat,
      .str [',', '"', 's', '"', ':'], .op Word.concat, .word Word.to_json, .lparen,
      .str e.valueString.toList, .cast, .word Word.text, .rparen, .op Word.concat,
      .str ['\x7d'], .cast, .word Word.text, .rparen, .cast, .word Word.jsonb, .comma] :
        List Token) ++
    tailTokens e

-- the text of a tuple from its time at source on, from its valueString on, and from its
-- value_json constant on
def textFromSource (e : HistEntry) (rest : List Char) : List Char :=
  e.timeTagAtSourceSql ++ (",B".toList ++ '\'' :: (e.flags ++ '\'' :: ')' :: rest))

def textFromString (e : HistEntry) (rest : List Char) : List Char :=
  '\'' :: (escaped e.valueString.toList ++ '\'' ::
    ("::text)||'\x7d'::text)::jsonb,".toList ++ textFromSource e rest))

def textFromJson (e : HistEntry) (rest : List Char) : List Char :=
  '\'' :: (escaped e.jsonPlain ++ '\'' ::
    ("::text)::jsonb #>> '\x7b\x7d')||',\"s\":'||to_json(".toList ++ textFromString e rest))

theorem sql_eq (e : HistEntry) (rest : List Char) :
    e.sql ++ ')' :: rest = '\'' :: (escaped e.tag.toList ++ '\'' :: ',' ::
      '\'' :: (toISOString e.timeTag ++ '\'' :: ',' :: (numToString e.value ++ ',' ::
        ("('\x7b\"v\":'||trim(".toList ++ '\'' :: (HistEntry.trimS e.valueJsonText ++
          '\'' :: (" FROM to_json(".toList ++ textFromJson e rest)))))) := by
  have h1 : "','".toList = ['\'', ',', '\''] := String.toList_ofList
  have h2 : "',".toList = ['\'', ','] := String.toList_ofList
  have h3 : ",('\x7b\"v\":'||trim('".toList = ',' :: ("('\x7b\"v\":'||trim(".toList ++ ['\'']) := by
    rw [(String.toList_ofList : ",('\x7b\"v\":'||trim('".toList = _),
      (String.toList_ofList : "('\x7b\"v\":'||trim(".toList = _)]
    rfl
  have h4 : "' FROM to_json('".toList = '\'' :: (" FROM to_json(".toList ++ ['\'']) := by
    rw [(String.toList_ofList : "' FROM to_json('".toList = _),
      (String.toList_ofList : " FROM to_json(".toList = _)]
    rfl
  have h5 : "'::text)::jsonb #>> '\x7b\x7d')||',\"s\":'||to_json('".toList =
      '\'' :: ("::text)::jsonb #>> '\x7b\x7d')||',\"s\":'||to_json(".toList ++ ['\'']) := by
    rw [(String.toList_ofList : "'::text)::jsonb #>> '\x7b\x7d')||',\"s\":'||to_json('".toList = _),
      (String.toList_ofList : "::text)::jsonb #>> '\x7b\x7d')||',\"s\":'||to_json(".toList = _)]
    rfl
  have h6 : "'::text)||'\x7d'::text)::jsonb,".toList =
      '\'' :: "::text)||'\x7d'::text)::jsonb,".toList := by
    rw [(String.toList_ofList : "'::text)||'\x7d'::text)::jsonb,".toList = _),
      (String.toList_ofList : "::text)||'\x7d'::text)::jsonb,".toList = _)]
  have h7 : ",B'".toList = ",B".toList ++ ['\''] := by
    rw [(String.toList_ofList : ",B'".toList = _), (String.toList_ofList : ",B".toList = _)]
    rfl
  unfold HistEntry.sql
  rw [HistEntry.vj_eq, HistEntry.vs, h1, h2, h3, h4, h5, h6, h7,
    quoted_eq_escaped, quoted_eq_escaped, textFromJson, textFromString, textFromSource]
  simp only [List.append_assoc, List.cons_append, List.nil_append]

variable (e : HistEntry) (out : List Token) (rest : List Char)

theorem run_comma (cs : List Char) :
    run step ⟨.blank, out⟩ (',' :: cs) = run step ⟨.blank, .comma :: out⟩ cs := rfl

theorem run_newline (cs : List Char) :
    run step ⟨.blank, out⟩ ('\n' :: cs) = run step ⟨.blank, out⟩ cs := rfl

/-- A time constant and the comma behind it. -/
private theorem run_time (t : ℤ) (cs : List Char) :
    run step ⟨.blank, out⟩ ('\'' :: (toISOString t ++ '\'' :: ',' :: cs)) =
      run step ⟨.blank, .comma :: .str (toISOString t) :: out⟩ cs := by
  have hrun := run_string (not_mem_toISOString (.inr rfl) t) out (show ',' ≠ '\'' by decide) cs
  rw [escaped_of_not_mem (not_mem_toISOString (.inl rfl) t)] at hrun
  exact hrun

theorem not_mem_trimS {c : Char} (hc : c ≠ '"') (vj : List Char) : c ∉ HistEntry.trimS vj := by
  unfold HistEntry.trimS
  split_ifs
  · simpa using hc
  · exact List.not_mem_nil

/-- The tuple up to its value_json constant. -/
theorem run_entry_head (h : '\x00' ∉ e.tag.toList) :
    run step ⟨.blank, out⟩ ('(' :: (e.sql ++ ')' :: rest)) =
      run step ⟨.blank, ([.lparen, .word Word.to_json, .word Word.from_,
          .str (HistEntry.trimS e.valueJsonText), .lparen, .word Word.trim, .op Word.concat,
          .str ['\x7b', '"', 'v', '"', ':'], .lparen, .comma] : List Token) ++
          (valueTokens e.value).reverse ++ ([.comma, .str (toISOString e.timeTag), .comma,
            .str e.tag.toList, .lparen] : List Token) ++ out⟩
        (textFromJson e rest) := by
  have hopen : ∀ (out : List Token) cs,
      run step ⟨.blank, out⟩ ('(' :: cs) = run step ⟨.blank, .lparen :: out⟩ cs := fun _ _ => rfl
  have htrim : '\x00' ∉ HistEntry.trimS e.valueJsonText := not_mem_trimS (by decide) _
  have htrimq : '\'' ∉ HistEntry.trimS e.valueJsonText := not_mem_trimS (by decide) _
  have hv : run step {} "('\x7b\"v\":'||trim(".toList = some ⟨.blank, [.lparen, .word Word.trim,
      .op Word.concat, .str ['\x7b', '"', 'v', '"', ':'], .lparen]⟩ := by
    rw [(String.toList_ofList : "('\x7b\"v\":'||trim(".toList = _)]
    rfl
  have hfrom : " FROM to_json(".toList = _ := String.toList_ofList
  have hconst := @run_constant _ " FROM to_json(".toList [.lparen, .word Word.to_json,
    .word Word.from_] htrim (by rw [hfrom]; rfl) (by rw [hfrom]; rfl)
  rw [escaped_of_not_mem htrimq] at hconst
  rw [sql_eq, hopen, run_string h _ (by decide), run_comma, run_time, run_value, run_comma,
    run_piece hv, hconst]
  simp

theorem run_entry_json (h : '\x00' ∉ e.jsonPlain) :
    run step ⟨.blank, out⟩ (textFromJson e rest) =
      run step ⟨.blank, ([.lparen, .word Word.to_json, .op Word.concat,
          .str [',', '"', 's', '"', ':'], .op Word.concat, .rparen, .str ['\x7b', '\x7d'],
          .op Word.extract, .word Word.jsonb, .cast, .rparen, .word Word.text, .cast,
          .str e.jsonPlain] : List Token) ++ out⟩ (textFromString e rest) := by
  have htext : "::text)::jsonb #>> '\x7b\x7d')||',\"s\":'||to_json(".toList = _ :=
    String.toList_ofList
  have hpiece : run step {} "::text)::jsonb #>> '\x7b\x7d')||',\"s\":'||to_json(".toList =
      some ⟨.blank, [.lparen, .word Word.to_json, .op Word.concat,
          .str [',', '"', 's', '"', ':'], .op Word.concat, .rparen, .str ['\x7b', '\x7d'],
          .op Word.extract, .word Word.jsonb, .cast, .rparen, .word Word.text, .cast]⟩ := by
    rw [htext]
    rfl
  rw [textFromJson, run_constant h (by rw [htext]; rfl) hpiece]
  rfl

theorem run_entry_string (h : '\x00' ∉ e.valueString.toList) :
    run step ⟨.blank, out⟩ (textFromString e rest) =
      run step ⟨.blank, ([.comma, .word Word.jsonb, .cast, .rparen, .word Word.text, .cast,
          .str ['\x7d'], .op Word.concat, .rparen, .word Word.text, .cast,
          .str e.valueString.toList] : List Token) ++ out⟩ (textFromSource e rest) := by
  have htext : "::text)||'\x7d'::text)::jsonb,".toList = _ := String.toList_ofList
  have hpiece : run step {} "::text)||'\x7d'::text)::jsonb,".toList =
      some ⟨.blank, [.comma, .word Word.jsonb, .cast, .rparen, .word Word.text, .cast,
          .str ['\x7d'], .op Word.concat, .rparen, .word Word.text, .cast]⟩ := by
    rw [htext]
    rfl
  rw [textFromString, run_constant h (by rw [htext]; rfl) hpiece]
  rfl

theorem flags_bits : ∀ c ∈ e.flags, c = '0' ∨ c = '1' := by
  have hbit : ∀ b, HistEntry.bit b = '0' ∨ HistEntry.bit b = '1' := by
    intro b
    cases b
    · exact .inl rfl
    · exact .inr rfl
  intro c hc
  simp only [HistEntry.flags, List.mem_cons, List.not_mem_nil, or_false] at hc
  rcases hc with rfl | rfl | rfl | rfl | rfl | rfl | rfl | rfl
  all_goals first | exact hbit _ | exact .inl rfl

/-- The flags and the end of the tuple. -/
private theorem run_flags :
    run step ⟨.blank, out⟩ (",B".toList ++ '\'' :: (e.flags ++ '\'' :: ')' :: rest)) =
      run step ⟨.blank, ([.rparen, .bits e.flags, .comma] : List Token) ++ out⟩ rest := by
  have hopen : ∀ cs, run step ⟨.blank, out⟩ (",B".toList ++ '\'' :: cs) =
      run step ⟨.bits [], .comma :: out⟩ cs := fun _ => rfl
  have hclose : ∀ (acc : List Char) (out : List Token) cs,
      run step ⟨.bits acc, out⟩ ('\'' :: ')' :: cs) =
        run step ⟨.blank, .rparen :: .bits acc.reverse :: out⟩ cs := fun _ _ _ => rfl
  rw [hopen, run_append, run_bits (flags_bits e), Option.bind_some, hclose]
  simp

theorem run_entry_tail :
    run step ⟨.blank, out⟩ (textFromSource e rest) =
      run step ⟨.blank, (tailTokens e).reverse ++ out⟩ rest := by
  have hcons : ∀ cs, ",B".toList ++ cs = ',' :: ("B".toList ++ cs) := fun _ => rfl
  cases hs : e.timeTagAtSource with
  | none =>
    have hnull : ∀ cs, run step ⟨.blank, out⟩ ("null".toList ++ (",B".toList ++ cs)) =
        run step ⟨.blank, .word Word.null :: out⟩ (",B".toList ++ cs) := fun _ => rfl
    rw [textFromSource, HistEntry.timeTagAtSourceSql, hs]
    simp only []
    rw [hnull, run_flags, tailTokens, sourceTokens, hs]
    rfl
  | some t =>
    rw [textFromSource, HistEntry.timeTagAtSourceSql, hs]
    simp only [List.append_assoc, List.cons_append, List.nil_append]
    rw [hcons, run_time, ← run_comma, ← hcons, run_flags, tailTokens, sourceTokens, hs]
    rfl

/-- The tokens of the tuple of an entry without NUL. -/
theorem run_entry (h : e.Printable) :
    run step ⟨.blank, out⟩ ('(' :: (e.sql ++ ')' :: rest)) =
      run step ⟨.blank, (entryTokens e).reverse ++ out⟩ rest := by
  obtain ⟨htag, hjson, hstring⟩ := h
  rw [run_entry_head e out rest htag, run_entry_json e _ rest hjson,
    run_entry_string e _ rest hstring, run_entry_tail]
  simp [entryTokens]

/-- A NUL anywhere in the entry is a lexical error. -/
theorem run_entry_nul (h : ¬ e.Printable) :
    run step ⟨.blank, out⟩ ('(' :: (e.sql ++ ')' :: rest)) = none := by
  by_cases htag : '\x00' ∈ e.tag.toList
  · rw [sql_eq, run, show step ⟨.blank, out⟩ '(' = some ⟨.blank, .lparen :: out⟩ from rfl,
      Option.bind_some, run_string_nul htag]
  · rw [run_entry_head e out rest htag]
    by_cases hjson : '\x00' ∈ e.jsonPlain
    · rw [textFromJson, run_string_nul hjson]
    · have hstring : '\x00' ∈ e.valueString.toList := by
        by_contra hstring
        exact h ⟨htag, hjson, hstring⟩
      rw [run_entry_json e _ rest hjson, textFromString, run_string_nul hstring]

end Entry

end JsonScada.Processor.HistorianLex
