/- path: JsonScada/Processor/HistorianSql
   source: src/cs_data_processor/cs_data_processor.js, processSqlAndMongoHistUpdates
   digest: The transaction of a batch is read back as one row for each entry. -/

import JsonScada.Processor.HistorianLex

set_option autoImplicit false
set_option relaxedAutoImplicit false

namespace JsonScada.Processor.HistorianSql

open JsonScada.Lib JsonScada.Lib.Binary64 JsonScada.Lib.EcmaScript JsonScada.Lib.Machine
open JsonScada.Lib.Sql JsonScada.Processor.Historian JsonScada.Processor.HistorianLex

section Rows

/-- The number of an entry as an expression: a word when it is not finite. -/
def valueExpr : Number → Expr
  | .nan => .column ['n', 'a', 'n']
  | .inf false => .column ['i', 'n', 'f', 'i', 'n', 'i', 't', 'y']
  | .inf true => .neg (.column ['i', 'n', 'f', 'i', 'n', 'i', 't', 'y'])
  | .fin q =>
    if q = 0 then .num ['0']
    else if q < 0 then .neg (.num (formatDigits (shortestDigits (-q)).1 (shortestDigits (-q)).2))
    else .num (formatDigits (shortestDigits q).1 (shortestDigits q).2)

def jsonExpr (e : HistEntry) : Expr :=
  .cast (.op Word.concat (.op Word.concat (.op Word.concat (.op Word.concat
    (.str ['\x7b', '"', 'v', '"', ':'])
    (.trim (.str (HistEntry.trimS e.valueJsonText))
      (.op Word.extract (.cast (.call Word.to_json (.cast (.str e.jsonPlain) Word.text)) Word.jsonb)
        (.str ['\x7b', '\x7d']))))
    (.str [',', '"', 's', '"', ':']))
    (.call Word.to_json (.cast (.str e.valueString.toList) Word.text)))
    (.cast (.str ['\x7d']) Word.text)) Word.jsonb

def sourceExpr (e : HistEntry) : Expr :=
  match e.timeTagAtSource with
  | some t => .str (toISOString t)
  | none => .null

/-- The row of an entry. -/
def rowOf (e : HistEntry) : List Expr :=
  [.str e.tag.toList, .str (toISOString e.timeTag), valueExpr e.value, jsonExpr e, sourceExpr e,
    .bits e.flags]

theorem parseExpr_value (x : Number) (ts : List Token) :
    parseExpr maxDepth .expr (valueTokens x ++ .comma :: ts) = some (valueExpr x, .comma :: ts) := by
  cases x with
  | nan => rfl
  | inf s => cases s <;> rfl
  | fin q =>
    simp only [valueTokens, valueExpr]
    split_ifs <;> rfl

theorem parseExpr_json (e : HistEntry) (ts : List Token) :
    parseExpr maxDepth .expr
        (([.lparen, .str ['\x7b', '"', 'v', '"', ':'], .op Word.concat, .word Word.trim, .lparen,
          .str (HistEntry.trimS e.valueJsonText), .word Word.from_, .word Word.to_json, .lparen,
          .str e.jsonPlain, .cast, .word Word.text, .rparen, .cast, .word Word.jsonb,
          .op Word.extract, .str ['\x7b', '\x7d'], .rparen, .op Word.concat,
          .str [',', '"', 's', '"', ':'], .op Word.concat, .word Word.to_json, .lparen,
          .str e.valueString.toList, .cast, .word Word.text, .rparen, .op Word.concat,
          .str ['\x7d'], .cast, .word Word.text, .rparen, .cast, .word Word.jsonb, .comma] :
            List Token) ++ ts) =
      some (jsonExpr e, .comma :: ts) := rfl

theorem parseExpr_str (s : List Char) (ts : List Token) :
    parseExpr maxDepth .expr (.str s :: .comma :: ts) = some (.str s, .comma :: ts) := rfl

theorem parseExpr_source (e : HistEntry) (ts : List Token) :
    parseExpr maxDepth .expr (sourceTokens e ++ .comma :: ts) =
      some (sourceExpr e, .comma :: ts) := by
  unfold sourceTokens sourceExpr
  cases e.timeTagAtSource <;> rfl

theorem parseFields_comma {n : ℕ} {ts us : List Token} {a : Expr}
    (h : parseExpr maxDepth .expr ts = some (a, .comma :: us)) :
    parseFields (n + 1) ts = (parseFields n us).map fun r => (a :: r.1, r.2) := by
  rw [parseFields, h]
  rfl

theorem parseFields_rparen {n : ℕ} {ts us : List Token} {a : Expr}
    (h : parseExpr maxDepth .expr ts = some (a, .rparen :: us)) :
    parseFields (n + 1) ts = some ([a], us) := by
  rw [parseFields, h]
  rfl

/-- The tokens of a tuple behind its opening parenthesis are read as the row. -/
theorem parseFields_entry (e : HistEntry) (n : ℕ) (ts : List Token) :
    parseFields (n + 6) ((entryTokens e).tail ++ ts) = some (rowOf e, ts) := by
  have hflags : parseExpr maxDepth .expr (.bits e.flags :: .rparen :: ts) =
      some (.bits e.flags, .rparen :: ts) := rfl
  simp only [entryTokens, tailTokens, List.cons_append, List.append_assoc, List.nil_append,
    List.tail_cons]
  rw [parseFields_comma (parseExpr_str _ _), parseFields_comma (parseExpr_str _ _),
    parseFields_comma (parseExpr_value _ _)]
  have hjson := parseExpr_json e (sourceTokens e ++ .comma :: .bits e.flags :: .rparen :: ts)
  simp only [List.cons_append, List.nil_append] at hjson
  rw [parseFields_comma hjson, parseFields_comma (parseExpr_source _ _),
    parseFields_rparen hflags]
  rfl

/-- The tokens of the tuples of a batch. -/
def rowsTokens : List HistEntry → List Token
  | [] => []
  | [e] => entryTokens e
  | e :: es => entryTokens e ++ .comma :: rowsTokens es

/-- The text of the tuples of a batch, with the text behind them. -/
def rowsText : List HistEntry → List Char → List Char
  | [], rest => rest
  | [e], rest => '\n' :: '(' :: (e.sql ++ ')' :: rest)
  | e :: es, rest => '\n' :: '(' :: (e.sql ++ ')' :: ',' :: rowsText es rest)

theorem rowsTokens_cons_cons (e e' : HistEntry) (es : List HistEntry) :
    rowsTokens (e :: e' :: es) = entryTokens e ++ .comma :: rowsTokens (e' :: es) := rfl

theorem rowsText_cons_cons (e e' : HistEntry) (es : List HistEntry) (rest : List Char) :
    rowsText (e :: e' :: es) rest =
      '\n' :: '(' :: (e.sql ++ ')' :: ',' :: rowsText (e' :: es) rest) := rfl

theorem entryTokens_cons (e : HistEntry) : entryTokens e = .lparen :: (entryTokens e).tail := rfl

/-- The rows of a batch are read up to a word behind them. -/
theorem parseRows_rowsTokens {batch : List HistEntry} (hne : batch ≠ []) {n : ℕ}
    (hn : batch.length ≤ n) (w : List Char) (ts : List Token) :
    parseRows n (rowsTokens batch ++ .word w :: ts) = some (batch.map rowOf, .word w :: ts) := by
  induction batch generalizing n with
  | nil => exact absurd rfl hne
  | cons e es ih =>
    obtain ⟨m, rfl⟩ : ∃ m, n = m + 1 := ⟨n - 1, by simp only [List.length_cons] at hn; omega⟩
    cases es with
    | nil =>
      rw [rowsTokens, entryTokens_cons, List.cons_append, parseRows, parseFields_entry]
      rfl
    | cons e' es =>
      have hlen : (e' :: es).length ≤ m := by
        simp only [List.length_cons] at hn ⊢
        omega
      have hrest := ih (by simp) hlen
      rw [rowsTokens_cons_cons, entryTokens_cons, List.append_assoc, List.cons_append, parseRows,
        parseFields_entry]
      simp only [Option.bind_some, List.cons_append]
      rw [hrest]
      rfl

/-- The text of the tuples has their tokens, unless a text in an entry holds a NUL. -/
theorem run_rowsText {batch : List HistEntry} (h : ∀ e ∈ batch, e.Printable) (out : List Token)
    (rest : List Char) :
    run step ⟨.blank, out⟩ (rowsText batch rest) =
      run step ⟨.blank, (rowsTokens batch).reverse ++ out⟩ rest := by
  induction batch generalizing out with
  | nil => rfl
  | cons e es ih =>
    have he := h e List.mem_cons_self
    have hes := fun e' he' => h e' (List.mem_cons_of_mem e he')
    cases es with
    | nil =>
      rw [rowsText, run_newline, run_entry e out rest he, rowsTokens]
    | cons e' es =>
      rw [rowsText_cons_cons, run_newline, run_entry e out _ he, run_comma, ih hes, rowsTokens_cons_cons]
      simp

theorem run_rowsText_nul {batch : List HistEntry} {e : HistEntry} (he : e ∈ batch)
    (h : ¬ e.Printable) (out : List Token) (rest : List Char) :
    run step ⟨.blank, out⟩ (rowsText batch rest) = none := by
  induction batch generalizing out with
  | nil => cases he
  | cons e' es ih =>
    by_cases hp : e'.Printable
    · have hmem : e ∈ es := by
        rcases List.mem_cons.mp he with rfl | he
        · exact absurd hp h
        · exact he
      cases es with
      | nil => cases hmem
      | cons e'' es =>
        rw [rowsText_cons_cons, run_newline, run_entry e' out _ hp, run_comma]
        exact ih hmem _
    · cases es with
      | nil => rw [rowsText, run_newline, run_entry_nul e' out rest hp]
      | cons e'' es =>
        rw [rowsText_cons_cons, run_newline, run_entry_nul e' out _ hp]

end Rows

section Transaction

def headerText : List Char :=
  "START TRANSACTION;\nINSERT INTO hist (tag, time_tag, value, value_json, time_tag_at_source, flags) VALUES ".toList

def footerText : List Char :=
  " \nON CONFLICT (tag, time_tag) DO NOTHING;\nCOMMIT;\n".toList

theorem histTransaction_eq {batch : List HistEntry} (hne : batch ≠ []) :
    histTransaction batch = headerText ++ rowsText batch footerText := by
  have hfoot : " \n".toList ++ "ON CONFLICT (tag, time_tag) DO NOTHING;\n".toList ++
      "COMMIT;\n".toList = footerText := by
    have htext : footerText = _ := String.toList_ofList
    rw [htext, (String.toList_ofList : " \n".toList = _),
      (String.toList_ofList : "ON CONFLICT (tag, time_tag) DO NOTHING;\n".toList = _),
      (String.toList_ofList : "COMMIT;\n".toList = _)]
    rfl
  have hfold : ∀ (es : List HistEntry) (t : List Char),
      es ≠ [] → (es.foldl (fun t e => t ++ ['\n', '('] ++ e.sql ++ [')', ',']) t).dropLast ++
        footerText = t ++ rowsText es footerText := by
    intro es
    induction es with
    | nil => exact fun _ h => absurd rfl h
    | cons e es ih =>
      intro t _
      cases es with
      | nil =>
        have hlast : t ++ ['\n', '('] ++ e.sql ++ [')', ','] =
            (t ++ ['\n', '('] ++ e.sql ++ [')']) ++ [','] := by simp
        rw [List.foldl_cons, List.foldl_nil, hlast, List.dropLast_concat, rowsText]
        simp
      | cons e' es =>
        rw [List.foldl_cons, ih _ (by simp), rowsText_cons_cons]
        simp
  rw [histTransaction, List.append_assoc, List.append_assoc, ← List.append_assoc " \n".toList, hfoot]
  exact hfold batch headerText hne

/-- The columns named in the statement. -/
def columns : List (List Char) :=
  ["tag", "time_tag", "value", "value_json", "time_tag_at_source", "flags"].map String.toList

def headerTokens : List Token :=
  [.word Word.start, .word Word.transaction, .semicolon, .word Word.insert, .word Word.into,
    .word "hist".toList, .lparen, .word "tag".toList, .comma, .word "time_tag".toList, .comma,
    .word "value".toList, .comma, .word "value_json".toList, .comma,
    .word "time_tag_at_source".toList, .comma, .word "flags".toList, .rparen, .word Word.values]

def footerTokens : List Token :=
  [.word Word.on, .word Word.conflict, .lparen, .word "tag".toList, .comma,
    .word "time_tag".toList, .rparen, .word Word.do_, .word Word.nothing, .semicolon,
    .word Word.commit, .semicolon]

set_option maxRecDepth 4000 in
theorem run_headerText : run step {} headerText = some ⟨.blank, headerTokens.reverse⟩ := by
  have hhist : "hist".toList = _ := String.toList_ofList
  have htag : "tag".toList = _ := String.toList_ofList
  have htime : "time_tag".toList = _ := String.toList_ofList
  have hvalue : "value".toList = _ := String.toList_ofList
  have hjson : "value_json".toList = _ := String.toList_ofList
  have hsource : "time_tag_at_source".toList = _ := String.toList_ofList
  have hflags : "flags".toList = _ := String.toList_ofList
  have htext : headerText = _ := String.toList_ofList
  rw [headerTokens, hhist, htag, htime, hvalue, hjson, hsource, hflags, htext]
  rfl

theorem tokens_histTransaction {batch : List HistEntry} (hne : batch ≠ [])
    (h : ∀ e ∈ batch, e.Printable) :
    tokens (histTransaction batch) = some (headerTokens ++ (rowsTokens batch ++ footerTokens)) := by
  have hfoot : run step {} footerText = some ⟨.blank, footerTokens.reverse⟩ := by
    have htext : footerText = _ := String.toList_ofList
    rw [footerTokens, (String.toList_ofList : "tag".toList = _),
      (String.toList_ofList : "time_tag".toList = _), htext]
    rfl
  have hend := run_piece hfoot ((rowsTokens batch).reverse ++ (headerTokens.reverse ++ [])) []
  rw [List.append_nil footerText, run_nil] at hend
  rw [tokens, histTransaction_eq hne, run_piece run_headerText, run_rowsText h, hend]
  simp [pending]

theorem tokens_histTransaction_nul {batch : List HistEntry} {e : HistEntry} (he : e ∈ batch)
    (h : ¬ e.Printable) :
    tokens (histTransaction batch) = none := by
  rw [tokens, histTransaction_eq (List.ne_nil_of_mem he), run_piece run_headerText, run_rowsText_nul he h]
  rfl

/-- The statement the text of a batch stands for. -/
def insertOf (batch : List HistEntry) : Insert :=
  { table := "hist".toList
    columns := columns
    rows := batch.map rowOf
    keys := ["tag".toList, "time_tag".toList] }

theorem length_rowsTokens (batch : List HistEntry) : batch.length ≤ (rowsTokens batch).length := by
  induction batch with
  | nil => exact Nat.zero_le _
  | cons e es ih =>
    cases es with
    | nil => simp [rowsTokens, entryTokens]
    | cons e' es =>
      simp only [rowsTokens, List.length_append, List.length_cons] at ih ⊢
      omega

theorem parseTransaction_histTransaction {batch : List HistEntry} (hne : batch ≠ []) :
    parseTransaction (headerTokens ++ (rowsTokens batch ++ footerTokens)) =
      some (insertOf batch) := by
  have hlen : batch.length ≤ (rowsTokens batch ++ footerTokens).length := by
    have hrows := length_rowsTokens batch
    rw [List.length_append]
    omega
  have hrows : parseRows (rowsTokens batch ++ footerTokens).length
      (rowsTokens batch ++ footerTokens) = some (batch.map rowOf, footerTokens) :=
    parseRows_rowsTokens hne hlen Word.on footerTokens.tail
  have hkeys : parseConflict footerTokens = some (["tag".toList, "time_tag".toList],
      [.semicolon, .word Word.commit, .semicolon]) := by
    rw [footerTokens, (String.toList_ofList : "tag".toList = _),
      (String.toList_ofList : "time_tag".toList = _)]
    rfl
  have hnames : parseNames 1600 (headerTokens.drop 7 ++ (rowsTokens batch ++ footerTokens)) =
      some (columns, .word Word.values :: (rowsTokens batch ++ footerTokens)) := rfl
  have hall : ((batch.map rowOf).all fun row => row.length = columns.length) = true := by
    have hrow : ∀ e, (rowOf e).length = columns.length := fun _ => rfl
    simp [hrow]
  have hinsert : parseInsert (headerTokens.drop 3 ++ (rowsTokens batch ++ footerTokens)) =
      some (insertOf batch, [.semicolon, .word Word.commit, .semicolon]) := by
    have hwords : headerTokens.drop 3 ++ (rowsTokens batch ++ footerTokens) =
        .word Word.insert :: .word Word.into :: .word "hist".toList :: .lparen ::
          (headerTokens.drop 7 ++ (rowsTokens batch ++ footerTokens)) := rfl
    rw [hwords, parseInsert]
    simp only [and_self, if_true, hnames, Option.bind_some, hrows, hkeys, hall]
    rfl
  have hstart : headerTokens ++ (rowsTokens batch ++ footerTokens) =
      .word Word.start :: .word Word.transaction :: .semicolon ::
        (headerTokens.drop 3 ++ (rowsTokens batch ++ footerTokens)) := rfl
  rw [hstart, parseTransaction, hinsert]
  rfl

end Transaction

section Evaluation

variable {inRange : List Char → Bool}

/-- The JSON text of member v, as the trimmed text of its string constant. -/
def memberText (e : HistEntry) : List Char :=
  trimBoth (HistEntry.trimS e.valueJsonText) e.jsonPlain

/-- The object with member v alone. -/
def loneMember (text : List Char) : List Char :=
  '\x7b' :: (Json.quote ['v'] ++ ':' :: (text ++ ['\x7d']))

/-- The object of value_json. -/
def document (e : HistEntry) : List Char :=
  '\x7b' :: (Json.quote ['v'] ++ ':' :: (memberText e ++ ',' :: (Json.quote ['s'] ++ ':' ::
    (Json.quote e.valueString.toList ++ ['\x7d']))))

theorem eval_value (x : Number) :
    eval inRange (valueExpr x) =
      if x.IsFinite then some (.numeric (numToString x)) else none := by
  cases x with
  | nan => rfl
  | inf s => cases s <;> rfl
  | fin q =>
    have hfin : (Number.fin q).IsFinite := trivial
    rw [if_pos hfin]
    unfold valueExpr numToString
    simp only []
    split_ifs <;> rfl

theorem eval_str (s : List Char) : eval inRange (.str s) = some (.text s) := rfl

theorem eval_concat {a b : Expr} {s t : List Char} (ha : eval inRange a = some (.text s))
    (hb : eval inRange b = some (.text t)) :
    eval inRange (.op Word.concat a b) = some (.text (s ++ t)) := by
  rw [eval, ha, hb]
  rfl

theorem eval_concat_json {a b : Expr} {s t : List Char} (ha : eval inRange a = some (.text s))
    (hb : eval inRange b = some (.json t)) :
    eval inRange (.op Word.concat a b) = some (.text (s ++ t)) := by
  rw [eval, ha, hb]
  rfl

/-- The JSON string of the value_json constant is read back as the text it was made of. -/
theorem eval_extracted {text : List Char} (h : '\x00' ∉ text) :
    eval inRange (.op Word.extract (.cast (.call Word.to_json (.cast (.str text) Word.text))
      Word.jsonb) (.str ['\x7b', '\x7d'])) = some (.text text) := by
  obtain ⟨doc, hparse, hroot⟩ := @Json.parse_quote inRange text h
  have hjson : eval inRange (.cast (.call Word.to_json (.cast (.str text) Word.text)) Word.jsonb) =
      (Json.parse inRange (Json.quote text)).map .jsonb := rfl
  rw [eval, hjson, hparse]
  simp [eval, evalOp, hroot]

theorem eval_json {e : HistEntry} (h : e.Printable) :
    eval inRange (jsonExpr e) = (Json.parse inRange (document e)).map .jsonb := by
  have htrim : eval inRange (.trim (.str (HistEntry.trimS e.valueJsonText))
      (.op Word.extract (.cast (.call Word.to_json (.cast (.str e.jsonPlain) Word.text)) Word.jsonb)
        (.str ['\x7b', '\x7d']))) = some (.text (memberText e)) := by
    rw [eval, eval_extracted h.2.1]
    rfl
  have hstring : eval inRange (.call Word.to_json (.cast (.str e.valueString.toList) Word.text)) =
      some (.json (Json.quote e.valueString.toList)) := rfl
  have hbrace : eval inRange (.cast (.str ['\x7d']) Word.text) = some (.text ['\x7d']) := rfl
  have hv := eval_concat (eval_concat (eval_str ['\x7b', '"', 'v', '"', ':']) htrim)
    (eval_str [',', '"', 's', '"', ':'])
  have htext := eval_concat (eval_concat_json hv hstring) hbrace
  have hdoc : ['\x7b', '"', 'v', '"', ':'] ++ memberText e ++ [',', '"', 's', '"', ':'] ++
      Json.quote e.valueString.toList ++ ['\x7d'] = document e := by
    simp [document, Json.quote, Json.escapeChar]
  rw [hdoc] at htext
  rw [jsonExpr, eval, htext]
  rfl

/-- What a row is to say of an entry. -/
structure Represents (inRange : List Char → Bool) (e : HistEntry) (row : List Expr) : Prop where
  tag : (row[0]?).bind (eval inRange) = some (.text e.tag.toList)
  value : (row[2]?).bind (eval inRange) = some (.numeric (numToString e.value))
  value_json : ∃ doc, (row[3]?).bind (eval inRange) = some (.jsonb doc) ∧
    doc.member ['s'] = some (some e.valueString.toList)

/-- The text is one transaction of one INSERT with a row for each entry. -/
def WellFormed (inRange : List Char → Bool) (batch : List HistEntry) (text : List Char) : Prop :=
  ∃ ts ins, tokens text = some ts ∧ parseTransaction ts = some ins ∧
    ins.table = "hist".toList ∧ ins.columns = columns ∧
    List.Forall₂ (Represents inRange) batch ins.rows

/-- The text behind `{"v":` is a value. -/
def JsonMember (inRange : List Char → Bool) (text : List Char) : Prop :=
  (Json.parse inRange (loneMember text)).isSome = true

instance (inRange : List Char → Bool) (text : List Char) : Decidable (JsonMember inRange text) := by
  unfold JsonMember
  infer_instance

theorem represents_rowOf {e : HistEntry} (h : e.Printable) :
    Represents inRange e (rowOf e) ↔ e.value.IsFinite ∧ JsonMember inRange (memberText e) := by
  have hmember := @Json.parse_further_member inRange ['v'] (memberText e) e.valueString.toList [] 's'
    (by decide) (by decide) (by decide) h.2.2
  have hvalue : eval inRange (valueExpr e.value) = some (.numeric (numToString e.value)) ↔
      e.value.IsFinite := by
    rw [eval_value]
    split_ifs with hf <;> simp [hf]
  constructor
  · rintro ⟨-, hval, doc, hdoc, hs⟩
    have hjson : (Json.parse inRange (document e)).map Value.jsonb = some (.jsonb doc) := by
      rw [← eval_json h]
      exact hdoc
    obtain ⟨doc', hparse, hdoc'⟩ := Option.map_eq_some_iff.mp hjson
    obtain rfl : doc' = doc := Value.jsonb.inj hdoc'
    exact ⟨hvalue.mp hval, hmember.mp ⟨doc', hparse, hs⟩⟩
  · rintro ⟨hfin, hj⟩
    obtain ⟨doc, hparse, hs⟩ := hmember.mpr hj
    have hjson : eval inRange (jsonExpr e) = some (.jsonb doc) := by
      rw [eval_json h]
      exact congrArg (Option.map Value.jsonb) hparse
    exact ⟨rfl, hvalue.mpr hfin, doc, hjson, hs⟩

/-- The entry can be written: no NUL, a finite number, and a JSON value. -/
structure Writable (inRange : List Char → Bool) (e : HistEntry) : Prop where
  printable : e.Printable
  finite : e.value.IsFinite
  json : JsonMember inRange (memberText e)

/-- The transaction of a batch is well formed when every one of its entries can be written. -/
theorem wellFormed_iff {batch : List HistEntry} (hne : batch ≠ []) :
    WellFormed inRange batch (histTransaction batch) ↔ ∀ e ∈ batch, Writable inRange e := by
  constructor
  · rintro ⟨ts, ins, htokens, hparse, -, -, hrows⟩
    have hprint : ∀ e ∈ batch, e.Printable := by
      intro e he
      by_contra hnul
      rw [tokens_histTransaction_nul he hnul] at htokens
      cases htokens
    obtain rfl := Option.some.inj ((tokens_histTransaction hne hprint).symm.trans htokens)
    obtain rfl := Option.some.inj ((parseTransaction_histTransaction hne).symm.trans hparse)
    have hall : ∀ e ∈ batch, Represents inRange e (rowOf e) := by
      rw [insertOf, List.forall₂_map_right_iff, List.forall₂_same] at hrows
      exact hrows
    intro e he
    obtain ⟨hfin, hjson⟩ := (represents_rowOf (hprint e he)).mp (hall e he)
    exact ⟨hprint e he, hfin, hjson⟩
  · intro h
    refine ⟨_, _, tokens_histTransaction hne fun e he => (h e he).printable,
      parseTransaction_histTransaction hne, rfl, rfl, ?_⟩
    rw [insertOf, List.forall₂_map_right_iff, List.forall₂_same]
    intro e he
    exact (represents_rowOf (h e he).printable).mpr ⟨(h e he).finite, (h e he).json⟩

end Evaluation

end JsonScada.Processor.HistorianSql
