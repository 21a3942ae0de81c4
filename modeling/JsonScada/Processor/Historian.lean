/- path: JsonScada/Processor/Historian
   source: src/cs_data_processor/cs_data_processor.js, sqlHistQueue and processSqlAndMongoHistUpdates
   digest: Historian entries, the values list of one entry, and the transaction of a batch. -/

import JsonScada.Model.Documents

set_option autoImplicit false
set_option relaxedAutoImplicit false

namespace JsonScada.Processor.Historian

open JsonScada.Lib.Binary64 JsonScada.Lib.EcmaScript JsonScada.Model.Documents

/-- What the change handler knows of an update it sends to the historian. -/
structure HistEntry where
  tag : String
  type : PointType
  timeTag : Date
  value : Number
  valueString : String
  valueJson : String
  invalid : Bool
  timeTagAtSource : Option Date
  timeTagAtSourceOk : Option Bool
  causeOfTransmissionAtSource : Option String
  deriving DecidableEq

namespace HistEntry

def bit (b : Bool) : Char := if b then '1' else '0'

/-- Value invalid, source time invalid, analog, integrity, and four reserved bits. -/
def flags (e : HistEntry) : List Char :=
  [bit e.invalid, bit (e.timeTagAtSourceOk ≠ some true), bit (e.type = .analog),
    bit (e.causeOfTransmissionAtSource = some "20"), '0', '0', '0', '0']

def quoted (s : List Char) : List Char := replaceAll '\'' ['\'', '\''] s

/-- `vj` before it is wrapped in quotes. -/
def valueJsonText (e : HistEntry) : List Char :=
  if e.valueJson = "" then ['"', '"'] else quoted (trim e.valueJson.toList)

/-- A text that begins like an object or an array. -/
def bracketed (vj : List Char) : Bool :=
  match vj with
  | c :: _ => c = '{' || c = '['
  | [] => false

/-- Wrapped in double quotes: not a number and not a quoted text already. -/
def wrapped (vj : List Char) : Bool :=
  match vj with
  | c :: _ => !bracketed vj && (stringToNumber vj).isNaN && c ≠ '"'
  | [] => false

def trimS (vj : List Char) : List Char := if bracketed vj then ['"'] else []

def vj (e : HistEntry) : List Char :=
  let vj := e.valueJsonText
  if wrapped vj then '"' :: (vj ++ ['"']) else vj

def vs (e : HistEntry) : List Char := quoted e.valueString.toList

def timeTagAtSourceSql (e : HistEntry) : List Char :=
  match e.timeTagAtSource with
  | some t => ['\''] ++ toISOString t ++ ['\'']
  | none => "null".toList

/-- Fields: tag, time_tag, value, value_json, time_tag_at_source, flags. -/
def sql (e : HistEntry) : List Char :=
  ['\''] ++ quoted e.tag.toList ++ "','".toList ++ toISOString e.timeTag ++ "',".toList ++
    numToString e.value ++ ",('\x7b\"v\":'||trim('".toList ++ trimS e.valueJsonText ++
    "' FROM to_json('".toList ++ e.vj ++
    "'::text)::jsonb #>> '\x7b\x7d')||',\"s\":'||to_json('".toList ++ e.vs ++
    "'::text)||'\x7d'::text)::jsonb,".toList ++
    e.timeTagAtSourceSql ++ ",B'".toList ++ e.flags ++ ['\'']

/-- The document inserted in the hist collection carries the text of string and
JSON points, the number of the others. -/
def objValue (e : HistEntry) : JsVal :=
  match e.type with
  | .string => .str e.valueString
  | .json => .str e.valueJson
  | _ => .num e.value

end HistEntry

/-- The transaction written for the entries drained from sqlHistQueue. -/
def histTransaction (batch : List HistEntry) : List Char :=
  let sqlTransaction := "START TRANSACTION;\nINSERT INTO hist (tag, time_tag, value, value_json, time_tag_at_source, flags) VALUES ".toList
  let sqlTransaction := batch.foldl (fun t e => t ++ ['\n', '('] ++ e.sql ++ [')', ',']) sqlTransaction
  sqlTransaction.dropLast ++ " \n".toList ++
    "ON CONFLICT (tag, time_tag) DO NOTHING;\n".toList ++ "COMMIT;\n".toList

end JsonScada.Processor.Historian
