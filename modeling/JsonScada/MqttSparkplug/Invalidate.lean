/- path: JsonScada/MqttSparkplug/Invalidate
   source: src/mqtt-sparkplug/index.js
   digest: Tags of a path set invalid, selected by a regular expression of the database. -/

import JsonScada.Lib.Collection
import JsonScada.Lib.Pattern
import JsonScada.Model.Documents

set_option autoImplicit false
set_option relaxedAutoImplicit false

namespace JsonScada.MqttSparkplug.Invalidate

open JsonScada.Lib.Binary64 JsonScada.Lib.EcmaScript JsonScada.Lib.Collection
open JsonScada.Lib.Pattern
open JsonScada.Model.Documents (Point)

/-- Characters of more meaning in a regular expression, the dot left aside; a zero
character is refused. -/
def special : List Char :=
  ['\\', '^', '$', '|', '?', '*', '+', '(', ')', '[', ']', '\x7b', '\x7d', '\x00']

def Plain (text : String) : Prop := ∀ c ∈ special, c ∉ text.toList

/-- A dot is any character but a line feed, any other character is itself. -/
def like (c x : Char) : Bool := if c = '.' then x ≠ '\n' else x = c

/-- The regular expressions of the database. -/
structure Regex where
  /-- The longest pattern, in bytes. -/
  limit : ℕ
  /-- Whether a pattern matches a text; `none` where the pattern is refused. -/
  find : String → String → Option Bool
  find_start : ∀ pattern text, Plain pattern → ("^" ++ pattern).utf8ByteSize ≤ limit →
    find ("^" ++ pattern) text =
      some (starts (pattern.toList.map fun c => .one (like c)) text.toList)

variable (regex : Regex) (protocolConnectionNumber : ℤ) (topicPath : String)

/-- The filter of the update. A regular expression matches texts alone. -/
def isSelected (p : Point) : Bool :=
  p.protocolSourceConnectionNumber = .fin protocolConnectionNumber &&
    match p.protocolSourceObjectAddress with
    | .str address => regex.find ("^" ++ topicPath) address = some true
    | _ => false

def setInvalid (p : Point) : Point := { p with invalid := true }

/-- What `InvalidatePathTags` does in realtimeData. -/
def updateTags (HintMongoIsConnected : Bool) (realtimeData : List Point) : List Point :=
  if HintMongoIsConnected then
    updateMany (isSelected regex protocolConnectionNumber topicPath) setInvalid realtimeData
  else realtimeData

/-- An address that begins with the path, any character in the place of its dots. -/
def isLike (p : Point) : Bool :=
  p.protocolSourceConnectionNumber = .fin protocolConnectionNumber &&
    match p.protocolSourceObjectAddress with
    | .str address => starts (topicPath.toList.map fun c => .one (like c)) address.toList
    | _ => false

theorem isSelected_eq_isLike {topicPath : String} (hplain : Plain topicPath)
    (hlimit : ("^" ++ topicPath).utf8ByteSize ≤ regex.limit) :
    isSelected regex protocolConnectionNumber topicPath =
      isLike protocolConnectionNumber topicPath := by
  funext p
  rw [isSelected, isLike]
  cases p.protocolSourceObjectAddress with
  | str address => simp [regex.find_start topicPath address hplain hlimit]
  | _ => rfl

/-- Two filters set the same tags invalid where they agree on those that are valid. -/
theorem updateMany_setInvalid_iff {f g : Point → Bool} {docs : List Point} :
    updateMany f setInvalid docs = updateMany g setInvalid docs ↔
      ∀ p ∈ docs, p.invalid = false → f p = g p := by
  rw [updateMany, updateMany, List.map_inj_left]
  refine forall₂_congr fun p _ => ?_
  have hvalid : setInvalid p = p ↔ p.invalid = true := by
    constructor
    · intro h
      rw [← h, setInvalid]
    · intro h
      cases p
      simp only [setInvalid] at h ⊢
      rw [h]
  cases hp : p.invalid with
  | true => simp [hvalid.mpr hp]
  | false =>
    have hne : setInvalid p ≠ p := fun h => by simp [hvalid.mp h] at hp
    cases f p <;> cases g p <;> simp [hne, hne.symm]

end JsonScada.MqttSparkplug.Invalidate
