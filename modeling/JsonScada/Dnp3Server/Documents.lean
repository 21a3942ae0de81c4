/- path: JsonScada/Dnp3Server/Documents
   source: src/dnp3/Dnp3Server/main.cpp
   digest: The documents the DNP3 server reads and writes, and its connections. -/

import Mathlib.Data.Prod.Lex
import Mathlib.Data.String.Basic
import JsonScada.Iec104.Types

set_option autoImplicit false
set_option relaxedAutoImplicit false

namespace JsonScada.Dnp3Server.Documents

open JsonScada.Lib.Binary64 JsonScada.Lib.DotNet
open JsonScada.Iec104.Types (Destination)

/-- The key of a document: a number, or an identifier of the database. -/
inductive DocId where
  | number (n : Number)
  | objectId (hex : String)
  deriving DecidableEq

/-- `getDouble(doc, "_id")` -/
def DocId.getDouble : DocId → Number
  | number n => n
  | objectId _ => .fin 0

/-- A tag of `realtimeData`. `enabled` is `none` when it is no boolean, the destinations
are when they are missing or null. -/
structure Tag where
  _id : DocId
  tag : String
  type : String
  origin : String
  enabled : Option Bool := some true
  group1 : String := ""
  protocolSourceConnectionNumber : Number := .fin 0
  protocolSourceCommonAddress : Number := .fin 0
  protocolSourceObjectAddress : Number := .fin 0
  protocolSourceASDU : Number := .fin 0
  protocolDestinations : Option (List Destination) := none
  deriving DecidableEq

/-- The elements of the array of destinations. -/
def Tag.destinations (t : Tag) : List Destination := t.protocolDestinations.getD []

/-- `$set` of an empty array -/
def Tag.clear (t : Tag) : Tag := { t with protocolDestinations := some [] }

/-- `$push` on a missing array makes one. -/
def Tag.push (t : Tag) (d : Destination) : Tag :=
  { t with protocolDestinations := some (t.destinations ++ [d]) }

@[simp] theorem Tag.push_id (t : Tag) (d : Destination) : (t.push d)._id = t._id := rfl

@[simp] theorem Tag.destinations_push (t : Tag) (d : Destination) :
    (t.push d).destinations = t.destinations ++ [d] := rfl

/-- A condition on a path through the array holds when one element satisfies it. -/
def Tag.anyDestination (t : Tag) (field : Destination → Number) (n : ℤ) : Bool :=
  t.destinations.any fun d => field d = .fin n

/-- The order of numbers in the database. -/
def numberRank : Number → ℕ ×ₗ ℚ
  | .nan => toLex (0, 0)
  | .inf true => toLex (1, 0)
  | .fin q => toLex (2, q)
  | .inf false => toLex (3, 0)

/-- Identifiers come after the numbers. -/
def DocId.rank : DocId → (ℕ ×ₗ ℚ) ×ₗ String
  | number n => toLex (numberRank n, "")
  | objectId hex => toLex (toLex (4, 0), hex)

/-- The smallest object address among the destinations, by which an array is sorted. -/
def Tag.firstAddress (t : Tag) : ℕ ×ₗ ℚ :=
  (t.destinations.map fun d => numberRank d.protocolDestinationObjectAddress).min?.getD
    (toLex (0, 0))

/-- A command as the driver writes it. -/
structure Command where
  protocolSourceConnectionNumber : Number
  protocolSourceCommonAddress : Number
  protocolSourceObjectAddress : Number
  protocolSourceASDU : Number
  protocolSourceCommandDuration : Number
  protocolSourceCommandUseSBO : Number
  point_key : Number
  tag : String
  value : Number
  valueString : String
  originatorUserName : String
  originatorIpAddress : String
  timeTag : ℤ
  deriving DecidableEq

/-- What a collection of tags can come to hold. -/
inductive Entry where
  | tag (t : Tag)
  | command (c : Command)
  deriving DecidableEq

def Entry.tag? : Entry → Option Tag
  | tag t => some t
  | command _ => none

structure Database where
  realtimeData : List Entry
  commandsQueue : List Command
  deriving DecidableEq

/-- A connection of the driver (`DNP3Connection_t`), its number an `int`. -/
structure Connection where
  protocolConnectionNumber : ℤ
  commandsEnabled : Bool := true
  autoCreateTags : Bool := true
  topics : List String := []
  int : -2 ^ 31 ≤ protocolConnectionNumber ∧ protocolConnectionNumber < 2 ^ 31 := by decide

/-- `(int)getDouble(protocolDestination, "protocolDestinationConnectionNumber")` is the
number of the connection. -/
def Connection.owns (conn : Connection) (d : Destination) : Bool :=
  toInt32 d.protocolDestinationConnectionNumber = conn.protocolConnectionNumber

/-- An element with just the number of the connection is one the driver takes for its own. -/
theorem Connection.owns_of_eq {conn : Connection} {d : Destination}
    (h : d.protocolDestinationConnectionNumber = .fin conn.protocolConnectionNumber) :
    conn.owns d = true := by
  unfold owns
  rw [h, toInt32_intCast conn.int]
  exact decide_eq_true rfl

end JsonScada.Dnp3Server.Documents
