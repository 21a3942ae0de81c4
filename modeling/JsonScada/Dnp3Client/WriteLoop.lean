/- path: JsonScada/Dnp3Client/WriteLoop
   source: src/dnp3/Dnp3ClientCpp/mongo.cpp (processMongo), utils.cpp (enqueueValue)
   digest: The loop that takes received values from the queue and writes them. -/

import JsonScada.Lib.Collection
import JsonScada.Dnp3Client.AutoCreate

set_option autoImplicit false
set_option relaxedAutoImplicit false

namespace JsonScada.Dnp3Client.WriteLoop

open JsonScada.Lib.Binary64 JsonScada.Lib.Collection JsonScada.Model.Documents
open JsonScada.Dnp3Client.AutoCreate

def DataBufferLimit : ℕ := 10000

/-- A connection, with what the creation of tags keeps of it. -/
structure Creator where
  conn : DNP3Connection
  insertedAddresses : List (ℤ × ℤ) := []
  lastNewKeyCreated : Number := .fin 0
  deriving DecidableEq

/-- Where the loop is: before `connectMongoClient`, before it takes the queue, before the
ping, and from the values of the batch to their bulk write. -/
inductive Stage where
  | connecting
  | waiting
  | pinging
  | building
  deriving DecidableEq

/-- The values of the batch that are left, those of `writes`, and those of the bulk writes
that succeeded. -/
structure Acquirer where
  DNP3DataQueue : List Dnp3Value := []
  batch : List Dnp3Value := []
  writes : List Dnp3Value := []
  written : List Dnp3Value := []
  creators : List Creator := []
  stage : Stage := .connecting
  deriving DecidableEq

inductive Event where
  | enqueueValue (value : Dnp3Value)
  | connect (succeeds : Bool)
  /-- the queue is swapped for an empty one -/
  | swap
  | ping (isMongoLive : Bool)
  /-- the next value of the batch; a query for a key finds documents, or fails -/
  | item (realtimeData : Option (List Point))
  /-- the new tags are inserted, and the values written, if there are any -/
  | bulk_write (succeeds : Bool)
  deriving DecidableEq

/-- The first value of an address is to have its tag created. -/
def Creator.isNew (c : Creator) (iv : Dnp3Value) : Bool :=
  c.conn.autoCreateTags && !c.insertedAddresses.contains (iv.baseGroup, iv.address)

/-- The documents of a new address, with the last key given out; none where the query for
the key throws. The database is asked while no key was given out. -/
def Creator.tags (c : Creator) (iv : Dnp3Value) (realtimeData : Option (List Point)) :
    Option (List ((ℤ × ℤ) × Point) × Number) :=
  if c.lastNewKeyCreated.eqv (.fin 0) then
    realtimeData.map (newTags c.conn iv c.lastNewKeyCreated)
  else some (newTags c.conn iv c.lastNewKeyCreated [])

def ofValue (iv : Dnp3Value) (c : Creator) : Bool := c.conn.protocolConnectionNumber = iv.connNumber

/-- The connections after a value; and whether it got so far. -/
def create (iv : Dnp3Value) (realtimeData : Option (List Point)) (creators : List Creator) :
    List Creator × Bool :=
  match creators.find? (ofValue iv) with
  | none => (creators, true)
  | some c =>
    if c.isNew iv then
      let inserted := c.insertedAddresses ++ [(iv.baseGroup, iv.address)]
      match c.tags iv realtimeData with
      | none =>
        (updateOne (ofValue iv) (fun c => { c with insertedAddresses := inserted }) creators, false)
      | some (tags, key) =>
        (updateOne (ofValue iv) (fun c => { c with
          insertedAddresses := inserted ++ tags.map Prod.fst
          lastNewKeyCreated := key }) creators, true)
    else (creators, true)

/-- The oldest value goes when the queue is full. -/
def enqueueValue (value : Dnp3Value) (s : Acquirer) : Acquirer :=
  let kept := if DataBufferLimit ≤ s.DNP3DataQueue.length then s.DNP3DataQueue.tail
    else s.DNP3DataQueue
  { s with DNP3DataQueue := kept ++ [value] }

/-- An exception ends the inner loop, and its lists with it. -/
def fail (s : Acquirer) : Acquirer := { s with batch := [], writes := [], stage := .connecting }

def step (s : Acquirer) : Event → Option Acquirer
  | .enqueueValue value => some (enqueueValue value s)
  | .connect succeeds =>
    if s.stage = .connecting then some (if succeeds then { s with stage := .waiting } else s)
    else none
  | .swap =>
    if s.stage = .waiting then
      some { s with DNP3DataQueue := [], batch := s.DNP3DataQueue, stage := .pinging }
    else none
  | .ping isMongoLive =>
    if s.stage = .pinging then
      some (if isMongoLive then { s with stage := .building } else fail s)
    else none
  | .item realtimeData =>
    if s.stage = .building then
      match s.batch with
      | [] => none
      | iv :: batch =>
        if skipped iv then some { s with batch := batch }
        else
          -- an exception ends the treatment of this value alone
          let (creators, completed) := create iv realtimeData s.creators
          some { s with
            batch := batch
            writes := if completed then s.writes ++ [iv] else s.writes
            creators := creators }
    else none
  | .bulk_write succeeds =>
    if s.stage = .building ∧ s.batch = [] then
      if s.writes = [] then some { s with stage := .waiting }
      else some (if succeeds then
        { s with written := s.written ++ s.writes, writes := [], stage := .waiting }
      else fail s)
    else none

end JsonScada.Dnp3Client.WriteLoop
