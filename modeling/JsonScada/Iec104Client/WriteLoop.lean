/- path: JsonScada/Iec104Client/WriteLoop
   source: src/lib60870.netcore/iec104client/MongoUpdate.cs (ProcessMongo), Program.cs
   digest: The loop that takes received values from the queue and writes them. -/

import JsonScada.Iec104Client.TagsCreation

set_option autoImplicit false
set_option relaxedAutoImplicit false

namespace JsonScada.Iec104Client.WriteLoop

open JsonScada.Lib.Binary64 JsonScada.Lib.Collection JsonScada.Model.Documents
open JsonScada.Iec104Client.Commands JsonScada.Iec104Client.Update
open JsonScada.Iec104Client.TagsCreation

/-- The length from which on the queue is cut after an exception. -/
def DataBufferLimit : ℕ := 10000

/-- A connection, with what the creation of tags keeps of it. -/
structure Creator where
  srv : Connection
  InsertedAddresses : List (ℤ × ℤ) := []
  LastNewKeyCreated : Number := .fin 0
  deriving DecidableEq

/-- Where the loop is: before `ConnectMongoClient`, before the ping, where the queues are
emptied, before the bulk write, and in the handler of exceptions. -/
inductive Stage where
  | connecting
  | waiting
  | taking
  | writing
  | failed
  deriving DecidableEq

/-- The values of `listWrites`, and those of the bulk writes that succeeded. -/
structure Acquirer where
  IECDataQueue : List IEC_Value := []
  listWrites : List IEC_Value := []
  written : List IEC_Value := []
  creators : List Creator := []
  stage : Stage := .connecting
  deriving DecidableEq

inductive Event where
  /-- a receive handler enqueues a value -/
  | enqueue (iv : IEC_Value)
  | connect (succeeds : Bool)
  | ping (isMongoLive : Bool)
  /-- an acknowledge is written -/
  | acknowledge (succeeds : Bool)
  /-- `TryDequeue` of a value; a query for a key finds documents, or fails -/
  | dequeue (realtimeData : Option (List Point))
  /-- `TryDequeue` finds the queue empty, and the new tags are inserted -/
  | insert
  | bulkWrite (succeeds : Bool)
  /-- the handler of exceptions shortens the queue, and ends -/
  | discard
  | resume
  deriving DecidableEq

/-- The first value of an address is to have its tag created. -/
def Creator.isNew (c : Creator) (iv : IEC_Value) : Bool :=
  c.srv.autoCreateTags && !c.InsertedAddresses.contains (iv.common_address, iv.address)

/-- `GetNextAutoKey`, which asks the database while it has given out no key. -/
def Creator.nextKey (c : Creator) (realtimeData : Option (List Point)) : Option Number :=
  if c.LastNewKeyCreated.eqv (.fin 0) then
    realtimeData.map (GetNextAutoKey c.srv c.LastNewKeyCreated)
  else some (GetNextAutoKey c.srv c.LastNewKeyCreated [])

def ofValue (iv : IEC_Value) (c : Creator) : Bool :=
  c.srv.protocolConnectionNumber = iv.conn_number

/-- The connections after a value; none where the key for its tag is not found. -/
def create (iv : IEC_Value) (realtimeData : Option (List Point)) (creators : List Creator) :
    List Creator × Bool :=
  match creators.find? (ofValue iv) with
  | none => (creators, true)
  | some c =>
    if c.isNew iv then
      let added := c.InsertedAddresses ++ [(iv.common_address, iv.address)]
      match c.nextKey realtimeData with
      | none =>
        (updateOne (ofValue iv) (fun c => { c with InsertedAddresses := added }) creators, false)
      | some key =>
        (updateOne (ofValue iv)
          (fun c => { c with InsertedAddresses := added, LastNewKeyCreated := key }) creators, true)
    else (creators, true)

/-- An exception ends the inner loop, and its lists with it. -/
def fail (s : Acquirer) : Acquirer := { s with listWrites := [], stage := .failed }

def step (s : Acquirer) : Event → Option Acquirer
  | .enqueue iv => some { s with IECDataQueue := s.IECDataQueue ++ [iv] }
  | .connect succeeds =>
    if s.stage = .connecting then
      some (if succeeds then { s with stage := .waiting } else fail s)
    else none
  | .ping isMongoLive =>
    if s.stage = .waiting then
      some (if isMongoLive then { s with stage := .taking } else fail s)
    else none
  | .acknowledge succeeds =>
    -- acknowledges come before the first value
    if s.stage = .taking ∧ s.listWrites = [] then some (if succeeds then s else fail s) else none
  | .dequeue realtimeData =>
    if s.stage = .taking then
      match s.IECDataQueue with
      | [] => none
      | iv :: rest =>
        let (creators, keyed) := create iv realtimeData s.creators
        let s := { s with IECDataQueue := rest, creators := creators }
        some (if keyed then { s with listWrites := s.listWrites ++ [iv] } else fail s)
    else none
  | .insert =>
    if s.stage = .taking ∧ s.IECDataQueue = [] then
      some { s with stage := if s.listWrites = [] then .waiting else .writing }
    else none
  | .bulkWrite succeeds =>
    if s.stage = .writing then
      some (if succeeds then
        { s with written := s.written ++ s.listWrites, listWrites := [], stage := .waiting }
      else fail s)
    else none
  | .discard =>
    if s.stage = .failed ∧ DataBufferLimit < s.IECDataQueue.length then
      some { s with IECDataQueue := s.IECDataQueue.tail }
    else none
  | .resume =>
    if s.stage = .failed ∧ ¬DataBufferLimit < s.IECDataQueue.length then
      some { s with stage := .connecting }
    else none

end JsonScada.Iec104Client.WriteLoop
