/- path: JsonScada/Cs104/Queue
   source: lib60870.netcore/lib60870/ASDUQueue.cs
   digest: The queue of encoded ASDUs, a ring whose entries wait, are sent, and leave when
   they are confirmed. -/

import Mathlib.Data.List.Basic
import Mathlib.Data.Int.Notation

set_option autoImplicit false
set_option relaxedAutoImplicit false

namespace JsonScada.Cs104

inductive QueueEntryState where
  | NOT_USED
  | WAITING_FOR_TRANSMISSION
  | SENT_BUT_NOT_CONFIRMED
  deriving DecidableEq, Repr

inductive EnqueueMode where
  | REMOVE_OLDEST
  | IGNORE
  | THROW_EXCEPTION
  deriving DecidableEq, Repr

/-- `asdu` is the encoded ASDU. -/
structure ASDUQueueEntry where
  entryTimestamp : ℤ
  asdu : List ℕ
  state : QueueEntryState
  deriving DecidableEq, Repr

/-- The indices of the oldest and the latest entry are read only while there is an entry;
of an empty queue the code keeps -1 or the old values in them, the model the old values. -/
structure ASDUQueue where
  enqueuedASDUs : List ASDUQueueEntry
  oldestQueueEntry : ℕ
  latestQueueEntry : ℕ
  numberOfAsduInQueue : ℕ
  enqueueMode : EnqueueMode
  deriving DecidableEq, Repr

namespace ASDUQueue

abbrev maxQueueSize (q : ASDUQueue) : ℕ := q.enqueuedASDUs.length

/-- The constructor. -/
def new (maxQueueSize : ℕ) (enqueueMode : EnqueueMode) : ASDUQueue where
  enqueuedASDUs := List.replicate maxQueueSize ⟨0, [], .NOT_USED⟩
  oldestQueueEntry := 0
  latestQueueEntry := 0
  numberOfAsduInQueue := 0
  enqueueMode := enqueueMode

/-- The state of the entry at an index; no entry is like one not used. -/
def stateAt (q : ASDUQueue) (index : ℕ) : QueueEntryState :=
  (q.enqueuedASDUs[index]?.map (·.state)).getD .NOT_USED

/-- The entry takes the place after the latest one, and pushes out the oldest entry where
that is its place. -/
def put (q : ASDUQueue) (entry : ASDUQueueEntry) : ASDUQueue :=
  let latest := (q.latestQueueEntry + 1) % q.maxQueueSize
  let enqueuedASDUs := q.enqueuedASDUs.set latest entry
  if latest = q.oldestQueueEntry then
    { q with
      latestQueueEntry := latest
      oldestQueueEntry := (q.oldestQueueEntry + 1) % q.maxQueueSize
      enqueuedASDUs := enqueuedASDUs }
  else
    { q with
      latestQueueEntry := latest
      numberOfAsduInQueue := q.numberOfAsduInQueue + 1
      enqueuedASDUs := enqueuedASDUs }

/-- `EnqueueAsdu`; none is the exception of a full queue. -/
def EnqueueAsdu (q : ASDUQueue) (asdu : List ℕ) (now : ℤ) : Option ASDUQueue :=
  let entry : ASDUQueueEntry := ⟨now, asdu, .WAITING_FOR_TRANSMISSION⟩
  if q.numberOfAsduInQueue = 0 then
    some { q with
      oldestQueueEntry := 0
      latestQueueEntry := 0
      numberOfAsduInQueue := 1
      enqueuedASDUs := q.enqueuedASDUs.set 0 entry }
  else if q.numberOfAsduInQueue = q.maxQueueSize then
    match q.enqueueMode with
    | .REMOVE_OLDEST => some (q.put entry)
    | .IGNORE => some q
    | .THROW_EXCEPTION => none
  else some (q.put entry)

/-- The loop of `GetNextWaitingASDU`: the index where it stops, from `index` on. Each
round goes to the next place and the latest entry ends it. -/
def findWaiting (q : ASDUQueue) : ℕ → ℕ → ℕ
  | 0, index => index
  | rounds + 1, index =>
    if q.stateAt index = .WAITING_FOR_TRANSMISSION then index
    else if index = q.latestQueueEntry then index
    else if q.stateAt index = .NOT_USED then index
    else findWaiting q rounds ((index + 1) % q.maxQueueSize)

/-- `GetNextWaitingASDU`: the ASDU with its timestamp and index. -/
def GetNextWaitingASDU (q : ASDUQueue) : Option (List ℕ × ℤ × ℕ) × ASDUQueue :=
  if q.numberOfAsduInQueue = 0 then (none, q)
  else
    let index := findWaiting q q.maxQueueSize q.oldestQueueEntry
    match q.enqueuedASDUs[index]? with
    | none => (none, q)
    | some entry =>
      if entry.state = .WAITING_FOR_TRANSMISSION then
        let sent := { entry with state := .SENT_BUT_NOT_CONFIRMED }
        (some (entry.asdu, entry.entryTimestamp, index),
          { q with enqueuedASDUs := q.enqueuedASDUs.set index sent })
      else (none, q)

/-- `IsHighPriorityAsduAvailable` -/
def IsHighPriorityAsduAvailable (q : ASDUQueue) : Bool := decide (0 < q.numberOfAsduInQueue)

/-- `GetNextHighPriorityWaitingASDU`: it counts the entry off and leaves the oldest index
where it is. -/
def GetNextHighPriorityWaitingASDU (q : ASDUQueue) :
    Option (List ℕ × ℤ × ℕ) × ASDUQueue :=
  if q.numberOfAsduInQueue = 0 then (none, q)
  else
    let taken := { q with numberOfAsduInQueue := q.numberOfAsduInQueue - 1 }
    match q.enqueuedASDUs[q.oldestQueueEntry]? with
    | none => (none, taken)
    | some entry => (some (entry.asdu, entry.entryTimestamp, q.oldestQueueEntry), taken)

/-- An entry that was sent waits again. -/
def unmark (e : ASDUQueueEntry) : ASDUQueueEntry :=
  if e.state = .SENT_BUT_NOT_CONFIRMED then { e with state := .WAITING_FOR_TRANSMISSION } else e

/-- `UnmarkAllASDUs` -/
def UnmarkAllASDUs (q : ASDUQueue) : ASDUQueue :=
  if 0 < q.numberOfAsduInQueue then
    { q with enqueuedASDUs := q.enqueuedASDUs.map unmark }
  else q

/-- The entry of a confirmed ASDU. -/
def clear (e : ASDUQueueEntry) : ASDUQueueEntry :=
  { e with state := .NOT_USED, entryTimestamp := 0 }

/-- The loop of `MarkASDUAsConfirmed`, backwards from the index it was called with. The
loop ends where it began, so a round for every place is enough. -/
def removeSent (index : ℕ) : ℕ → ℕ → ASDUQueue → ASDUQueue
  | 0, _, q => q
  | rounds + 1, current, q =>
    if q.stateAt current = .SENT_BUT_NOT_CONFIRMED then
      let removed : ASDUQueue := { q with
        numberOfAsduInQueue := q.numberOfAsduInQueue - 1
        enqueuedASDUs := q.enqueuedASDUs.modify current clear }
      if removed.numberOfAsduInQueue = 0 then removed
      else if current = q.oldestQueueEntry then
        let oldest := (index + 1) % q.maxQueueSize
        { removed with
          oldestQueueEntry := oldest
          latestQueueEntry :=
            if removed.numberOfAsduInQueue = 1 then oldest else q.latestQueueEntry }
      else
        let next := if current = 0 then q.maxQueueSize - 1 else current - 1
        if next = index then removed else removeSent index rounds next removed
    else q

/-- `MarkASDUAsConfirmed` -/
def MarkASDUAsConfirmed (q : ASDUQueue) (index : ℕ) (timestamp : ℤ) : ASDUQueue :=
  if 0 < q.numberOfAsduInQueue then
    match q.enqueuedASDUs[index]? with
    | none => q
    | some entry =>
      if entry.state = .SENT_BUT_NOT_CONFIRMED ∧ entry.entryTimestamp = timestamp then
        removeSent index q.maxQueueSize index q
      else q
  else q

/-- The loop of `MessageQueue_hasUnconfirmedIMessages`, which runs while the index is
above zero. -/
def findUnconfirmed (q : ASDUQueue) : ℕ → ℕ → Bool
  | 0, _ => false
  | rounds + 1, index =>
    if 0 < index then
      if q.stateAt index = .SENT_BUT_NOT_CONFIRMED then true
      else if index = q.latestQueueEntry then false
      else if q.stateAt index = .NOT_USED then false
      else findUnconfirmed q rounds ((index + 1) % q.maxQueueSize)
    else false

/-- `MessageQueue_hasUnconfirmedIMessages` -/
def MessageQueue_hasUnconfirmedIMessages (q : ASDUQueue) : Bool :=
  if q.numberOfAsduInQueue = 0 then false
  else findUnconfirmed q q.maxQueueSize q.oldestQueueEntry

end ASDUQueue

end JsonScada.Cs104
