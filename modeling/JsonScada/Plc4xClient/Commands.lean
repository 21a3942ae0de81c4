/- path: JsonScada/Plc4xClient/Commands
   source: src/plc4x-client/plc4x-client.go, iterateCommandsChangeStream and main
   digest: The commands a driver reads from its change stream, and the connections it sends
     them on. -/

import JsonScada.Plc4xClient.Values

set_option autoImplicit false
set_option relaxedAutoImplicit false

namespace JsonScada.Plc4xClient.Commands

open JsonScada.Lib.Binary64 JsonScada.Plc4xClient.Values

structure CommandQueueEntry where
  ID : ℕ
  ProtocolSourceConnectionNumber : ℤ
  ProtocolSourceObjectAddress : String
  ProtocolSourceASDU : String
  TimeTag : ℤ
  Value : Number
  ValueString : String
  deriving DecidableEq

structure InsertChange where
  FullDocument : CommandQueueEntry
  OperationType : String
  deriving DecidableEq

/-- An open connection of the library, which may have lost its PLC. -/
inductive PlcConnection where
  | connected
  | disconnected
  deriving DecidableEq

structure ProtocolConnection where
  ProtocolConnectionNumber : ℤ
  PlcConn : Option PlcConnection := none
  AddrSeparator : String := ""
  deriving DecidableEq

/-- What becomes of the connection in the loop of `main` and in the goroutine that reads. -/
inductive LinkEvent where
  | close
  | store (addrSep : String)
  | lose
  deriving DecidableEq

/-- An active node alone stores a new connection, in the place of a missing one. -/
def ProtocolConnection.after (c : ProtocolConnection) (IsActive : Bool) :
    LinkEvent → Option ProtocolConnection
  | .close => if c.PlcConn = none then none else some { c with PlcConn := none }
  | .store addrSep =>
    if IsActive ∧ c.PlcConn = none then
      some { c with PlcConn := some .connected, AddrSeparator := addrSep }
    else none
  | .lose => if c.PlcConn = some .connected then some { c with PlcConn := some .disconnected } else none

/-- `strings.ToUpper`; of the letters outside of ASCII the two with an ASCII capital matter. -/
def toUpper (s : String) : String :=
  s.map fun c => if c = 'ı' then 'I' else if c = 'ſ' then 'S' else c.toUpper

/-- What is done about a document of the stream. The connection is dereferenced without a test,
and `nil` ends the process. -/
inductive Outcome where
  | ignored
  | expired
  | nilDereference
  | notBuilt (err : String)
  | executed (address : String) (value : GoValue) (err : Option String)
  deriving DecidableEq

/-- 10 s in nanoseconds -/
def tooOld : ℤ := 10000000000

/-- The connection of a command: the loop ends at the first with its number. -/
def connectionOf (protConns : List ProtocolConnection) (insDoc : InsertChange) :
    Option ProtocolConnection :=
  protConns.find? fun c => insDoc.OperationType = "insert" ∧
    insDoc.FullDocument.ProtocolSourceConnectionNumber = c.ProtocolConnectionNumber

/-- The value of the write request of a command. -/
def requestValue (host : Host) (c : ProtocolConnection) (d : CommandQueueEntry) : GoValue :=
  write host d.ProtocolSourceASDU (branch c.AddrSeparator (toUpper d.ProtocolSourceObjectAddress))
    d.Value d.ValueString

/-- One turn of the loop over the stream; `none` is a document that does not decode, `build` and
`execute` are the errors of the library. Whether the node is active is not asked. -/
def iterate (host : Host) (protConns : List ProtocolConnection) (now : ℤ)
    (build execute : Option String) : Option InsertChange → Outcome
  | none => .ignored
  | some insDoc =>
    let d := insDoc.FullDocument
    match connectionOf protConns insDoc with
    | none => .ignored
    | some c =>
      if now - d.TimeTag > tooOld then .expired
      else if c.PlcConn = none then .nilDereference
      else match build with
        | some err => .notBuilt err
        | none => .executed d.ProtocolSourceObjectAddress (requestValue host c d) execute

/-- A command in its collection. -/
structure CommandDoc where
  entry : CommandQueueEntry
  delivered : Bool := false
  ack : Bool := false
  ackTimeTag : Option ℤ := none
  cancelReason : Option String := none
  deriving DecidableEq

def commandCancel (reason : String) (doc : CommandDoc) : CommandDoc :=
  { doc with cancelReason := some reason }

def commandDelivered (now : ℤ) (doc : CommandDoc) : CommandDoc :=
  { doc with delivered := true, ack := true, ackTimeTag := some now }

/-- What is written to the document of the command. -/
def Outcome.update (now : ℤ) : Outcome → CommandDoc → CommandDoc
  | .expired => commandCancel "expired"
  | .notBuilt err => commandCancel err
  | .executed _ _ (some err) => commandCancel err
  | .executed _ _ none => commandDelivered now
  | .ignored | .nilDereference => id

/-- The command is for the driver, and was not sent. -/
def Outcome.unsent : Outcome → Bool
  | .expired | .nilDereference | .notBuilt _ | .executed _ _ (some _) => true
  | .ignored | .executed _ _ none => false

def Outcome.isExecuted : Outcome → Bool
  | .executed _ _ _ => true
  | _ => false

@[simp] theorem update_entry (now : ℤ) (o : Outcome) (doc : CommandDoc) :
    (o.update now doc).entry = doc.entry := by
  cases o with
  | executed address value err => cases err <;> rfl
  | _ => rfl

/-- A cancelled command stays cancelled. -/
theorem cancelReason_update {doc : CommandDoc} (now : ℤ) (o : Outcome)
    (h : doc.cancelReason ≠ none) : (o.update now doc).cancelReason ≠ none := by
  cases o with
  | executed address value err =>
    cases err with
    | none => exact h
    | some err => exact Option.some_ne_none err
  | expired => exact Option.some_ne_none _
  | notBuilt err => exact Option.some_ne_none err
  | ignored | nilDereference => exact h

/-- Every command that is not sent is cancelled, but where the process ends. -/
theorem cancelReason_of_unsent {o : Outcome} (now : ℤ) (doc : CommandDoc) (h : o.unsent = true)
    (hpanic : o ≠ .nilDereference) : (o.update now doc).cancelReason ≠ none := by
  cases o with
  | executed address value err =>
    cases err with
    | none => cases h
    | some err => exact Option.some_ne_none err
  | expired => exact Option.some_ne_none _
  | notBuilt err => exact Option.some_ne_none err
  | nilDereference => exact absurd rfl hpanic
  | ignored => cases h

end JsonScada.Plc4xClient.Commands
