/- path: JsonScada/Iec104Server/Spontaneous
   source: src/lib60870.netcore/iec104server/MongoChangeStream.cs, DequeueIecInfo
   digest: The queue of spontaneous objects, and the loop that puts them in ASDUs. -/

import JsonScada.Iec104.Asdu

set_option autoImplicit false
set_option relaxedAutoImplicit false

namespace JsonScada.Iec104Server.Spontaneous

open JsonScada.Iec104.Objects JsonScada.Iec104.Asdu

/-- An object to be sent, with its common address. -/
structure InfoCA where
  io : InformationObject
  ca : ℤ
  deriving DecidableEq

/-- `CauseOfTransmission.SPONTANEOUS` -/
def SPONTANEOUS : ℤ := 3

/-- The ASDU that is being filled, after the object it was made for. -/
structure Assembly where
  ica : InfoCA
  newAsdu : ASDU
  cnt : ℕ := 1

/-- The queue of a connection, and what has been given to `EnqueueASDU`. -/
structure Spooler where
  infoCAQueue : List InfoCA := []
  assembly : Option Assembly := none
  sent : List ASDU := []

/-- The thread of the change stream enqueues, between any steps of the sending loop. -/
inductive Event where
  | enqueue (ica : InfoCA)
  | start
  | extend
  | finish

/-- The next object has the type and the common address of the first, and there are not
yet thirty. -/
def Assembly.continues (a : Assembly) (ica2 : InfoCA) : Bool :=
  ica2.ca = a.ica.ca ∧ ica2.io.type = a.ica.io.type ∧ a.cnt < 30

section Steps

variable (parameters : ApplicationLayerParameters)

/-- `TryDequeue` of a first object, into a new ASDU. -/
def start (ica : InfoCA) (rest : List InfoCA) (s : Spooler) : Option Spooler :=
  (AddInformationObject parameters (newASDU parameters SPONTANEOUS ica.ca) ica.io).map
    fun added => { s with infoCAQueue := rest, assembly := some { ica := ica, newAsdu := added.2 } }

/-- `TryPeek` and `TryDequeue` of a further object; what `AddInformationObject` answers is
not read. -/
def extend (ica2 : InfoCA) (rest : List InfoCA) (a : Assembly) (s : Spooler) : Option Spooler :=
  if a.continues ica2 then
    (AddInformationObject parameters a.newAsdu ica2.io).map fun added =>
      { s with
        infoCAQueue := rest
        assembly := some { a with newAsdu := added.2, cnt := a.cnt + 1 } }
  else none

/-- The ASDU goes out when the queue is found empty, or the next object does not continue. -/
def finish (a : Assembly) (s : Spooler) : Option Spooler :=
  if s.infoCAQueue.head?.any a.continues then none
  else some { s with assembly := none, sent := s.sent ++ [a.newAsdu] }

def step (s : Spooler) : Event → Option Spooler
  | .enqueue ica => some { s with infoCAQueue := s.infoCAQueue ++ [ica] }
  | .start =>
    match s.assembly, s.infoCAQueue with
    | none, ica :: rest => start parameters ica rest s
    | _, _ => none
  | .extend =>
    match s.assembly, s.infoCAQueue with
    | some a, ica2 :: rest => extend parameters ica2 rest a s
    | _, _ => none
  | .finish => s.assembly.bind fun a => finish a s

end Steps

end JsonScada.Iec104Server.Spontaneous
