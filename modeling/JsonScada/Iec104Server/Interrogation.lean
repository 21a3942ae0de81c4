/- path: JsonScada/Iec104Server/Interrogation
   source: src/lib60870.netcore/iec104server/InterrogationHandler.cs
   digest: The ASDUs with which the server answers an interrogation. -/

import JsonScada.Iec104.Asdu
import JsonScada.Iec104Server.Monitor

set_option autoImplicit false
set_option relaxedAutoImplicit false

namespace JsonScada.Iec104Server.Interrogation

open JsonScada.Lib.Binary64 JsonScada.Lib.DotNet JsonScada.Iec104.Types
open JsonScada.Iec104.Objects JsonScada.Iec104.Asdu
open JsonScada.Iec104Server.Command JsonScada.Iec104Server.Monitor

/-- What goes to the client: the confirmations of the request, and the reply. -/
inductive Sent where
  | actCon (negative : Bool)
  | asdu (a : ASDU)
  | actTerm
  deriving DecidableEq

/-- The variables of the loop over the points, and the ASDUs it has sent. -/
structure Packing where
  lastasdu : ℤ := -1
  cntasduobj : ℕ := 0
  nwasdu : Option ASDU := none
  sent : List ASDU := []

/-- The ASDU in hand is sent before another type, and when it has 30 objects. -/
def Packing.flush (dst : Destination) (s : Packing) : Packing :=
  if (dst.protocolDestinationASDU ≠ .fin s.lastasdu ∧ 0 < s.cntasduobj) ∨ 30 ≤ s.cntasduobj then
    match s.nwasdu with
    | some a => { sent := s.sent ++ [a] }
    | none => s
  else s

section Loop

variable (srv : Server) (parameters : ApplicationLayerParameters) (qoi : ℤ)

/-- The ASDU an object is added to: a new one takes the common address of the
destination. -/
def inHand (dst : Destination) (s : Packing) : Option (Option ASDU) :=
  if s.cntasduobj = 0 then
    (Convert.toInt32 dst.protocolDestinationCommonAddress).map fun ca =>
      some (newASDU parameters qoi ca)
  else some s.nwasdu

/-- The switch over the types; `none` is an exception. The answer of
`AddInformationObject` is not read. -/
def Packing.put (p : RtData) (dst : Destination) (s : Packing) : Option Packing :=
  match interrogatedObject p dst with
  | none => none
  | some none => some s
  | some (some io) =>
    (inHand parameters qoi dst s).bind fun nwasdu =>
      match nwasdu with
      | none => some s
      | some a => (AddInformationObject parameters a io).map fun added =>
        { s with nwasdu := some added.2, cntasduobj := s.cntasduobj + 1 }

/-- A point goes out for its first destination of the connection. -/
def Packing.next (s : Packing) (p : RtData) : Packing × Bool :=
  match ownDestination srv p with
  | none => (s, true)
  | some dst =>
    match (s.flush dst).put parameters qoi p dst with
    | none => (s.flush dst, false)
    | some t => ({ t with lastasdu := toInt32 dst.protocolDestinationASDU }, true)

/-- The loop over the points, which an exception ends. -/
def loop : Packing → List RtData → Packing × Bool
  | s, [] => (s, true)
  | s, p :: ps =>
    match s.next srv parameters qoi p with
    | (t, true) => loop t ps
    | (t, false) => (t, false)

/-- The reply for the points found, in the order of the list. -/
def InterrogationHandler (list : List RtData) : List Sent :=
  let r := loop srv parameters qoi {} list
  .actCon false :: (r.1.sent.map .asdu ++
    if r.2 then r.1.nwasdu.toList.map .asdu ++ [.actTerm] else [.actCon true])

/-- The type the sort goes by: of the last destination of the connection. -/
def sortedASDU (p : RtData) : Number :=
  let own := p.protocolDestinations.reverse.find? fun d =>
    d.protocolDestinationConnectionNumber = .fin srv.protocolConnectionNumber
  (own.or p.protocolDestinations.head?).elim .nan fun d => d.protocolDestinationASDU

/-- A reply to the points of the query, in some order that the sort allows. -/
def IsReply (documents : List RtData) (reply : List Sent) : Prop :=
  ∃ list, list.Perm (documents.filter (interrogationFilter srv qoi)) ∧
    (list.Pairwise fun x y => Number.lt (sortedASDU srv y) (sortedASDU srv x) = false) ∧
    reply = InterrogationHandler srv parameters qoi list

end Loop

end JsonScada.Iec104Server.Interrogation
