/- path: JsonScada/Iec104Client/Receive
   source: src/lib60870.netcore/iec104client/AsduReceiveHandler.cs (AsduReceivedHandler),
   src/lib60870.netcore/lib60870.netcore/lib60870/CS101/ScaledValue.cs
   digest: The values of a monitoring ASDU, as they are enqueued. -/

import JsonScada.Iec104Client.Update
import JsonScada.Processor.Convert

set_option autoImplicit false
set_option relaxedAutoImplicit false

namespace JsonScada.Iec104Client.Receive

open JsonScada.Lib.Binary64 JsonScada.Lib.DotNet JsonScada.Model.Documents
open JsonScada.Processor.Convert (boolNum)
open JsonScada.Iec104.Types JsonScada.Iec104.Objects JsonScada.Iec104Client.Commands
open JsonScada.Iec104Client.Update

/-- A received ASDU; the common address is that of all its objects. -/
structure ASDU where
  TypeId : TypeID
  Cot : ℤ
  Ca : ℤ
  elements : List InformationObject
  deriving DecidableEq

/-- `GetNormalizedValue`: the quotient cut to the range, as a single precision number. -/
def GetNormalizedValue (Value : ℤ) : Number :=
  let result := Lib.Binary64.round binary64 (Value / 32767)
  let result := if Number.lt (.fin (32767 / 32768)) result then .fin (32767 / 32768) else result
  let result := if Number.lt result (.fin (-1)) then .fin (-1) else result
  toSingle result

/-- `Convert.ToDouble` of the four states -/
def doubleValue : DoublePointValue → Number
  | .INTERMEDIATE => .fin 0
  | .OFF => .fin 1
  | .ON => .fin 2
  | .INDETERMINATE => .fin 3

/-- The value and the quality of an element, by the type of the ASDU; `none` is an object that
cannot be cast to its class. The quality of a bitstring is not taken. -/
def element (TypeId : TypeID) (o : InformationObject) : Option (Number × QualityDescriptor) :=
  let Quality := o.quality.getD {}
  match TypeId, o.content with
  | .M_SP_NA_1, .single v | .M_SP_TB_1, .single v => some (boolNum v, Quality)
  | .M_DP_NA_1, .double v | .M_DP_TB_1, .double v => some (doubleValue v, Quality)
  | .M_ST_NA_1, .step v t | .M_ST_TB_1, .step v t =>
    some (.fin v, { Quality with invalid := Quality.invalid || t })
  | .M_BO_NA_1, .bitstring v | .M_BO_TB_1, .bitstring v => some (.fin v, {})
  | .M_ME_NA_1, .normalized v | .M_ME_TD_1, .normalized v => some (GetNormalizedValue v, Quality)
  | .M_ME_ND_1, .normalizedWithoutQuality v => some (GetNormalizedValue v, {})
  | .M_ME_NB_1, .scaled v | .M_ME_TE_1, .scaled v => some (.fin v, Quality)
  | .M_ME_NC_1, .short v | .M_ME_TF_1, .short v => some (v, Quality)
  | _, _ => none

section Handler

variable (dateOf : CP56Time2a → Option Date) (srv : Connection) (now : Date)

/-- What is enqueued for an element; the types without a time have an invalid one. -/
def valueOf (asdu : ASDU) (o : InformationObject) (e : Number × QualityDescriptor) : IEC_Value where
  address := o.objectAddress
  common_address := asdu.Ca
  conn_number := srv.protocolConnectionNumber
  asdu := asdu.TypeId
  value := e.1
  cot := asdu.Cot
  serverTimestamp := now
  sourceTimestamp := o.timestamp.bind dateOf
  sourceTimestampInvalid := o.timestamp.elim true (·.invalid)
  quality := e.2

/-- One turn of the loop over the elements. -/
def receive (asdu : ASDU) (o : InformationObject) : Option IEC_Value :=
  (element asdu.TypeId o).map (valueOf dateOf srv now asdu o)

/-- The values enqueued for an ASDU. -/
def AsduReceivedHandler (asdu : ASDU) : Option (List IEC_Value) :=
  asdu.elements.mapM (receive dateOf srv now asdu)

/-- An ASDU of one object. -/
theorem AsduReceivedHandler_singleton {asdu : ASDU} {o : InformationObject} {iv : IEC_Value}
    (h : asdu.elements = [o]) :
    AsduReceivedHandler dateOf srv now asdu = some [iv] ↔ receive dateOf srv now asdu o = some iv := by
  unfold AsduReceivedHandler
  rw [h]
  cases hreceive : receive dateOf srv now asdu o <;> simp [hreceive]

end Handler

end JsonScada.Iec104Client.Receive
