/- path: JsonScada/System/AutoTags
   source: src/lib60870.netcore/iec104client, src/dnp3/Dnp3ClientCpp, src/mqtt-sparkplug
   digest: Automatic creation of tags by the three clients. -/

import JsonScada.System.MetricCreation
import JsonScada.System.TagCreation
import JsonScada.Iec104Client.TagsCreation
import JsonScada.Dnp3Client.AutoCreate

set_option autoImplicit false
set_option relaxedAutoImplicit false

namespace JsonScada.System.AutoTags

open JsonScada.Lib.Machine JsonScada.Lib.Binary64 JsonScada.Lib.EcmaScript
open JsonScada.Model.Documents JsonScada.Iec104Client.Commands JsonScada.Iec104Client.Update
open JsonScada.Iec104Client.TagsCreation JsonScada.Dnp3Client.AutoCreate
open JsonScada.System.TagCreation

/-- A connection of the IEC 104 client. A value that throws ends the batch. -/
def iec104client (toInt32 : JsVal → Option ℤ) (doubleText : Number → String)
    (srv : Connection) : Client IEC_Value where
  protocolConnectionNumber := srv.protocolConnectionNumber
  keepsBatch := false
  address iv :=
    if srv.autoCreateTags ∧ iv.conn_number = srv.protocolConnectionNumber then
      some (iv.common_address, iv.address)
    else none
  load docs := if srv.autoCreateTags then existingAddresses toInt32 srv docs else some []
  create iv lastKey docs :=
    let key := GetNextAutoKey srv lastKey docs
    ([((iv.common_address, iv.address), NewRealtimeTagDoc doubleText iv srv.name key)], key)
  created := by
    intro iv lastKey docs a ha x hx
    split_ifs at ha with hconn
    obtain rfl := List.mem_singleton.mp hx
    simp [isTag, NewRealtimeTagDoc, hconn.2]

theorem newRealtimeTagDoc_isTag {conn : DNP3Connection} {iv : Dnp3Value}
    (hconn : iv.connNumber = conn.protocolConnectionNumber) (id : Number) (isCommand : Bool)
    (group : ℤ) (asdu dur com sup : Number) :
    isTag conn.protocolConnectionNumber (group, iv.address)
      (newRealtimeTagDoc iv conn.name id isCommand group asdu dur com sup) = true := by
  simp [isTag, newRealtimeTagDoc, hconn]

/-- A connection of the DNP3 client. -/
def dnp3client (conn : DNP3Connection) : Client Dnp3Value where
  protocolConnectionNumber := conn.protocolConnectionNumber
  keepsBatch := true
  address iv :=
    if conn.autoCreateTags ∧ iv.connNumber = conn.protocolConnectionNumber ∧ ¬ skipped iv then
      some (iv.baseGroup, iv.address)
    else none
  load docs :=
    some (if conn.autoCreateTags then Dnp3Client.AutoCreate.existingAddresses conn docs else [])
  create := newTags conn
  created := by
    intro iv lastKey docs a ha x hx
    split_ifs at ha with hconn
    unfold newTags at hx
    split at hx
    · rcases List.mem_cons.mp hx with rfl | hx
      · exact newRealtimeTagDoc_isTag hconn.2.1 ..
      · obtain rfl := List.mem_singleton.mp hx
        exact newRealtimeTagDoc_isTag hconn.2.1 ..
    · obtain rfl := List.mem_singleton.mp hx
      exact newRealtimeTagDoc_isTag hconn.2.1 ..

section Example

def sampleToInt32 : JsVal → Option ℤ
  | .num x => Lib.DotNet.Convert.toInt32 x
  | _ => none

def sampleText (_ : Number) : String := "5"

def sampleConnection : Connection :=
  { name := "RTU", protocolConnectionNumber := 1, autoCreateTags := true }

def sampleClient : Client IEC_Value := iec104client sampleToInt32 sampleText sampleConnection

def sampleValue (address : ℤ) : IEC_Value :=
  { address := address, common_address := 1, conn_number := 1, asdu := .M_ME_NC_1
    value := .fin 5 }

/-- A start of the only node, a value of an address, and the insert of its document. -/
def sampleStart (address : ℤ) : List (Label Unit IEC_Value) :=
  [.restart (), .activate (), .value (sampleValue address), .insert () 0]

end Example

end JsonScada.System.AutoTags
