/- path: JsonScada/Iec104/Types
   source: src/lib60870.netcore (iec104server, iec104client)
   digest: Type identifications, causes of transmission and the documents of a point. -/

import JsonScada.Lib.DotNet

set_option autoImplicit false
set_option relaxedAutoImplicit false

namespace JsonScada.Iec104.Types

open JsonScada.Lib.Binary64 JsonScada.Lib.DotNet

/-- The type identifications the drivers tell apart. -/
inductive TypeID where
  | M_SP_NA_1 | M_DP_NA_1 | M_ST_NA_1 | M_BO_NA_1 | M_ME_NA_1 | M_ME_NB_1 | M_ME_NC_1
  | M_IT_NA_1 | M_ME_ND_1
  | M_SP_TB_1 | M_DP_TB_1 | M_ST_TB_1 | M_BO_TB_1 | M_ME_TD_1 | M_ME_TE_1 | M_ME_TF_1
  | M_IT_TB_1
  | C_SC_NA_1 | C_DC_NA_1 | C_RC_NA_1 | C_SE_NA_1 | C_SE_NB_1 | C_SE_NC_1 | C_BO_NA_1
  | C_SC_TA_1 | C_DC_TA_1 | C_RC_TA_1 | C_SE_TA_1 | C_SE_TB_1 | C_SE_TC_1 | C_BO_TA_1
  | C_IC_NA_1 | C_CI_NA_1 | C_RD_NA_1 | C_CS_NA_1 | C_TS_NA_1 | C_RP_NA_1 | C_TS_TA_1
  | P_ME_NA_1 | P_ME_NB_1 | P_ME_NC_1 | P_AC_NA_1
  | other (code : ℤ)
  deriving DecidableEq

namespace TypeID

def code : TypeID → ℤ
  | M_SP_NA_1 => 1 | M_DP_NA_1 => 3 | M_ST_NA_1 => 5 | M_BO_NA_1 => 7 | M_ME_NA_1 => 9
  | M_ME_NB_1 => 11 | M_ME_NC_1 => 13 | M_IT_NA_1 => 15 | M_ME_ND_1 => 21
  | M_SP_TB_1 => 30 | M_DP_TB_1 => 31 | M_ST_TB_1 => 32 | M_BO_TB_1 => 33 | M_ME_TD_1 => 34
  | M_ME_TE_1 => 35 | M_ME_TF_1 => 36 | M_IT_TB_1 => 37
  | C_SC_NA_1 => 45 | C_DC_NA_1 => 46 | C_RC_NA_1 => 47 | C_SE_NA_1 => 48 | C_SE_NB_1 => 49
  | C_SE_NC_1 => 50 | C_BO_NA_1 => 51
  | C_SC_TA_1 => 58 | C_DC_TA_1 => 59 | C_RC_TA_1 => 60 | C_SE_TA_1 => 61 | C_SE_TB_1 => 62
  | C_SE_TC_1 => 63 | C_BO_TA_1 => 64
  | C_IC_NA_1 => 100 | C_CI_NA_1 => 101 | C_RD_NA_1 => 102 | C_CS_NA_1 => 103
  | C_TS_NA_1 => 104 | C_RP_NA_1 => 105 | C_TS_TA_1 => 107
  | P_ME_NA_1 => 110 | P_ME_NB_1 => 111 | P_ME_NC_1 => 112 | P_AC_NA_1 => 113
  | other n => n

/-- `(TypeID)n` -/
def ofCode (n : ℤ) : TypeID :=
  match [M_SP_NA_1, M_DP_NA_1, M_ST_NA_1, M_BO_NA_1, M_ME_NA_1, M_ME_NB_1, M_ME_NC_1,
      M_IT_NA_1, M_ME_ND_1, M_SP_TB_1, M_DP_TB_1, M_ST_TB_1, M_BO_TB_1, M_ME_TD_1, M_ME_TE_1,
      M_ME_TF_1, M_IT_TB_1, C_SC_NA_1, C_DC_NA_1, C_RC_NA_1, C_SE_NA_1, C_SE_NB_1, C_SE_NC_1,
      C_BO_NA_1, C_SC_TA_1, C_DC_TA_1, C_RC_TA_1, C_SE_TA_1, C_SE_TB_1, C_SE_TC_1, C_BO_TA_1,
      C_IC_NA_1, C_CI_NA_1, C_RD_NA_1, C_CS_NA_1, C_TS_NA_1, C_RP_NA_1, C_TS_TA_1, P_ME_NA_1,
      P_ME_NB_1, P_ME_NC_1, P_AC_NA_1].find? fun t => t.code = n with
  | some t => t
  | none => other n

theorem code_ofCode (n : ℤ) : (ofCode n).code = n := by
  unfold ofCode
  split
  case h_1 t ht =>
    have h := List.find?_some ht
    exact of_decide_eq_true h
  case h_2 => rfl

/-- `ToString()` of a type identification. -/
def name : TypeID → String
  | M_SP_NA_1 => "M_SP_NA_1" | M_DP_NA_1 => "M_DP_NA_1" | M_ST_NA_1 => "M_ST_NA_1"
  | M_BO_NA_1 => "M_BO_NA_1" | M_ME_NA_1 => "M_ME_NA_1" | M_ME_NB_1 => "M_ME_NB_1"
  | M_ME_NC_1 => "M_ME_NC_1" | M_IT_NA_1 => "M_IT_NA_1" | M_ME_ND_1 => "M_ME_ND_1"
  | M_SP_TB_1 => "M_SP_TB_1" | M_DP_TB_1 => "M_DP_TB_1" | M_ST_TB_1 => "M_ST_TB_1"
  | M_BO_TB_1 => "M_BO_TB_1" | M_ME_TD_1 => "M_ME_TD_1" | M_ME_TE_1 => "M_ME_TE_1"
  | M_ME_TF_1 => "M_ME_TF_1" | M_IT_TB_1 => "M_IT_TB_1"
  | C_SC_NA_1 => "C_SC_NA_1" | C_DC_NA_1 => "C_DC_NA_1" | C_RC_NA_1 => "C_RC_NA_1"
  | C_SE_NA_1 => "C_SE_NA_1" | C_SE_NB_1 => "C_SE_NB_1" | C_SE_NC_1 => "C_SE_NC_1"
  | C_BO_NA_1 => "C_BO_NA_1"
  | C_SC_TA_1 => "C_SC_TA_1" | C_DC_TA_1 => "C_DC_TA_1" | C_RC_TA_1 => "C_RC_TA_1"
  | C_SE_TA_1 => "C_SE_TA_1" | C_SE_TB_1 => "C_SE_TB_1" | C_SE_TC_1 => "C_SE_TC_1"
  | C_BO_TA_1 => "C_BO_TA_1"
  | C_IC_NA_1 => "C_IC_NA_1" | C_CI_NA_1 => "C_CI_NA_1" | C_RD_NA_1 => "C_RD_NA_1"
  | C_CS_NA_1 => "C_CS_NA_1" | C_TS_NA_1 => "C_TS_NA_1" | C_RP_NA_1 => "C_RP_NA_1"
  | C_TS_TA_1 => "C_TS_TA_1"
  | P_ME_NA_1 => "P_ME_NA_1" | P_ME_NB_1 => "P_ME_NB_1" | P_ME_NC_1 => "P_ME_NC_1"
  | P_AC_NA_1 => "P_AC_NA_1"
  | other 2 => "M_SP_TA_1" | other 4 => "M_DP_TA_1" | other 6 => "M_ST_TA_1"
  | other 8 => "M_BO_TA_1" | other 10 => "M_ME_TA_1" | other 12 => "M_ME_TB_1"
  | other 14 => "M_ME_TC_1" | other 16 => "M_IT_TA_1" | other 17 => "M_EP_TA_1"
  | other 18 => "M_EP_TB_1" | other 19 => "M_EP_TC_1" | other 20 => "M_PS_NA_1"
  | other 38 => "M_EP_TD_1" | other 39 => "M_EP_TE_1" | other 40 => "M_EP_TF_1"
  | other 70 => "M_EI_NA_1" | other 106 => "C_CD_NA_1"
  | other n => toString n

/-- Single, double and step commands, setpoints and bitstrings. -/
def isControl : TypeID → Bool
  | C_SC_NA_1 | C_DC_NA_1 | C_RC_NA_1 | C_SE_NA_1 | C_SE_NB_1 | C_SE_NC_1 | C_BO_NA_1
  | C_SC_TA_1 | C_DC_TA_1 | C_RC_TA_1 | C_SE_TA_1 | C_SE_TB_1 | C_SE_TC_1 | C_BO_TA_1 => true
  | _ => false

end TypeID

/-- An element of `protocolDestinations` (`rtDataProtocDest`). -/
structure Destination where
  protocolDestinationConnectionNumber : Number
  protocolDestinationCommonAddress : Number
  protocolDestinationObjectAddress : Number
  protocolDestinationASDU : Number
  protocolDestinationCommandDuration : Number := .fin 0
  protocolDestinationCommandUseSBO : Bool := false
  protocolDestinationGroup : Number := .fin 0
  protocolDestinationKConv1 : Number := .fin 1
  protocolDestinationKConv2 : Number := .fin 0
  protocolDestinationHoursShift : Number := .fin 0
  deriving DecidableEq

/-- A document of `realtimeData` as the server reads it (`rtData`). -/
structure RtData where
  _id : ℤ
  tag : String := ""
  origin : String := "supervised"
  value : Number := .fin 0
  timeTagAtSource : Option ℤ := none
  timeTagAtSourceOk : Option Bool := none
  invalid : Bool := false
  transient : Bool := false
  substituted : Bool := false
  overflow : Bool := false
  protocolSourceConnectionNumber : Number := .fin 0
  protocolSourceCommonAddress : Number := .fin 0
  protocolSourceObjectAddress : Number := .fin 0
  protocolSourceASDU : Number := .fin 0
  protocolSourceCommandDuration : Number := .fin 0
  protocolSourceCommandUseSBO : Bool := false
  kconv1 : Number := .fin 1
  kconv2 : Number := .fin 0
  protocolDestinations : List Destination := []
  deriving DecidableEq

/-- A filter on a field of the destinations holds when one element satisfies it. -/
def anyDestination (field : Destination → Number) (n : ℤ) (p : RtData) : Bool :=
  p.protocolDestinations.any fun d => field d = .fin n

end JsonScada.Iec104.Types
