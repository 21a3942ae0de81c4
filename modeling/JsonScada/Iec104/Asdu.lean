/- path: JsonScada/Iec104/Asdu
   source: src/lib60870.netcore/lib60870.netcore/lib60870/CS101, ASDU.cs and
   ApplicationLayerParameters.cs
   digest: An ASDU that is filled object by object, as long as its length allows. -/

import JsonScada.Iec104.Objects

set_option autoImplicit false
set_option relaxedAutoImplicit false

namespace JsonScada.Iec104.Asdu

open JsonScada.Iec104.Types JsonScada.Iec104.Objects

/-- The sizes in octets: one or two of the cause and of the common address, one to three
of an object address. -/
structure ApplicationLayerParameters where
  sizeOfCOT : ℕ := 2
  sizeOfCA : ℕ := 2
  sizeOfIOA : ℕ := 3
  sizeOfCOT_le : sizeOfCOT ≤ 2
  sizeOfCA_le : sizeOfCA ≤ 2
  sizeOfIOA_le : sizeOfIOA ≤ 3

/-- The parameters of an object that was just made. -/
def ApplicationLayerParameters.standard : ApplicationLayerParameters where
  sizeOfCOT_le := Nat.le_refl 2
  sizeOfCA_le := Nat.le_refl 2
  sizeOfIOA_le := Nat.le_refl 3

def maxAsduLength : ℕ := 249

/-- The octets of an object without its address, by the class the driver makes for its
type. The single, double and step commands with a time tag leave the tag uncounted. -/
def GetEncodedSize : TypeID → ℕ
  | .M_SP_NA_1 | .M_DP_NA_1 => 1
  | .M_ST_NA_1 | .M_ME_ND_1 => 2
  | .M_ME_NA_1 | .M_ME_NB_1 => 3
  | .M_BO_NA_1 | .M_ME_NC_1 | .M_IT_NA_1 => 5
  | .M_SP_TB_1 | .M_DP_TB_1 => 8
  | .M_ST_TB_1 => 9
  | .M_ME_TD_1 | .M_ME_TE_1 => 10
  | .M_BO_TB_1 | .M_ME_TF_1 | .M_IT_TB_1 => 12
  | .C_SC_NA_1 | .C_DC_NA_1 | .C_RC_NA_1 | .C_SC_TA_1 | .C_DC_TA_1 | .C_RC_TA_1 => 1
  | .C_SE_NA_1 | .C_SE_NB_1 => 3
  | .C_BO_NA_1 => 4
  | .C_SE_NC_1 => 5
  | .C_SE_TA_1 | .C_SE_TB_1 => 10
  | .C_BO_TA_1 => 11
  | .C_SE_TC_1 => 12
  | .C_IC_NA_1 | .C_CI_NA_1 | .C_RP_NA_1 => 1
  | .C_RD_NA_1 => 0
  | .C_CS_NA_1 => 7
  | .C_TS_NA_1 => 2
  | .C_TS_TA_1 => 9
  | .P_ME_NA_1 | .P_ME_NB_1 => 3
  | .P_ME_NC_1 => 5
  | .P_AC_NA_1 => 1
  | .other _ => 0

theorem GetEncodedSize_le (t : TypeID) : GetEncodedSize t ≤ 12 := by
  cases t <;> simp [GetEncodedSize]

/-- An ASDU without its octets; the type is that of the first object added. -/
structure ASDU where
  typeId : Option TypeID := none
  cot : ℤ
  ca : ℤ
  spaceLeft : ℕ
  informationObjects : List InformationObject := []
  deriving DecidableEq

section Filling

variable (parameters : ApplicationLayerParameters)

/-- The octets for objects, after type, qualifier, cause and common address. -/
def room : ℕ := maxAsduLength - 2 - parameters.sizeOfCA - parameters.sizeOfCOT

def newASDU (cot ca : ℤ) : ASDU where
  cot := cot
  ca := ca
  spaceLeft := room parameters

def objectSize (t : TypeID) : ℕ := GetEncodedSize t + parameters.sizeOfIOA

/-- The ASDU with one more object. -/
def push (a : ASDU) (io : InformationObject) : ASDU :=
  { a with
    spaceLeft := a.spaceLeft - objectSize parameters io.type
    informationObjects := a.informationObjects ++ [io] }

/-- Whether the object was added, and the ASDU after it; `none` is the exception for an
object of another type. -/
def AddInformationObject (a : ASDU) (io : InformationObject) : Option (Bool × ASDU) :=
  if a.typeId.any (· ≠ io.type) then none
  else
    let a := { a with typeId := some io.type }
    if 127 ≤ a.informationObjects.length then some (false, a)
    else if objectSize parameters io.type ≤ a.spaceLeft then some (true, push parameters a io)
    else some (false, a)

/-- The objects are of one type, and the space is what they leave of the room. -/
structure Filled (a : ASDU) (t : TypeID) : Prop where
  typeId : a.typeId = some t
  types : ∀ o ∈ a.informationObjects, o.type = t
  fits : a.informationObjects.length * objectSize parameters t ≤ room parameters
  spaceLeft : a.spaceLeft =
    room parameters - a.informationObjects.length * objectSize parameters t

variable {parameters}

theorem room_ge : 243 ≤ room parameters := by
  have hcot := parameters.sizeOfCOT_le
  have hca := parameters.sizeOfCA_le
  unfold room maxAsduLength
  omega

theorem objectSize_le (t : TypeID) : objectSize parameters t ≤ 15 := by
  have hsize := GetEncodedSize_le t
  have hioa := parameters.sizeOfIOA_le
  unfold objectSize
  omega

/-- A first object always fits. -/
theorem add_first (cot ca : ℤ) (io : InformationObject) :
    ∃ a, AddInformationObject parameters (newASDU parameters cot ca) io = some (true, a) ∧
      Filled parameters a io.type ∧ a.informationObjects = [io] ∧ a.cot = cot ∧ a.ca = ca := by
  have hroom := @room_ge parameters
  have hsize := @objectSize_le parameters io.type
  refine ⟨push parameters { newASDU parameters cot ca with typeId := some io.type } io, ?_, ?_,
    rfl, rfl, rfl⟩
  · have hcount : ¬127 ≤ (newASDU parameters cot ca).informationObjects.length := by
      simp [newASDU]
    have hfit : objectSize parameters io.type ≤ (newASDU parameters cot ca).spaceLeft := by
      change objectSize parameters io.type ≤ room parameters
      omega
    rw [AddInformationObject, if_neg (by simp [newASDU])]
    dsimp only
    rw [if_neg hcount, if_pos hfit]
  · refine ⟨rfl, ?_, ?_, ?_⟩
    · intro o ho
      rw [List.mem_singleton.mp ho]
    · simp only [push, newASDU, List.nil_append, List.length_singleton, one_mul]
      omega
    · simp only [push, newASDU, List.nil_append, List.length_singleton, one_mul]

/-- A further object is added just when its octets are left. -/
theorem add_filled {a : ASDU} {io : InformationObject} (h : Filled parameters a io.type)
    (hcount : a.informationObjects.length < 127) :
    AddInformationObject parameters a io =
      some (if (a.informationObjects.length + 1) * objectSize parameters io.type ≤ room parameters
        then (true, push parameters a io)
        else (false, a)) := by
  have hspace := h.spaceLeft
  have hfits := h.fits
  have hsame : { a with typeId := some io.type } = a := by rw [← h.typeId]
  have hiff : objectSize parameters io.type ≤ a.spaceLeft ↔
      (a.informationObjects.length + 1) * objectSize parameters io.type ≤ room parameters := by
    rw [Nat.succ_mul]
    omega
  simp only [AddInformationObject, h.typeId, Option.any_some, ne_eq, not_true_eq_false,
    decide_false, Bool.false_eq_true, if_false]
  rw [if_neg (by simpa using hcount)]
  by_cases hfit : objectSize parameters io.type ≤ a.spaceLeft
  · simp [hfit, hiff.mp hfit, hsame]
  · simp [hfit, mt hiff.mpr hfit, hsame]

theorem Filled.add {a : ASDU} {io : InformationObject} (h : Filled parameters a io.type)
    (hfit : (a.informationObjects.length + 1) * objectSize parameters io.type ≤ room parameters) :
    Filled parameters (push parameters a io) io.type := by
  have hspace := h.spaceLeft
  refine ⟨h.typeId, ?_, ?_, ?_⟩
  · intro o ho
    rcases List.mem_append.mp ho with ho | ho
    · exact h.types o ho
    · rw [List.mem_singleton.mp ho]
  · simpa [push] using hfit
  · simp only [push, List.length_append, List.length_singleton, Nat.succ_mul]
    omega

end Filling

end JsonScada.Iec104.Asdu
