/- path: JsonScada/Iec104Server/Monitor
   source: src/lib60870.netcore/iec104server, MongoChangeStream.cs, InterrogationHandler.cs
   and the read command of AsduReceiveHandler.cs
   digest: The information object each of the three paths makes of a destination. -/

import JsonScada.Iec104.Objects
import JsonScada.Iec104Server.Command

set_option autoImplicit false
set_option relaxedAutoImplicit false

namespace JsonScada.Iec104Server.Monitor

open JsonScada.Lib.Binary64 JsonScada.Lib.DotNet JsonScada.Iec104.Types
open JsonScada.Iec104.Objects JsonScada.Iec104Server.Command

/-- The quality of the change stream and of the read command. -/
def reportedQuality (p : RtData) : QualityDescriptor where
  invalid := p.invalid || p.overflow || p.transient
  substituted := p.substituted

/-- The quality of the interrogation. -/
def interrogatedQuality (p : RtData) : QualityDescriptor where
  invalid := p.invalid
  substituted := p.substituted
  overflow := p.overflow

def sourceTime (p : RtData) (dst : Destination) : Option CP56Time2a :=
  p.timeTagAtSource.map fun t => {
    time := addHours t dst.protocolDestinationHoursShift
    invalid := !p.timeTagAtSourceOk.getD false }

/-- `ProcessMongoCS`, for a destination of the connection. -/
def spontaneousObject (now : ℤ) (p : RtData) (dst : Destination) :
    Option (Option InformationObject) :=
  BuildInfoObj now (toInt32 dst.protocolDestinationASDU)
    (toInt32 dst.protocolDestinationObjectAddress) p.value false 0 (some (reportedQuality p))
    (sourceTime p dst)

/-- The switch of `InterrogationHandler`, over the types with and without a time tag. -/
def interrogatedContent (p : RtData) (dst : Destination) :
    Option (Option (Content × Option QualityDescriptor)) :=
  let q := some (interrogatedQuality p)
  let kconv1 := dst.protocolDestinationKConv1
  let val := (kconv1.mul p.value).add dst.protocolDestinationKConv2
  match TypeID.ofCode (toInt32 dst.protocolDestinationASDU) with
  | .M_SP_NA_1 | .M_SP_TB_1 => some (some (.single (boolean p.value kconv1), q))
  | .M_DP_NA_1 | .M_DP_TB_1 => some (some (.double (doublePoint p.value kconv1 p.transient), q))
  | .M_ST_NA_1 | .M_ST_TB_1 => measured (-64) 63 val q fun n => .step n p.transient
  | .M_ME_NA_1 | .M_ME_TD_1 => measured (-32768) 32767 val q .normalized
  | .M_ME_NB_1 | .M_ME_TE_1 => measured (-32768) 32767 val q .scaled
  | .M_ME_NC_1 | .M_ME_TF_1 => some (some (.short (toSingle val), q))
  | _ => some none

/-- `InterrogationHandler`, for the first destination of the connection. -/
def interrogatedObject (p : RtData) (dst : Destination) : Option (Option InformationObject) :=
  (interrogatedContent p dst).bind fun made => made.elim (some none) fun c =>
    (Convert.toInt32 dst.protocolDestinationObjectAddress).map fun addr => some {
      type := withoutTime (.ofCode (toInt32 dst.protocolDestinationASDU))
      objectAddress := addr
      content := c.1
      quality := c.2 }

/-- The query of the interrogation: all but the points marked with group -1 in a general
one, and those marked with the group in another. -/
def interrogationFilter (srv : Server) (qoi : ℤ) (p : RtData) : Bool :=
  anyDestination (·.protocolDestinationConnectionNumber) srv.protocolConnectionNumber p &&
    p.origin ≠ "command" &&
    (if qoi = 20 then !anyDestination (·.protocolDestinationGroup) (-1) p
    else anyDestination (·.protocolDestinationGroup) qoi p ||
      anyDestination (·.protocolDestinationGroup) (qoi - 20) p)

/-- The read command, for the first destination of the connection; the common address
also goes into the originator address of the answer, which is a byte. -/
def readObject (now : ℤ) (p : RtData) (dst : Destination) : Option (Option InformationObject) :=
  (Convert.toByte dst.protocolDestinationCommonAddress).bind fun _ =>
    (Convert.toInt32 dst.protocolDestinationASDU).bind fun asdu =>
      (Convert.toInt32 dst.protocolDestinationObjectAddress).bind fun addr =>
        BuildInfoObj now asdu addr p.value false 0 (some (reportedQuality p))

/-- The ways a point is sent, the interrogation with the byte that asks for a group. -/
inductive Path where
  | spontaneous
  | interrogation (qoi : Fin 256)
  | read

/-- The object a path sends for a destination of the point. -/
def sent (srv : Server) (now : ℤ) (p : RtData) (dst : Destination) :
    Path → Option InformationObject
  | .spontaneous =>
    if dst ∈ p.protocolDestinations ∧
        dst.protocolDestinationConnectionNumber = .fin srv.protocolConnectionNumber then
      (spontaneousObject now p dst).join
    else none
  | .interrogation qoi =>
    if interrogationFilter srv qoi p ∧ ownDestination srv p = some dst then
      (interrogatedObject p dst).join
    else none
  | .read => if ownDestination srv p = some dst then (readObject now p dst).join else none

/-- The types the interrogation has objects for. -/
def interrogates : TypeID → Bool
  | .M_SP_NA_1 | .M_SP_TB_1 | .M_DP_NA_1 | .M_DP_TB_1 | .M_ST_NA_1 | .M_ST_TB_1
  | .M_ME_NA_1 | .M_ME_TD_1 | .M_ME_NB_1 | .M_ME_TE_1 | .M_ME_NC_1 | .M_ME_TF_1 => true
  | _ => false

/-- The interrogation is the builder with the factors, the transient flag and the quality
of the interrogation. -/
theorem interrogatedContent_eq (p : RtData) (dst : Destination) :
    interrogatedContent p dst =
      if interrogates (.ofCode (toInt32 dst.protocolDestinationASDU)) then
        buildContent (.ofCode (toInt32 dst.protocolDestinationASDU)) p.value false 0
          (some (interrogatedQuality p)) dst.protocolDestinationKConv1
          dst.protocolDestinationKConv2 p.transient
      else some none := by
  have hval : (dst.protocolDestinationKConv1.mul p.value).add dst.protocolDestinationKConv2 =
      converted p.value dst.protocolDestinationKConv1 dst.protocolDestinationKConv2 := by
    rw [converted, Number.mul_comm]
  unfold interrogatedContent
  dsimp only
  rw [hval]
  cases TypeID.ofCode (toInt32 dst.protocolDestinationASDU) <;> rfl

/-- What an object says of its point, times and causes aside. -/
def said (o : InformationObject) : Content × Option QualityDescriptor := (o.content, o.quality)

/-- What the builder makes of a type for the change stream and the read command. -/
def reportedContent (p : RtData) (asdu : ℤ) : Option (Option (Content × Option QualityDescriptor)) :=
  buildContent (.ofCode asdu) p.value false 0 (some (reportedQuality p)) (.fin 1) (.fin 0) false

theorem built_said {now asdu addr : ℤ} {p : RtData} {time_tag : Option CP56Time2a} :
    (BuildInfoObj now asdu addr p.value false 0 (some (reportedQuality p)) time_tag).join.map
        said = (reportedContent p asdu).join := by
  have h := @build_carries now asdu addr p.value false 0 (some (reportedQuality p)) time_tag
    (.fin 1) (.fin 0) false
  unfold reportedContent
  rw [← h]
  generalize BuildInfoObj now asdu addr p.value false 0 _ time_tag = made
  rcases made with _ | _ | o <;> rfl

section Paths

variable {srv : Server} {now : ℤ} {p : RtData} {dst : Destination}

theorem spontaneous_carries {o : InformationObject}
    (h : sent srv now p dst .spontaneous = some o) :
    (reportedContent p (toInt32 dst.protocolDestinationASDU)).join = some (said o) := by
  dsimp only [sent] at h
  split at h
  · rw [← @built_said now _ (toInt32 dst.protocolDestinationObjectAddress) p (sourceTime p dst)]
    exact congrArg (Option.map said) h
  · cases h

theorem spontaneous_sends (hd : dst ∈ p.protocolDestinations)
    (hc : dst.protocolDestinationConnectionNumber = .fin srv.protocolConnectionNumber)
    {c : Content × Option QualityDescriptor}
    (h : (reportedContent p (toInt32 dst.protocolDestinationASDU)).join = some c) :
    ∃ o, sent srv now p dst .spontaneous = some o ∧ said o = c := by
  rw [← @built_said now _ (toInt32 dst.protocolDestinationObjectAddress) p
    (sourceTime p dst)] at h
  obtain ⟨o, ho, hs⟩ := Option.map_eq_some_iff.mp h
  refine ⟨o, ?_, hs⟩
  dsimp only [sent]
  rw [if_pos ⟨hd, hc⟩]
  exact ho

theorem read_carries {o : InformationObject} (h : sent srv now p dst .read = some o) :
    ownDestination srv p = some dst ∧
      (Convert.toByte dst.protocolDestinationCommonAddress).isSome = true ∧
      (Convert.toInt32 dst.protocolDestinationObjectAddress).isSome = true ∧
      ∃ asdu, Convert.toInt32 dst.protocolDestinationASDU = some asdu ∧
        (reportedContent p asdu).join = some (said o) := by
  dsimp only [sent] at h
  split at h
  case isFalse => cases h
  case isTrue hown =>
    have h := Option.join_eq_some_iff.mp h
    obtain ⟨oa, hoa, h⟩ := Option.bind_eq_some_iff.mp h
    obtain ⟨asdu, hasdu, h⟩ := Option.bind_eq_some_iff.mp h
    obtain ⟨addr, haddr, h⟩ := Option.bind_eq_some_iff.mp h
    refine ⟨hown, by rw [hoa]; rfl, by rw [haddr]; rfl, asdu, hasdu, ?_⟩
    rw [← @built_said now asdu addr p none]
    rw [h]
    rfl

theorem read_sends (hown : ownDestination srv p = some dst)
    (hoa : (Convert.toByte dst.protocolDestinationCommonAddress).isSome = true)
    (haddr : (Convert.toInt32 dst.protocolDestinationObjectAddress).isSome = true) {asdu : ℤ}
    (hasdu : Convert.toInt32 dst.protocolDestinationASDU = some asdu)
    {c : Content × Option QualityDescriptor} (h : (reportedContent p asdu).join = some c) :
    ∃ o, sent srv now p dst .read = some o ∧ said o = c := by
  obtain ⟨oa, hoa⟩ := Option.isSome_iff_exists.mp hoa
  obtain ⟨addr, haddr⟩ := Option.isSome_iff_exists.mp haddr
  rw [← @built_said now asdu addr p none] at h
  obtain ⟨o, ho, hs⟩ := Option.map_eq_some_iff.mp h
  refine ⟨o, ?_, hs⟩
  dsimp only [sent, readObject]
  rw [if_pos hown, hoa, hasdu, haddr]
  exact ho

theorem interrogation_carries {qoi : Fin 256} {o : InformationObject}
    (h : sent srv now p dst (.interrogation qoi) = some o) :
    p.origin ≠ "command" ∧ ownDestination srv p = some dst ∧
      (Convert.toInt32 dst.protocolDestinationObjectAddress).isSome = true ∧
      interrogatedContent p dst = some (some (said o)) := by
  dsimp only [sent] at h
  split at h
  case isFalse => cases h
  case isTrue hq =>
    obtain ⟨hfilter, hown⟩ := hq
    have horigin : p.origin ≠ "command" := by
      unfold interrogationFilter at hfilter
      simp only [Bool.and_eq_true, decide_eq_true_eq] at hfilter
      exact hfilter.1.2
    have h := Option.join_eq_some_iff.mp h
    obtain ⟨made, hmade, h⟩ := Option.bind_eq_some_iff.mp h
    cases made with
    | none => cases h
    | some c =>
      obtain ⟨addr, haddr, h⟩ := Option.map_eq_some_iff.mp h
      obtain rfl := Option.some.inj h
      exact ⟨horigin, hown, by rw [haddr]; rfl, hmade⟩

/-- A general interrogation asks for the point, or, when it is marked with group -1, the
request of group 19. -/
theorem interrogation_sends (horigin : p.origin ≠ "command")
    (hown : ownDestination srv p = some dst)
    (haddr : (Convert.toInt32 dst.protocolDestinationObjectAddress).isSome = true)
    {c : Content × Option QualityDescriptor} (h : interrogatedContent p dst = some (some c)) :
    ∃ qoi o, sent srv now p dst (.interrogation qoi) = some o ∧ said o = c := by
  have hconn : anyDestination (·.protocolDestinationConnectionNumber)
      srv.protocolConnectionNumber p = true := by
    have hmem := List.mem_of_find?_eq_some hown
    have heq := List.find?_some hown
    exact List.any_eq_true.mpr ⟨dst, hmem, heq⟩
  obtain ⟨addr, haddr⟩ := Option.isSome_iff_exists.mp haddr
  have hfilter : ∃ qoi : Fin 256, interrogationFilter srv qoi p = true := by
    unfold interrogationFilter
    rw [hconn]
    cases hg : anyDestination (·.protocolDestinationGroup) (-1) p with
    | false => exact ⟨20, by simp [horigin]⟩
    | true => exact ⟨19, by simp [horigin, hg]⟩
  obtain ⟨qoi, hq⟩ := hfilter
  refine ⟨qoi, {
    type := withoutTime (.ofCode (toInt32 dst.protocolDestinationASDU))
    objectAddress := addr
    content := c.1
    quality := c.2 }, ?_, rfl⟩
  dsimp only [sent, interrogatedObject]
  rw [if_pos ⟨hq, hown⟩, h, haddr]
  rfl

end Paths

end JsonScada.Iec104Server.Monitor
