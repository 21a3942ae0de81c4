/- path: JsonScada/Iec104/Wire
   source: src/lib60870.netcore/lib60870.netcore/lib60870, CS101 (ASDU.cs and
   InformationObject.cs)
   digest: An ASDU with its objects as octets, and the ASDU that is parsed of octets. -/

import JsonScada.Iec104.Codec

set_option autoImplicit false
set_option relaxedAutoImplicit false

namespace JsonScada.Iec104.Wire

open JsonScada.Lib.Endian (bytes)
open JsonScada.Lib.OctetReader
open JsonScada.Iec104.Types JsonScada.Iec104.Objects JsonScada.Iec104.Asdu JsonScada.Iec104.Codec

section Objects

/-- The octets of an object address; their number is one, two or three. -/
def addressOctets (sizeOfIOA : ℕ) (objectAddress : ℤ) : List ℕ :=
  [(objectAddress % 256).toNat] ++
    (if 1 < sizeOfIOA then [(objectAddress.tdiv 0x100 % 256).toNat] else []) ++
    if 2 < sizeOfIOA then [(objectAddress.tdiv 0x10000 % 256).toNat] else []

/-- `Encode` of an information object: its address, which the later objects of a sequence do not
have, its content and its time tag. -/
def objectOctets (sizeOfIOA : ℕ) (isSequence : Bool) (io : InformationObject) :
    Option (List ℕ) :=
  (contentOctets io.content io.quality).map fun octets =>
    (if isSequence then [] else addressOctets sizeOfIOA io.objectAddress) ++
      (octets ++ (io.timestamp.map encodedValue).getD [])

/-- The address of an object, which is set afterwards in a sequence. -/
def objectAddress (sizeOfIOA : ℕ) (isSequence : Bool) : Reader ℕ :=
  if isSequence then pure 0 else number sizeOfIOA

/-- The time tag of the types that have one. -/
def timestamp (t : TypeID) : Reader (Option CP56Time2a) :=
  if hasTimestamp t then some <$> cp56Time2a else pure none

/-- The constructor of the class of the type. -/
def informationObject (sizeOfIOA : ℕ) (t : TypeID) (isSequence : Bool) :
    Reader InformationObject := do
  let ioa ← objectAddress sizeOfIOA isSequence
  let c ← content t
  let timestamp ← timestamp t
  return { type := t, objectAddress := ioa, content := c.1, quality := c.2, timestamp := timestamp }

/-- The octets `GetElement` counts for an object without its address. -/
def elementSize : TypeID → ℕ
  | .C_SC_TA_1 | .C_DC_TA_1 | .C_RC_TA_1 => 8
  | t => GetEncodedSize t

theorem elementSize_le (t : TypeID) : elementSize t ≤ 12 := by
  cases t <;> simp [elementSize, GetEncodedSize]

/-- An object of its class: with a value of its range, with a quality and a time tag where the
class has them, and with a time that two digits of the year tell. -/
structure Made (io : InformationObject) : Prop where
  type : withoutTime io.type = io.content.type
  range : InRange io.content
  quality : io.quality.isSome = hasQuality io.content
  timestamp : io.timestamp.isSome = hasTimestamp io.type
  century : ∀ c ∈ io.timestamp, inCentury c.time
  address : 0 ≤ io.objectAddress

/-- The object as it is received with an address. -/
def received (objectAddress : ℤ) (io : InformationObject) : InformationObject :=
  { io with
    objectAddress := objectAddress
    content := (receivedContent io.content io.quality).1
    quality := (receivedContent io.content io.quality).2 }

variable {sizeOfIOA : ℕ} {io : InformationObject}

theorem reads_address (hlow : 1 ≤ sizeOfIOA) (hhigh : sizeOfIOA ≤ 3) {objectAddress : ℤ}
    (h : 0 ≤ objectAddress) :
    Reads (number sizeOfIOA) (addressOctets sizeOfIOA objectAddress)
      (objectAddress % 256 ^ sizeOfIOA).toNat := by
  have hlt : (objectAddress % 256 ^ sizeOfIOA).toNat < 256 ^ sizeOfIOA := by
    have hpos : (0 : ℤ) < 256 ^ sizeOfIOA := by positivity
    have hmod := Int.emod_lt_of_pos objectAddress hpos
    zify
    rw [Int.toNat_of_nonneg (Int.emod_nonneg _ hpos.ne')]
    exact hmod
  have hread := Reads.number hlt
  have hoctets : bytes sizeOfIOA (objectAddress % 256 ^ sizeOfIOA).toNat =
      addressOctets sizeOfIOA objectAddress := by
    unfold addressOctets
    rw [Int.tdiv_eq_ediv_of_nonneg h, Int.tdiv_eq_ediv_of_nonneg h]
    have hsize : sizeOfIOA = 1 ∨ sizeOfIOA = 2 ∨ sizeOfIOA = 3 := by omega
    rcases hsize with rfl | rfl | rfl
    · simp [bytes]
      omega
    · simp [bytes]
      omega
    · simp [bytes]
      omega
  rw [hoctets] at hread
  exact hread

theorem length_addressOctets (hlow : 1 ≤ sizeOfIOA) (hhigh : sizeOfIOA ≤ 3) (objectAddress : ℤ) :
    (addressOctets sizeOfIOA objectAddress).length = sizeOfIOA := by
  have hsize : sizeOfIOA = 1 ∨ sizeOfIOA = 2 ∨ sizeOfIOA = 3 := by omega
  rcases hsize with rfl | rfl | rfl <;> rfl

/-- The octets of the time tag, where the type has one. -/
theorem reads_timestamp (h : Made io) :
    Reads (timestamp io.type)
      ((io.timestamp.map encodedValue).getD []) io.timestamp := by
  have htag := h.timestamp
  unfold timestamp
  cases htime : io.timestamp with
  | none =>
    rw [htime] at htag
    rw [← htag]
    exact Reads.pure none
  | some c =>
    rw [htime] at htag
    rw [← htag]
    exact (reads_cp56Time2a (h.century c htime)).map some

/-- The octets of an object are read back as it is received. -/
theorem reads_object (h : Made io) (hlow : 1 ≤ sizeOfIOA) (hhigh : sizeOfIOA ≤ 3)
    (isSequence : Bool) :
    ∃ octets, objectOctets sizeOfIOA isSequence io = some octets ∧
      Reads (informationObject sizeOfIOA io.type isSequence) octets
        (received (if isSequence then 0 else (io.objectAddress % 256 ^ sizeOfIOA).toNat : ℕ) io) := by
  obtain ⟨octets, hoctets, hread⟩ := reads_content h.type h.range h.quality
  refine ⟨_, by rw [objectOctets, hoctets]; rfl, ?_⟩
  have haddress : Reads (objectAddress sizeOfIOA isSequence)
      (if isSequence then [] else addressOctets sizeOfIOA io.objectAddress)
      (if isSequence then 0 else (io.objectAddress % 256 ^ sizeOfIOA).toNat) := by
    cases isSequence with
    | true => exact Reads.pure 0
    | false => exact reads_address hlow hhigh h.address
  exact haddress.bind (hread.bind (reads_only (reads_timestamp h) fun timestamp =>
    ({ received _ io with timestamp := timestamp } : InformationObject)))

/-- The octets of a content, by the type it has without a time tag. -/
theorem length_contentOctets {c : Content} {quality : Option QualityDescriptor}
    {octets : List ℕ} (h : contentOctets c quality = some octets) :
    octets.length + (if hasTimestamp c.type then 7 else 0) = elementSize c.type := by
  cases quality with
  | none => cases c <;> cases h <;> rfl
  | some q => cases c <;> cases h <;> rfl

/-- A time tag has seven octets. -/
theorem elementSize_withoutTime {t : TypeID} {c : Content} (h : withoutTime t = c.type) :
    elementSize t + (if hasTimestamp c.type then 7 else 0) =
      elementSize c.type + if hasTimestamp t then 7 else 0 := by
  have hcounter : c.type ≠ .M_IT_NA_1 := by cases c <;> simp [Content.type]
  rw [← h] at hcounter ⊢
  cases t <;> first | rfl | exact absurd rfl hcounter

theorem length_objectOctets (h : Made io) {isSequence : Bool} {octets : List ℕ}
    (hoctets : objectOctets sizeOfIOA isSequence io = some octets) (hlow : 1 ≤ sizeOfIOA)
    (hhigh : sizeOfIOA ≤ 3) :
    octets.length = (if isSequence then 0 else sizeOfIOA) + elementSize io.type := by
  obtain ⟨inner, hinner, rfl⟩ := Option.map_eq_some_iff.mp hoctets
  have hcontent := length_contentOctets hinner
  have hsizes := elementSize_withoutTime h.type
  have htime : ((io.timestamp.map encodedValue).getD []).length =
      if hasTimestamp io.type then 7 else 0 := by
    rw [← h.timestamp]
    cases io.timestamp <;> rfl
  have haddress := length_addressOctets hlow hhigh io.objectAddress
  rw [List.length_append, List.length_append, htime]
  cases isSequence with
  | true =>
    simp only [if_true, List.length_nil]
    omega
  | false =>
    rw [if_neg Bool.false_ne_true, if_neg Bool.false_ne_true, haddress]
    omega

end Objects

/-- An ASDU with the flags and the originator that its octets have. -/
structure Message extends ASDU where
  isTest : Bool := false
  isNegative : Bool := false
  isSequence : Bool := false
  oa : ℕ := 0

section Filling

variable (parameters : ApplicationLayerParameters)

/-- The constructor of `ASDU`. -/
def new (cot ca : ℤ) (isTest isNegative isSequence : Bool) (oa : ℕ) : Message where
  toASDU := newASDU parameters cot ca
  isTest := isTest
  isNegative := isNegative
  isSequence := isSequence
  oa := oa

namespace Message

/-- The room that one more object takes: in a sequence only the first has an address. -/
def sizeOf (m : Message) (io : InformationObject) : ℕ :=
  GetEncodedSize io.type +
    if m.isSequence && !m.informationObjects.isEmpty then 0 else parameters.sizeOfIOA

/-- The addresses of a sequence follow each other. -/
def follows (m : Message) (io : InformationObject) : Bool :=
  !m.isSequence || m.informationObjects.head?.all fun first =>
    io.objectAddress = first.objectAddress + m.informationObjects.length

/-- Whether the object was added, and the ASDU after it; none is the exception for an object
of another type. -/
def AddInformationObject (m : Message) (io : InformationObject) : Option (Bool × Message) :=
  if m.typeId.any (· ≠ io.type) then none
  else
    let m := { m with typeId := some io.type }
    if 127 ≤ m.informationObjects.length then some (false, m)
    else if !m.follows io then some (false, m)
    else if m.sizeOf parameters io ≤ m.spaceLeft then some (true, { m with
      spaceLeft := m.spaceLeft - m.sizeOf parameters io
      informationObjects := m.informationObjects ++ [io] })
    else some (false, m)

/-- An ASDU that is no sequence is filled as one without flags. -/
theorem AddInformationObject_single {m : Message} (h : m.isSequence = false)
    (io : InformationObject) :
    (m.AddInformationObject parameters io).map (fun r => (r.1, r.2.toASDU)) =
      Asdu.AddInformationObject parameters m.toASDU io := by
  unfold AddInformationObject Asdu.AddInformationObject
  by_cases htype : m.typeId.any (· ≠ io.type) = true
  · rw [if_pos htype, if_pos htype]
    rfl
  rw [if_neg htype, if_neg htype]
  dsimp only
  by_cases hcount : 127 ≤ m.informationObjects.length
  · rw [if_pos hcount, if_pos hcount]
    rfl
  rw [if_neg hcount, if_neg hcount]
  have hfollows : follows { m with typeId := some io.type } io = true := by
    simp [follows, h]
  have hsize : sizeOf parameters { m with typeId := some io.type } io =
      objectSize parameters io.type := by
    simp [sizeOf, objectSize, h]
  rw [hfollows, hsize, if_neg (by decide)]
  by_cases hfit : objectSize parameters io.type ≤ m.spaceLeft
  · rw [if_pos hfit, if_pos hfit]
    rfl
  · rw [if_neg hfit, if_neg hfit]
    rfl

/-- The ASDU after a number of objects were offered to it; what does not fit is left out. -/
def addAll : Message → List InformationObject → Option Message
  | m, [] => some m
  | m, io :: ios => (m.AddInformationObject parameters io).bind fun r => r.2.addAll ios

/-- The octets of the objects as `AddInformationObject` counts them. -/
def used (m : Message) : ℕ :=
  m.informationObjects.length * (m.typeId.elim 0 GetEncodedSize) +
    (if m.isSequence then min 1 m.informationObjects.length else m.informationObjects.length) *
      parameters.sizeOfIOA

/-- The objects have one type, at most 127 of them fit, and the addresses of a sequence follow
each other. -/
structure Sound (m : Message) : Prop where
  types : ∀ o ∈ m.informationObjects, m.typeId = some o.type
  count : m.informationObjects.length ≤ 127
  consecutive : m.isSequence = true → ∀ first ∈ m.informationObjects.head?, ∀ (i : ℕ) o,
    m.informationObjects[i]? = some o → o.objectAddress = first.objectAddress + i
  space : m.spaceLeft + m.used parameters = room parameters

end Message

namespace Message

variable {parameters} {m : Message}

theorem sound_new (cot ca : ℤ) (isTest isNegative isSequence : Bool) (oa : ℕ) :
    (new parameters cot ca isTest isNegative isSequence oa).Sound parameters where
  types := fun o ho => absurd ho List.not_mem_nil
  count := Nat.zero_le _
  consecutive := fun _ first hfirst => by cases hfirst
  space := by simp [new, newASDU, used]

/-- What a call does: it sets the type, and adds the object where it follows and has room. -/
theorem add_cases {io : InformationObject} {r : Bool × Message}
    (hr : m.AddInformationObject parameters io = some r) :
    (∀ t ∈ m.typeId, t = io.type) ∧
      (r = (false, { m with typeId := some io.type }) ∨
        m.informationObjects.length < 127 ∧ m.follows io = true ∧
          m.sizeOf parameters io ≤ m.spaceLeft ∧
          r = (true, { m with
            typeId := some io.type
            spaceLeft := m.spaceLeft - m.sizeOf parameters io
            informationObjects := m.informationObjects ++ [io] })) := by
  unfold AddInformationObject at hr
  split at hr
  · cases hr
  next htype =>
    refine ⟨fun t ht => ?_, ?_⟩
    · obtain rfl | hne := eq_or_ne t io.type
      · rfl
      · refine absurd ?_ htype
        rw [Option.mem_def.mp ht]
        simpa using hne
    · dsimp only at hr
      split at hr
      · exact .inl (Option.some.inj hr).symm
      next hcount =>
        split at hr
        · exact .inl (Option.some.inj hr).symm
        next hfollows =>
          split at hr
          · next hfit =>
            refine .inr ⟨by omega, ?_, hfit, (Option.some.inj hr).symm⟩
            exact (Bool.not_eq_false _).mp fun hno => hfollows ((Bool.not_eq_true' _).mpr hno)
          · exact .inl (Option.some.inj hr).symm

/-- Only objects of the type are in an ASDU. -/
theorem Sound.used_eq (h : m.Sound parameters) {t : TypeID} (ht : ∀ u ∈ m.typeId, u = t) :
    m.used parameters = m.informationObjects.length * GetEncodedSize t +
      (if m.isSequence then min 1 m.informationObjects.length
        else m.informationObjects.length) * parameters.sizeOfIOA := by
  unfold used
  cases hobjects : m.informationObjects with
  | nil => simp
  | cons o os =>
    have htype := h.types o (by rw [hobjects]; exact List.mem_cons_self)
    rw [htype, Option.elim_some, ht o.type (by rw [htype]; rfl)]

theorem Sound.add (h : m.Sound parameters) {io : InformationObject} {r : Bool × Message}
    (hr : m.AddInformationObject parameters io = some r) : r.2.Sound parameters := by
  obtain ⟨htype, hcases⟩ := add_cases hr
  have htypes : ∀ o ∈ m.informationObjects, some io.type = some o.type := by
    intro o ho
    have hmem := h.types o ho
    rw [htype o.type hmem]
  have hused := h.used_eq htype
  rcases hcases with rfl | ⟨hcount, hfollows, hfit, rfl⟩
  · refine ⟨htypes, h.count, h.consecutive, ?_⟩
    have hspace := h.space
    rw [hused] at hspace
    exact hspace
  · refine ⟨?_, ?_, ?_, ?_⟩
    · intro o ho
      rcases List.mem_append.mp ho with ho | ho
      · exact htypes o ho
      · rw [List.mem_singleton.mp ho]
    · rw [List.length_append, List.length_singleton]
      omega
    · intro hseq first hfirst i o hi
      change m.isSequence = true at hseq
      have hnext : ∀ f ∈ m.informationObjects.head?,
          io.objectAddress = f.objectAddress + m.informationObjects.length := by
        intro f hf
        unfold follows at hfollows
        rw [hseq, Option.mem_def.mp hf] at hfollows
        simpa using hfollows
      dsimp only at hfirst hi
      rcases Nat.lt_or_ge i m.informationObjects.length with hlt | hge
      · rw [List.getElem?_append_left hlt] at hi
        rw [List.head?_append_of_ne_nil _ (List.ne_nil_of_length_pos (by omega))] at hfirst
        exact h.consecutive hseq first hfirst i o hi
      · rw [List.getElem?_append_right hge, List.getElem?_singleton] at hi
        split at hi
        · next hlast =>
          obtain rfl := Option.some.inj hi
          cases hobjects : m.informationObjects with
          | nil =>
            rw [hobjects] at hfirst hlast
            obtain rfl := Option.some.inj hfirst
            simp only [List.length_nil] at hlast
            omega
          | cons f os =>
            rw [hobjects, List.cons_append, List.head?_cons] at hfirst
            obtain rfl := Option.some.inj hfirst
            rw [hnext f (by rw [hobjects]; rfl)]
            omega
        · cases hi
    · have hspace := h.space
      rw [hused] at hspace
      unfold used
      dsimp only
      rw [Option.elim_some, List.length_append, List.length_singleton, Nat.succ_mul]
      unfold sizeOf at hfit ⊢
      cases hseq : m.isSequence with
      | false =>
        simp only [hseq, Bool.false_and, Bool.false_eq_true, if_false] at hspace hfit ⊢
        rw [Nat.succ_mul]
        omega
      | true =>
        cases hobjects : m.informationObjects with
        | nil =>
          have hmin : min 1 0 = 0 ∧ min 1 (0 + 1) = 1 := by decide
          simp only [hseq, hobjects, List.isEmpty_nil, Bool.not_true, Bool.and_false,
            Bool.false_eq_true, if_false, if_true, List.length_nil, hmin] at hspace hfit ⊢
          omega
        | cons f os =>
          have hone : min 1 ((f :: os).length + 1) = min 1 (f :: os).length := by
            simp
          simp only [hseq, hobjects, List.isEmpty_cons, Bool.not_false, Bool.and_true, if_true,
            hone] at hspace hfit ⊢
          omega

theorem Sound.addAll (h : m.Sound parameters) {ios : List InformationObject} {m' : Message}
    (hm : m.addAll parameters ios = some m') : m'.Sound parameters := by
  induction ios generalizing m with
  | nil =>
    obtain rfl := Option.some.inj hm
    exact h
  | cons io ios ih =>
    obtain ⟨r, hr, hrest⟩ := Option.bind_eq_some_iff.mp hm
    exact ih (h.add hr) hrest

end Message

end Filling

section Octets

variable (parameters : ApplicationLayerParameters)

namespace Message

/-- Type, qualifier, cause and addresses. -/
def header (m : Message) (typeId : TypeID) : List ℕ :=
  [(typeId.code % 256).toNat, m.informationObjects.length ||| bit 0x80 m.isSequence,
      (m.cot % 256).toNat ||| bit 0x80 m.isTest ||| bit 0x40 m.isNegative] ++
    (if parameters.sizeOfCOT = 2 then [m.oa] else []) ++ [(m.ca % 256).toNat] ++
    if 1 < parameters.sizeOfCA then [(m.ca.tdiv 256 % 256).toNat] else []

/-- The octets of each of the objects. -/
def objects (m : Message) : Option (List (List ℕ)) :=
  match m.informationObjects with
  | [] => some []
  | first :: others => do
    let octets ← objectOctets parameters.sizeOfIOA false first
    let rest ← others.mapM (objectOctets parameters.sizeOfIOA m.isSequence)
    return octets :: rest

/-- `Encode`; without an object there is none. -/
def Encode (m : Message) : Option (List ℕ) := do
  let typeId ← m.typeId
  let objects ← m.objects parameters
  return m.header parameters typeId ++ objects.flatten

end Message

/-- The ASDU of received octets. -/
structure Received where
  typeId : TypeID
  vsq : ℕ
  cot : ℕ
  isTest : Bool
  isNegative : Bool
  oa : ℕ
  ca : ℕ
  payload : List ℕ := []
  deriving DecidableEq

/-- The originator address, which goes with a second octet of the cause. -/
def originatorAddress : Reader ℕ := if parameters.sizeOfCOT = 2 then next else pure 0

def commonAddress : Reader ℕ := if 1 < parameters.sizeOfCA then number 2 else number 1

/-- What is read before the objects. -/
def receivedHeader : Reader Received := do
  let typeId ← next
  let vsq ← next
  let cotByte ← next
  let oa ← originatorAddress parameters
  let ca ← commonAddress parameters
  return {
    typeId := .ofCode typeId
    vsq := vsq
    cot := cotByte &&& 0x3f
    isTest := cotByte &&& 0x80 ≠ 0
    isNegative := cotByte &&& 0x40 ≠ 0
    oa := oa
    ca := ca }

/-- The constructor of `ASDU` of a message. -/
def parse (msg : List ℕ) : Option Received :=
  if msg.length < 2 + parameters.sizeOfCOT + parameters.sizeOfCA then none
  else (receivedHeader parameters msg).map fun r => { r.1 with payload := r.2 }

/-- The types whose objects `GetElement` also reads of a sequence. -/
def readsSequence : TypeID → Bool
  | .M_SP_NA_1 | .M_DP_NA_1 | .M_ST_NA_1 | .M_BO_NA_1 | .M_ME_NA_1 | .M_ME_NB_1 | .M_ME_NC_1
  | .M_IT_NA_1 | .M_ME_ND_1 | .M_SP_TB_1 | .M_DP_TB_1 | .M_ST_TB_1 | .M_BO_TB_1 | .M_ME_TD_1
  | .M_ME_TE_1 | .M_ME_TF_1 | .M_IT_TB_1 => true
  | _ => false

namespace Received

def IsSequence (r : Received) : Bool := r.vsq &&& 0x80 ≠ 0

def NumberOfElements (r : Received) : ℕ := r.vsq &&& 0x7f

/-- The element at an index; none is an exception. -/
def GetElement (r : Received) (index : ℕ) : Option InformationObject :=
  if r.NumberOfElements ≤ index then none
  else
    let size := elementSize r.typeId
    if r.IsSequence && readsSequence r.typeId then do
      let (ioa, _) ← number parameters.sizeOfIOA r.payload
      let (io, _) ← informationObject parameters.sizeOfIOA r.typeId true
        (r.payload.drop (parameters.sizeOfIOA + index * size))
      return { io with objectAddress := ioa + index }
    else
      (informationObject parameters.sizeOfIOA r.typeId false
        (r.payload.drop (index * (parameters.sizeOfIOA + size)))).map Prod.fst

/-- The elements that a loop over their number reads. -/
def elements (r : Received) : Option (List InformationObject) :=
  (List.range r.NumberOfElements).mapM (r.GetElement parameters)

end Received

/-- The fields are within what their octets tell. -/
structure Message.Addressed (m : Message) : Prop where
  cot : 0 ≤ m.cot ∧ m.cot < 64
  oa : m.oa < 256
  ca : 0 ≤ m.ca ∧ m.ca < 256 ^ parameters.sizeOfCA

/-- No size is zero. -/
structure Sized : Prop where
  cot : 1 ≤ parameters.sizeOfCOT
  ca : 1 ≤ parameters.sizeOfCA
  ioa : 1 ≤ parameters.sizeOfIOA

/-- The header that is read of the octets of an ASDU. -/
def Message.readHeader (m : Message) (typeId : TypeID) : Received where
  typeId := typeId
  vsq := m.informationObjects.length ||| bit 0x80 m.isSequence
  cot := m.cot.toNat
  isTest := m.isTest
  isNegative := m.isNegative
  oa := if parameters.sizeOfCOT = 2 then m.oa else 0
  ca := m.ca.toNat

/-- The address of an object of an ASDU as it is received. -/
def Message.receivedAddress (m : Message) (i : ℕ) (io : InformationObject) : ℤ :=
  let modulus : ℤ := 256 ^ parameters.sizeOfIOA
  if m.isSequence then m.informationObjects.head?.elim 0 (·.objectAddress) % modulus + i
  else io.objectAddress % modulus

/-- The objects of an ASDU as they are received. -/
def Message.receivedObjects (m : Message) : List InformationObject :=
  m.informationObjects.mapIdx fun i io => received (m.receivedAddress parameters i io) io

variable {parameters} {m : Message}

theorem cause_received {cot : ℕ} (isTest isNegative : Bool) (h : cot < 64) :
    (cot ||| bit 0x80 isTest ||| bit 0x40 isNegative) &&& 0x3f = cot ∧
      decide ((cot ||| bit 0x80 isTest ||| bit 0x40 isNegative) &&& 0x80 ≠ 0) = isTest ∧
      decide ((cot ||| bit 0x80 isTest ||| bit 0x40 isNegative) &&& 0x40 ≠ 0) = isNegative := by
  have hall : ∀ a b : Bool, ∀ n < 64, (n ||| bit 0x80 a ||| bit 0x40 b) &&& 0x3f = n ∧
      decide ((n ||| bit 0x80 a ||| bit 0x40 b) &&& 0x80 ≠ 0) = a ∧
      decide ((n ||| bit 0x80 a ||| bit 0x40 b) &&& 0x40 ≠ 0) = b := by
    decide +kernel
  exact hall isTest isNegative cot h

theorem qualifier_received {count : ℕ} (isSequence : Bool) (h : count ≤ 127) :
    (count ||| bit 0x80 isSequence) &&& 0x7f = count ∧
      decide ((count ||| bit 0x80 isSequence) &&& 0x80 ≠ 0) = isSequence := by
  have hall : ∀ b : Bool, ∀ n < 128, (n ||| bit 0x80 b) &&& 0x7f = n ∧
      decide ((n ||| bit 0x80 b) &&& 0x80 ≠ 0) = b := by
    decide +kernel
  exact hall isSequence count (by omega)

theorem reads_commonAddress (hsize : 1 ≤ parameters.sizeOfCA) {ca : ℤ}
    (h : 0 ≤ ca ∧ ca < 256 ^ parameters.sizeOfCA) :
    Reads (commonAddress parameters)
      ([(ca % 256).toNat] ++ if 1 < parameters.sizeOfCA then [(ca.tdiv 256 % 256).toNat] else [])
      ca.toNat := by
  have hca : parameters.sizeOfCA = 1 ∨ parameters.sizeOfCA = 2 := by
    have hle := parameters.sizeOfCA_le
    omega
  obtain ⟨hlow, hhigh⟩ := h
  have hlt : ca.toNat < 256 ^ parameters.sizeOfCA := by
    zify
    rw [Int.toNat_of_nonneg hlow]
    exact hhigh
  have hread := Reads.number hlt
  unfold commonAddress
  rw [Int.tdiv_eq_ediv_of_nonneg hlow]
  rcases hca with hca | hca
  · rw [hca] at hread hhigh
    rw [hca, if_neg (by decide), if_neg (by decide)]
    have hoctets : bytes 1 ca.toNat = [(ca % 256).toNat] ++ [] := by
      simp [bytes]
      omega
    exact hoctets ▸ hread
  · rw [hca] at hread hhigh
    rw [hca, if_pos (by decide), if_pos (by decide)]
    have hoctets : bytes 2 ca.toNat = [(ca % 256).toNat] ++ [(ca / 256 % 256).toNat] := by
      simp [bytes]
      omega
    exact hoctets ▸ hread

theorem reads_header (hsizes : Sized parameters) (hm : m.Addressed parameters) {t : TypeID}
    (hcode : 0 ≤ t.code ∧ t.code < 256) (hnamed : TypeID.ofCode t.code = t) :
    Reads (receivedHeader parameters) (m.header parameters t) (m.readHeader parameters t) := by
  have hcot : (m.cot % 256).toNat = m.cot.toNat := by
    have hrange := hm.cot
    omega
  have htype : (t.code % 256).toNat = t.code.toNat := by omega
  have hcause : m.cot.toNat < 64 := by
    have hrange := hm.cot
    omega
  obtain ⟨hcot', htest, hnegative⟩ := cause_received m.isTest m.isNegative hcause
  have horiginator : Reads (originatorAddress parameters)
      (if parameters.sizeOfCOT = 2 then [m.oa] else [])
      (if parameters.sizeOfCOT = 2 then m.oa else 0) := by
    unfold originatorAddress
    split
    · exact Reads.next m.oa
    · exact Reads.pure 0
  have hoctets : m.header parameters t = [t.code.toNat] ++
      ([m.informationObjects.length ||| bit 0x80 m.isSequence] ++
        ([m.cot.toNat ||| bit 0x80 m.isTest ||| bit 0x40 m.isNegative] ++
          ((if parameters.sizeOfCOT = 2 then [m.oa] else []) ++
            ([(m.ca % 256).toNat] ++
              if 1 < parameters.sizeOfCA then [(m.ca.tdiv 256 % 256).toNat] else [])))) := by
    rw [← hcot, ← htype]
    simp [Message.header]
  rw [hoctets]
  refine Reads.of_eq ((Reads.next _).bind ((Reads.next _).bind ((Reads.next _).bind
    (horiginator.bind (reads_only (reads_commonAddress hsizes.ca hm.ca) _))))) ?_
  rw [hcot', htest, hnegative, Int.toNat_of_nonneg hcode.1, hnamed]
  rfl

theorem length_header (hsizes : Sized parameters) (t : TypeID) :
    (m.header parameters t).length = 2 + parameters.sizeOfCOT + parameters.sizeOfCA := by
  have hcot : parameters.sizeOfCOT = 1 ∨ parameters.sizeOfCOT = 2 := by
    have hle := parameters.sizeOfCOT_le
    have hge := hsizes.cot
    omega
  have hca : parameters.sizeOfCA = 1 ∨ parameters.sizeOfCA = 2 := by
    have hle := parameters.sizeOfCA_le
    have hge := hsizes.ca
    omega
  unfold Message.header
  rcases hcot with hcot | hcot <;> rcases hca with hca | hca <;> rw [hcot, hca] <;> rfl

/-- The ASDU that is parsed of the header of an ASDU and of what follows it. -/
theorem parse_header (hsizes : Sized parameters) (hm : m.Addressed parameters) {t : TypeID}
    (hcode : 0 ≤ t.code ∧ t.code < 256) (hnamed : TypeID.ofCode t.code = t) (payload : List ℕ) :
    parse parameters (m.header parameters t ++ payload) =
      some { m.readHeader parameters t with payload := payload } := by
  unfold parse
  rw [List.length_append, length_header hsizes, if_neg (by omega),
    reads_header hsizes hm hcode hnamed payload]
  rfl

/-- The type of an object is one of those with a name. -/
theorem Made.named {io : InformationObject} (h : Made io) :
    (0 ≤ io.type.code ∧ io.type.code < 256) ∧ TypeID.ofCode io.type.code = io.type := by
  have htype := h.type
  generalize io.type = t at htype
  cases t with
  | other n =>
    have hother : io.content.type ≠ .other n := by cases io.content <;> simp [Content.type]
    exact absurd htype.symm hother
  | _ => exact ⟨by decide, rfl⟩

section Elements

/-- The records of the objects, each with the length of its type and read back. -/
theorem exists_objectOctets (hsizes : Sized parameters) (isSequence : Bool) {t : TypeID}
    {ios : List InformationObject} (hmade : ∀ o ∈ ios, Made o) (htype : ∀ o ∈ ios, o.type = t) :
    ∃ records, ios.mapM (objectOctets parameters.sizeOfIOA isSequence) = some records ∧
      records.length = ios.length ∧
      (∀ r ∈ records, r.length = (if isSequence then 0 else parameters.sizeOfIOA) + elementSize t) ∧
      ∀ (i : ℕ) o, ios[i]? = some o → ∃ octets, records[i]? = some octets ∧
        Reads (informationObject parameters.sizeOfIOA t isSequence) octets
          (received (if isSequence then 0
            else (o.objectAddress % 256 ^ parameters.sizeOfIOA).toNat : ℕ) o) := by
  refine exists_records fun o ho => ?_
  obtain ⟨octets, hoctets, hread⟩ :=
    reads_object (hmade o ho) hsizes.ioa parameters.sizeOfIOA_le isSequence
  have hlen := length_objectOctets (hmade o ho) hoctets hsizes.ioa parameters.sizeOfIOA_le
  rw [htype o ho] at hread hlen
  exact ⟨octets, hoctets, hlen, hread⟩

theorem objects_single (h : m.isSequence = false) :
    m.objects parameters =
      m.informationObjects.mapM (objectOctets parameters.sizeOfIOA false) := by
  unfold Message.objects
  cases m.informationObjects with
  | nil => rfl
  | cons first others =>
    rw [List.mapM_cons, h]

/-- The octets of the objects of a sequence are those without addresses after that of the
first object. -/
theorem objects_sequence (h : m.isSequence = true) {first : InformationObject}
    (hfirst : m.informationObjects.head? = some first) {records : List (List ℕ)}
    (hrecords : m.informationObjects.mapM (objectOctets parameters.sizeOfIOA true) =
      some records) :
    ∃ objects, m.objects parameters = some objects ∧
      objects.flatten =
        addressOctets parameters.sizeOfIOA first.objectAddress ++ records.flatten := by
  unfold Message.objects
  cases hobjects : m.informationObjects with
  | nil =>
    rw [hobjects] at hfirst
    cases hfirst
  | cons o others =>
    rw [hobjects] at hfirst hrecords
    obtain rfl := Option.some.inj hfirst
    rw [List.mapM_cons] at hrecords
    obtain ⟨octets, hoctets, hrest⟩ := Option.bind_eq_some_iff.mp hrecords
    obtain ⟨rest, hothers, heq⟩ := Option.bind_eq_some_iff.mp hrest
    obtain rfl := Option.some.inj heq
    obtain ⟨inner, hinner, rfl⟩ := Option.map_eq_some_iff.mp hoctets
    dsimp only
    rw [h, objectOctets, hinner, hothers]
    refine ⟨_, rfl, ?_⟩
    simp

/-- Every element of the payload is the object as it is received. -/
theorem GetElement_eq (hsizes : Sized parameters) (hm : m.Sound parameters)
    (hmade : ∀ o ∈ m.informationObjects, Made o) {t : TypeID} (ht : m.typeId = some t)
    (hseq : m.isSequence = true → readsSequence t = true) (hne : m.informationObjects ≠ []) :
    ∃ objects, m.objects parameters = some objects ∧
      ∀ (i : ℕ) o, m.informationObjects[i]? = some o →
        ({ m.readHeader parameters t with payload := objects.flatten } : Received).GetElement
          parameters i = some (received (m.receivedAddress parameters i o) o) := by
  have htype : ∀ o ∈ m.informationObjects, o.type = t := fun o ho =>
    (Option.some.inj (ht.symm.trans (hm.types o ho))).symm
  obtain ⟨hcount, hflag⟩ := qualifier_received m.isSequence hm.count
  cases hsequence : m.isSequence with
  | false =>
    obtain ⟨records, hrecords, -, hlen, hread⟩ := exists_objectOctets hsizes false hmade htype
    refine ⟨records, (objects_single hsequence).trans hrecords, fun i o hi => ?_⟩
    obtain ⟨octets, hoctets, hreads⟩ := hread i o hi
    obtain ⟨rest, hrest⟩ := Reads.at hlen hoctets hreads
    have hindex : i < m.informationObjects.length := (List.getElem?_eq_some_iff.mp hi).1
    unfold Received.GetElement Received.NumberOfElements Received.IsSequence Message.readHeader
    dsimp only
    rw [hcount, hflag, hsequence, if_neg (by omega), Bool.false_and, if_neg Bool.false_ne_true]
    rw [if_neg Bool.false_ne_true] at hrest
    have haddress : ((o.objectAddress % 256 ^ parameters.sizeOfIOA).toNat : ℤ) =
        m.receivedAddress parameters i o := by
      unfold Message.receivedAddress
      rw [hsequence, if_neg Bool.false_ne_true]
      exact Int.toNat_of_nonneg (Int.emod_nonneg _ (by positivity))
    rw [hrest, ← haddress]
    rfl
  | true =>
    obtain ⟨records, hrecords, -, hlen, hread⟩ := exists_objectOctets hsizes true hmade htype
    obtain ⟨first, hfirst⟩ : ∃ first, m.informationObjects.head? = some first :=
      ⟨_, List.head?_eq_some_head hne⟩
    obtain ⟨objects, hobjects, hflatten⟩ := objects_sequence hsequence hfirst hrecords
    refine ⟨objects, hobjects, fun i o hi => ?_⟩
    obtain ⟨octets, hoctets, hreads⟩ := hread i o hi
    obtain ⟨rest, hrest⟩ := Reads.at hlen hoctets hreads
    have hindex : i < m.informationObjects.length := (List.getElem?_eq_some_iff.mp hi).1
    have hnonneg : 0 ≤ first.objectAddress :=
      (hmade first (List.mem_of_head? hfirst)).address
    have hioa := reads_address hsizes.ioa parameters.sizeOfIOA_le hnonneg
    have hlength := length_addressOctets hsizes.ioa parameters.sizeOfIOA_le first.objectAddress
    unfold Received.GetElement Received.NumberOfElements Received.IsSequence Message.readHeader
    dsimp only
    rw [hcount, hflag, hsequence, if_neg (by omega), hseq hsequence, Bool.and_true, if_pos rfl,
      hflatten, hioa]
    have hdrop : (addressOctets parameters.sizeOfIOA first.objectAddress ++ records.flatten).drop
        (parameters.sizeOfIOA + i * elementSize t) = records.flatten.drop (i * elementSize t) := by
      rw [List.drop_append, hlength, Nat.add_sub_cancel_left,
        List.drop_eq_nil_of_le (by rw [hlength]; exact Nat.le_add_right _ _), List.nil_append]
    rw [if_pos rfl, Nat.zero_add] at hrest
    rw [hdrop]
    have haddress : ((first.objectAddress % 256 ^ parameters.sizeOfIOA).toNat + i : ℤ) =
        m.receivedAddress parameters i o := by
      unfold Message.receivedAddress
      rw [hsequence, if_pos rfl, hfirst, Option.elim_some,
        Int.toNat_of_nonneg (Int.emod_nonneg _ (by positivity))]
    rw [← haddress]
    dsimp only [bind, Option.bind]
    rw [hrest]
    rfl

/-- The octets of the objects: in a sequence only the first has an address. -/
theorem length_objects (hsizes : Sized parameters) (hm : m.Sound parameters)
    (hmade : ∀ o ∈ m.informationObjects, Made o) {t : TypeID} (ht : m.typeId = some t)
    (hne : m.informationObjects ≠ []) :
    ∃ objects, m.objects parameters = some objects ∧
      objects.flatten.length = m.informationObjects.length * elementSize t +
        (if m.isSequence then 1 else m.informationObjects.length) * parameters.sizeOfIOA := by
  have htype : ∀ o ∈ m.informationObjects, o.type = t := fun o ho =>
    (Option.some.inj (ht.symm.trans (hm.types o ho))).symm
  cases hsequence : m.isSequence with
  | false =>
    obtain ⟨records, hrecords, hcount, hlen, -⟩ := exists_objectOctets hsizes false hmade htype
    refine ⟨records, (objects_single hsequence).trans hrecords, ?_⟩
    rw [length_records hlen, hcount, if_neg Bool.false_ne_true, if_neg Bool.false_ne_true]
    ring
  | true =>
    obtain ⟨records, hrecords, hcount, hlen, -⟩ := exists_objectOctets hsizes true hmade htype
    obtain ⟨first, hfirst⟩ : ∃ first, m.informationObjects.head? = some first :=
      ⟨_, List.head?_eq_some_head hne⟩
    obtain ⟨objects, hobjects, hflatten⟩ := objects_sequence hsequence hfirst hrecords
    refine ⟨objects, hobjects, ?_⟩
    rw [hflatten, List.length_append, length_records hlen, hcount,
      length_addressOctets hsizes.ioa parameters.sizeOfIOA_le, if_pos rfl, if_pos rfl]
    ring

theorem elements_eq (hsizes : Sized parameters) (hm : m.Sound parameters)
    (hmade : ∀ o ∈ m.informationObjects, Made o) {t : TypeID} (ht : m.typeId = some t)
    (hseq : m.isSequence = true → readsSequence t = true) (hne : m.informationObjects ≠ []) :
    ∃ objects, m.objects parameters = some objects ∧
      ({ m.readHeader parameters t with payload := objects.flatten } : Received).elements
        parameters = some (m.receivedObjects parameters) := by
  obtain ⟨objects, hobjects, hget⟩ := GetElement_eq hsizes hm hmade ht hseq hne
  refine ⟨objects, hobjects, ?_⟩
  have hcount : ({ m.readHeader parameters t with payload := objects.flatten } :
      Received).NumberOfElements = (m.receivedObjects parameters).length := by
    rw [Message.receivedObjects, List.length_mapIdx]
    exact (qualifier_received m.isSequence hm.count).1
  unfold Received.elements
  rw [hcount]
  refine mapM_range fun i o hi => ?_
  rw [Message.receivedObjects, List.getElem?_mapIdx] at hi
  obtain ⟨sent, hsent, rfl⟩ := Option.map_eq_some_iff.mp hi
  exact hget i sent hsent

end Elements

end Octets

end JsonScada.Iec104.Wire
