/- path: JsonScada/Cs101/LinkLayer
   source: src/lib60870.netcore/lib60870.netcore/lib60870/LinkLayer, LinkLayer.cs and
   SerialTransceiverFT12.cs
   digest: The frames of the serial link: how they are written, read from the line and checked. -/

import Mathlib

set_option autoImplicit false
set_option relaxedAutoImplicit false

namespace JsonScada.Cs101

/-- The codes of a function are four bits, so that there is a code. -/
instance functionCode : NeZero 16 := ⟨by decide⟩

section Written

structure LinkLayerParameters where
  addressLength : ℕ
  timeoutForACK : ℤ
  timeoutRepeat : ℤ
  useSingleCharACK : Bool
  timeoutLinkState : ℤ
  addressLength_le : addressLength ≤ 2

variable (p : LinkLayerParameters)

/-- The control octet, after the cast to a byte. -/
def controlField (fc : ℕ) (prm dir acd dfc : Bool) : ℕ :=
  (fc + (if prm then 0x40 else 0) + (if dir then 0x80 else 0) + (if acd then 0x20 else 0) +
    if dfc then 0x10 else 0) % 0x100

def addressField (address : ℕ) : List ℕ :=
  (if 0 < p.addressLength then [address % 0x100] else []) ++
    if 1 < p.addressLength then [address / 0x100 % 0x100] else []

def checksum (octets : List ℕ) : ℕ := octets.sum % 0x100

def SINGLE_CHAR_ACK : List ℕ := [0xe5]

def SendFixedFrame (fc address : ℕ) (prm dir acd dfc : Bool) : List ℕ :=
  let body := controlField fc prm dir acd dfc :: addressField p address
  [0x10] ++ (body ++ [checksum body, 0x16])

/-- A frame of variable length; none is sent where its length is no octet. -/
def variableLengthFrame (c address : ℕ) (frame : List ℕ) : Option (List ℕ) :=
  let l := 1 + p.addressLength + frame.length
  let body := c :: addressField p address ++ frame
  if 255 < l then none else some ([0x68, l, l, 0x68] ++ (body ++ [checksum body, 0x16]))

def SendVariableLengthFramePrimary (dir : Bool) (fc address : ℕ) (fcb fcv : Bool)
    (frame : List ℕ) : Option (List ℕ) :=
  variableLengthFrame p (controlField fc true dir fcb fcv) address frame

def SendVariableLengthFrameSecondary (balanced dir : Bool) (fc address : ℕ) (acd dfc : Bool)
    (frame : List ℕ) : Option (List ℕ) :=
  variableLengthFrame p (controlField (fc &&& 0x1f) false (balanced && dir) acd dfc) address frame

end Written

section Read

variable (p : LinkLayerParameters)

/-- One call of the transceiver on the octets that arrive without a pause: the message that is
handed over, and the octets that are left. -/
def ReadNextMessage : List ℕ → Option (List ℕ) × List ℕ
  | [] => (none, [])
  | start :: rest =>
    let take (n : ℕ) : Option (List ℕ) × List ℕ :=
      if n ≤ rest.length then (some (start :: rest.take n), rest.drop n) else (none, [])
    if start = 0x68 then
      match rest with
      | [] => (none, [])
      | l :: _ => take (l + 5)
    else if start = 0x10 then take (3 + p.addressLength)
    else if start = 0xe5 then (some [start], rest)
    else (none, rest)

/-- The messages that so many calls hand over. -/
def readMessages : ℕ → List ℕ → List (List ℕ)
  | 0, _ => []
  | n + 1, stream =>
    (ReadNextMessage p stream).1.toList ++ readMessages n (ReadNextMessage p stream).2

def octet (msg : List ℕ) (i : ℕ) : ℕ := msg.getD i 0

/-- The parts of a message that the header parsers find, before they check them. -/
structure Layout where
  c : ℕ
  csStart : ℕ
  csIndex : ℕ
  userData : List ℕ

/-- Where the parts of a message are; `msg` is the buffer, whose first `msgSize` octets are the
message. -/
def layout (msg : List ℕ) (msgSize : ℕ) : Option Layout :=
  if octet msg 0 = 0x68 then
    if octet msg 1 ≠ octet msg 2 then none
    else
      let userDataLength : ℤ := octet msg 1 - p.addressLength - 1
      let userDataStart := 5 + p.addressLength
      if (msgSize : ℤ) ≠ userDataStart + userDataLength + 2 then none
      else some {
        c := octet msg 4
        csStart := 4
        csIndex := (userDataStart + userDataLength).toNat
        userData := (msg.drop userDataStart).take userDataLength.toNat }
  else if octet msg 0 = 0x10 then
    some { c := octet msg 1, csStart := 1, csIndex := 2 + p.addressLength, userData := [] }
  else none

def receivedAddress (msg : List ℕ) (csStart : ℕ) : ℕ :=
  (if 0 < p.addressLength then octet msg (csStart + 1) else 0) +
    if 1 < p.addressLength then octet msg (csStart + 2) * 0x100 else 0

def checksumHolds (msg : List ℕ) (l : Layout) : Bool :=
  checksum ((msg.drop l.csStart).take (l.csIndex - l.csStart)) = octet msg l.csIndex

def hasBit (c bit : ℕ) : Bool := c &&& bit = bit

/-- What a header tells the link layer: its function code, its two flags (FCB and FCV of a primary
station, ACD and DFC of a secondary one), the address and the user data. -/
structure Header where
  fc : ℕ
  fcb : Bool
  fcv : Bool
  address : ℕ
  userData : List ℕ
deriving DecidableEq

def USER_DATA_NO_REPLY : ℕ := 4

def isBroadcast (address : ℕ) : Bool :=
  (p.addressLength = 1 && address = 255) || (p.addressLength = 2 && address = 65535)

/-- The call of `HandleMessage` of a polled station with an address, and whether it is a
broadcast. -/
def ParseHeaderSecondaryUnbalanced (ownAddress : ℕ) (msg : List ℕ) (msgSize : ℕ) :
    Option (Header × Bool) :=
  (layout p msg msgSize).bind fun l =>
    let address := receivedAddress p msg l.csStart
    let broadcast := isBroadcast p address
    let fc := l.c &&& 0x0f
    if (if broadcast then fc ≠ USER_DATA_NO_REPLY else address ≠ ownAddress) then none
    else if checksumHolds msg l && hasBit l.c 0x40 then
      some ({ fc, fcb := hasBit l.c 0x20, fcv := hasBit l.c 0x10, address,
              userData := l.userData }, broadcast)
    else none

/-- The call of `HandleMessage` of a polling station; the single character is an ACK of the
current slave. -/
inductive Response
  | ack
  | message (header : Header)
deriving DecidableEq

def HandleMessageBalancedAndPrimaryUnbalanced (msg : List ℕ) (msgSize : ℕ) : Option Response :=
  if octet msg 0 = 0xe5 then some .ack
  else (layout p msg msgSize).bind fun l =>
    if checksumHolds msg l && !hasBit l.c 0x40 then
      some (.message {
        fc := l.c &&& 0x0f, fcb := hasBit l.c 0x20, fcv := hasBit l.c 0x10,
        address := receivedAddress p msg l.csStart, userData := l.userData })
    else none

end Read

section Frame

variable {p : LinkLayerParameters} {address : ℕ}

theorem length_addressField : (addressField p address).length = p.addressLength := by
  have hle := p.addressLength_le
  unfold addressField
  split <;> split <;> simp <;> omega

/-- The octets of a frame that the checksum covers. -/
def body (p : LinkLayerParameters) (c address : ℕ) (userData : List ℕ) : List ℕ :=
  c :: addressField p address ++ userData

theorem length_body (p : LinkLayerParameters) (c address : ℕ) (userData : List ℕ) :
    (body p c address userData).length = 1 + p.addressLength + userData.length := by
  rw [body, List.cons_append, List.length_cons, List.length_append, length_addressField]
  omega

/-- What a header says when its checksum holds. -/
def headerOf (p : LinkLayerParameters) (octets : List ℕ) : Header where
  fc := octet octets 0 &&& 0x0f
  fcb := hasBit (octet octets 0) 0x20
  fcv := hasBit (octet octets 0) 0x10
  address := receivedAddress p octets 0
  userData := octets.drop (1 + p.addressLength)

/-- The bits of the control octet are the flags it was made of. -/
theorem controlField_bits (fc : Fin 16) (prm dir acd dfc : Bool) :
    controlField fc prm dir acd dfc &&& 0x0f = fc ∧
      hasBit (controlField fc prm dir acd dfc) 0x40 = prm ∧
      hasBit (controlField fc prm dir acd dfc) 0x20 = acd ∧
      hasBit (controlField fc prm dir acd dfc) 0x10 = dfc := by
  revert fc prm dir acd dfc
  decide

/-- The address of a frame is read back of its octets. -/
theorem receivedAddress_body (haddress : address < 0x100 ^ p.addressLength) (c : ℕ)
    (userData : List ℕ) : receivedAddress p (body p c address userData) 0 = address := by
  have hle := p.addressLength_le
  unfold receivedAddress body addressField octet
  rcases (by omega : p.addressLength = 0 ∨ p.addressLength = 1 ∨ p.addressLength = 2) with
    h | h | h <;> rw [h] at haddress ⊢ <;> simp at haddress ⊢ <;> omega

theorem headerOf_fc (fc : Fin 16) (prm dir acd dfc : Bool) (userData : List ℕ) :
    (headerOf p (body p (controlField fc prm dir acd dfc) address userData)).fc = fc :=
  (controlField_bits fc prm dir acd dfc).1

theorem headerOf_userData (c : ℕ) (userData : List ℕ) :
    (headerOf p (body p c address userData)).userData = userData := by
  have hlen : (c :: addressField p address).length = 1 + p.addressLength := by
    rw [List.length_cons, length_addressField, Nat.add_comm]
  rw [headerOf, body]
  exact List.drop_left' hlen

theorem headerOf_body (haddress : address < 0x100 ^ p.addressLength) (fc : Fin 16)
    (prm dir acd dfc : Bool) (userData : List ℕ) :
    headerOf p (body p (controlField fc prm dir acd dfc) address userData) =
      { fc, fcb := acd, fcv := dfc, address, userData } := by
  obtain ⟨hfc, -, hacd, hdfc⟩ := controlField_bits fc prm dir acd dfc
  exact (Header.mk.injEq ..).mpr ⟨hfc, hacd, hdfc, receivedAddress_body haddress _ _,
    headerOf_userData _ userData⟩

end Frame

section Layout

variable {p : LinkLayerParameters} {octets : List ℕ}

theorem octet_append_left {front back : List ℕ} {i : ℕ} (hi : i < front.length) :
    octet (front ++ back) i = octet front i := by
  unfold octet
  rw [List.getD_append _ _ _ _ hi]

theorem octet_append_right (front back : List ℕ) (i : ℕ) :
    octet (front ++ back) (front.length + i) = octet back i := by
  unfold octet
  rw [List.getD_append_right _ _ _ _ (Nat.le_add_right _ _), Nat.add_sub_cancel_left]

theorem receivedAddress_append {front back : List ℕ} (hlen : 1 + p.addressLength ≤ octets.length) :
    receivedAddress p (front ++ (octets ++ back)) front.length = receivedAddress p octets 0 := by
  have hat {i : ℕ} (hi : i < octets.length) :
      octet (front ++ (octets ++ back)) (front.length + i) = octet octets (0 + i) := by
    rw [octet_append_right, octet_append_left hi, Nat.zero_add]
  unfold receivedAddress
  refine congrArg₂ (· + ·) ?_ ?_
  · split
    · exact hat (by omega)
    · rfl
  · split
    · rw [hat (by omega)]
    · rfl

theorem checksumHolds_eq {front back : List ℕ} {cs : ℕ} {l : Layout} (hs : l.csStart = front.length)
    (hi : l.csIndex = front.length + octets.length) :
    checksumHolds (front ++ (octets ++ cs :: back)) l = decide (checksum octets = cs) := by
  have hcs : octet (front ++ (octets ++ cs :: back)) l.csIndex = cs := by
    rw [hi, octet_append_right]
    exact octet_append_right octets (cs :: back) 0
  unfold checksumHolds
  rw [hcs, hs, hi, List.drop_left, Nat.add_sub_cancel_left, List.take_left]

theorem layout_fixed {cs e : ℕ} {stale : List ℕ} (hlen : octets.length = 1 + p.addressLength) :
    layout p ([0x10] ++ (octets ++ cs :: e :: stale)) (4 + p.addressLength) =
      some { c := octet octets 0, csStart := 1, csIndex := 1 + octets.length, userData := [] } := by
  have hc : octet ([0x10] ++ (octets ++ cs :: e :: stale)) 1 = octet octets 0 :=
    (octet_append_right [0x10] _ 0).trans (octet_append_left (by omega))
  have hstart : octet ([0x10] ++ (octets ++ cs :: e :: stale)) 0 = 0x10 := rfl
  unfold layout
  rw [hstart, if_neg (by decide), if_pos rfl, hc, hlen, ← Nat.add_assoc]

theorem layout_variable {x cs e : ℕ} {stale : List ℕ}
    (hlen : 1 + p.addressLength ≤ octets.length) :
    layout p ([0x68, octets.length, octets.length, x] ++ (octets ++ cs :: e :: stale))
        (octets.length + 6) =
      some { c := octet octets 0, csStart := 4, csIndex := 4 + octets.length,
             userData := octets.drop (1 + p.addressLength) } := by
  set msg := [0x68, octets.length, octets.length, x] ++ (octets ++ cs :: e :: stale) with hmsg
  have hc : octet msg 4 = octet octets 0 :=
    (octet_append_right [0x68, octets.length, octets.length, x] _ 0).trans
      (octet_append_left (by omega))
  have hdata : (msg.drop (5 + p.addressLength)).take
      ((octets.length : ℤ) - p.addressLength - 1).toNat = octets.drop (1 + p.addressLength) := by
    have hdrop : msg.drop (5 + p.addressLength) =
        octets.drop (1 + p.addressLength) ++ cs :: e :: stale := by
      rw [hmsg, show 5 + p.addressLength = 4 + (1 + p.addressLength) by omega, ← List.drop_drop]
      exact List.drop_append_of_le_length hlen
    rw [hdrop]
    refine List.take_left' ?_
    rw [List.length_drop]
    omega
  have hone : octet msg 1 = octets.length := rfl
  have htwo : octet msg 2 = octets.length := rfl
  have hstart : octet msg 0 = 0x68 := rfl
  unfold layout
  rw [hstart, if_pos rfl, hone, htwo, if_neg (fun h => h rfl)]
  dsimp only
  rw [if_neg (by push_cast; omega), hc, hdata]
  congr 2
  omega

end Layout

section Laid

variable {p : LinkLayerParameters} {msg octets : List ℕ} {n cs : ℕ}

/-- The message has these octets under its checksum, whatever the value of the checksum. -/
structure Laid (p : LinkLayerParameters) (msg : List ℕ) (n : ℕ) (octets : List ℕ) (cs : ℕ) :
    Prop where
  long : 1 + p.addressLength ≤ octets.length
  parts : ∃ front back, msg = front ++ (octets ++ cs :: back) ∧ octet msg 0 ≠ 0xe5 ∧
    layout p msg n = some { c := octet octets 0, csStart := front.length,
                            csIndex := front.length + octets.length,
                            userData := octets.drop (1 + p.addressLength) }

theorem laid_fixed (hlen : octets.length = 1 + p.addressLength) (e : ℕ) (stale : List ℕ) :
    Laid p ([0x10] ++ (octets ++ cs :: e :: stale)) (4 + p.addressLength) octets cs := by
  have hstart : (0x10 : ℕ) ≠ 0xe5 := by decide
  refine ⟨Nat.le_of_eq hlen.symm, [0x10], e :: stale, rfl, hstart, ?_⟩
  rw [layout_fixed hlen, List.drop_of_length_le (Nat.le_of_eq hlen)]
  rfl

theorem laid_variable (hlen : 1 + p.addressLength ≤ octets.length) (x e : ℕ) (stale : List ℕ) :
    Laid p ([0x68, octets.length, octets.length, x] ++ (octets ++ cs :: e :: stale))
      (octets.length + 6) octets cs := by
  have hstart : (0x68 : ℕ) ≠ 0xe5 := by decide
  exact ⟨hlen, _, e :: stale, rfl, hstart, layout_variable hlen⟩

/-- What a polled station makes of octets whose checksum holds. -/
def heard (p : LinkLayerParameters) (ownAddress : ℕ) (octets : List ℕ) : Option (Header × Bool) :=
  let h := headerOf p octets
  if (if isBroadcast p h.address then h.fc ≠ USER_DATA_NO_REPLY else h.address ≠ ownAddress) then
    none
  else if hasBit (octet octets 0) 0x40 then some (h, isBroadcast p h.address) else none

theorem Laid.heard_eq (h : Laid p msg n octets cs) (ownAddress : ℕ) :
    ParseHeaderSecondaryUnbalanced p ownAddress msg n =
      if checksum octets = cs then heard p ownAddress octets else none := by
  obtain ⟨hlong, front, back, rfl, -, hlayout⟩ := h
  unfold ParseHeaderSecondaryUnbalanced heard
  rw [hlayout, Option.bind_some]
  dsimp only
  rw [receivedAddress_append hlong, checksumHolds_eq rfl rfl]
  by_cases hcs : checksum octets = cs
  · simp only [hcs, decide_true, Bool.true_and, if_true]
    rfl
  · simp only [hcs, decide_false, Bool.false_and, Bool.false_eq_true, if_false, ite_self]

theorem Laid.response_eq (h : Laid p msg n octets cs) :
    HandleMessageBalancedAndPrimaryUnbalanced p msg n =
      if checksum octets = cs ∧ hasBit (octet octets 0) 0x40 = false then
        some (.message (headerOf p octets)) else none := by
  obtain ⟨hlong, front, back, rfl, hstart, hlayout⟩ := h
  unfold HandleMessageBalancedAndPrimaryUnbalanced
  rw [if_neg hstart, hlayout, Option.bind_some]
  rw [receivedAddress_append hlong, checksumHolds_eq rfl rfl]
  by_cases hcs : checksum octets = cs
  · by_cases hbit : hasBit (octet octets 0) 0x40 = true
    · simp [hcs, hbit]
    · simp [hcs, hbit]
      rfl
  · simp [hcs]

end Laid

section Sent

variable {p : LinkLayerParameters} {address c : ℕ} {frame userData : List ℕ}

theorem variableLengthFrame_eq_some (h : variableLengthFrame p c address userData = some frame) :
    (body p c address userData).length ≤ 255 ∧
      frame =
        [0x68, (body p c address userData).length, (body p c address userData).length, 0x68] ++
        (body p c address userData ++ [checksum (body p c address userData), 0x16]) := by
  have hlen := length_body p c address userData
  unfold variableLengthFrame at h
  dsimp only at h
  split at h
  · cases h
  · rename_i hle
    rw [hlen]
    exact ⟨Nat.le_of_not_lt hle, (Option.some.inj h).symm⟩

theorem length_variableLengthFrame
    (h : variableLengthFrame p c address userData = some frame) :
    frame.length = (body p c address userData).length + 6 := by
  rw [(variableLengthFrame_eq_some h).2]
  simp only [List.length_append, List.length_cons, List.length_nil]
  omega

theorem laid_sent_variable (h : variableLengthFrame p c address userData = some frame) :
    Laid p frame frame.length (body p c address userData)
      (checksum (body p c address userData)) := by
  have hlong : 1 + p.addressLength ≤ (body p c address userData).length := by
    rw [length_body]
    exact Nat.le_add_right _ _
  rw [length_variableLengthFrame h, (variableLengthFrame_eq_some h).2]
  exact laid_variable hlong _ _ []

theorem SendFixedFrame_eq (fc address : ℕ) (prm dir acd dfc : Bool) :
    SendFixedFrame p fc address prm dir acd dfc =
      [0x10] ++ (body p (controlField fc prm dir acd dfc) address [] ++
        [checksum (body p (controlField fc prm dir acd dfc) address []), 0x16]) := by
  unfold SendFixedFrame body
  rw [List.append_nil]

theorem length_SendFixedFrame (fc address : ℕ) (prm dir acd dfc : Bool) :
    (SendFixedFrame p fc address prm dir acd dfc).length = 4 + p.addressLength := by
  rw [SendFixedFrame_eq]
  simp only [List.length_append, List.length_cons, List.length_nil, length_body]
  omega

theorem laid_sent_fixed (fc address : ℕ) (prm dir acd dfc : Bool) :
    Laid p (SendFixedFrame p fc address prm dir acd dfc)
      (SendFixedFrame p fc address prm dir acd dfc).length
      (body p (controlField fc prm dir acd dfc) address [])
      (checksum (body p (controlField fc prm dir acd dfc) address [])) := by
  rw [length_SendFixedFrame, SendFixedFrame_eq]
  exact laid_fixed (by rw [length_body, List.length_nil, Nat.add_zero]) _ []

end Sent

section Stations

variable {p : LinkLayerParameters} {dir : Bool} {ownAddress : ℕ}

/-- A frame that a polling station sends, of fixed length where it has no user data. -/
structure PrimaryFrame where
  fc : Fin 16
  address : ℕ
  fcb : Bool
  fcv : Bool
  userData : Option (List ℕ)

namespace PrimaryFrame

def octets (p : LinkLayerParameters) (dir : Bool) (f : PrimaryFrame) : Option (List ℕ) :=
  match f.userData with
  | none => some (SendFixedFrame p f.fc f.address true dir f.fcb f.fcv)
  | some userData => SendVariableLengthFramePrimary p dir f.fc f.address f.fcb f.fcv userData

/-- The octets of the frame that its checksum covers. -/
def body (p : LinkLayerParameters) (dir : Bool) (f : PrimaryFrame) : List ℕ :=
  Cs101.body p (controlField f.fc true dir f.fcb f.fcv) f.address (f.userData.getD [])

def header (f : PrimaryFrame) : Header :=
  { fc := f.fc, fcb := f.fcb, fcv := f.fcv, address := f.address,
    userData := f.userData.getD [] }

/-- A frame is for the station with its address; a broadcast is for all, if no reply is
expected. -/
def isFor (p : LinkLayerParameters) (ownAddress : ℕ) (f : PrimaryFrame) : Bool :=
  if isBroadcast p f.address then f.fc.val = USER_DATA_NO_REPLY else f.address = ownAddress

theorem laid {f : PrimaryFrame} {msg : List ℕ} (h : f.octets p dir = some msg) :
    Laid p msg msg.length (f.body p dir) (checksum (f.body p dir)) := by
  unfold octets at h
  unfold body
  cases hdata : f.userData with
  | none =>
    rw [hdata] at h
    obtain rfl := Option.some.inj h
    exact laid_sent_fixed _ _ _ _ _ _
  | some userData =>
    rw [hdata] at h
    exact laid_sent_variable h

/-- A polled station hears the frames for it, with all that they say, and no other. -/
theorem heard_eq {f : PrimaryFrame} {msg : List ℕ} (h : f.octets p dir = some msg)
    (haddress : f.address < 0x100 ^ p.addressLength) :
    ParseHeaderSecondaryUnbalanced p ownAddress msg msg.length =
      if f.isFor p ownAddress then some (f.header, isBroadcast p f.address) else none := by
  obtain ⟨-, hprm, -, -⟩ := controlField_bits f.fc true dir f.fcb f.fcv
  have hheader : headerOf p (f.body p dir) = f.header :=
    headerOf_body haddress f.fc true dir f.fcb f.fcv _
  have hbit : hasBit (octet (f.body p dir) 0) 0x40 = true := hprm
  rw [(laid h).heard_eq, if_pos rfl, heard]
  rw [hheader, hbit, if_pos rfl, isFor, header]
  by_cases hb : isBroadcast p f.address = true
  · simp only [hb, if_true, decide_eq_true_eq]
    split <;> simp_all
  · simp only [hb]
    split <;> simp_all

end PrimaryFrame

/-- A message of the line, as the transceiver finds its end. -/
def Framed (p : LinkLayerParameters) (msg : List ℕ) : Prop :=
  ∀ rest, ReadNextMessage p (msg ++ rest) = (some msg, rest)

/-- Reading the octets behind the first one, where their number is known. -/
theorem taken {tail : List ℕ} {n : ℕ} (hlen : tail.length = n) (start : ℕ) (rest : List ℕ) :
    (if n ≤ (tail ++ rest).length then
        (some (start :: (tail ++ rest).take n), (tail ++ rest).drop n)
      else (none, [])) = (some (start :: tail), rest) := by
  subst hlen
  rw [if_pos (by rw [List.length_append]; exact Nat.le_add_right _ _), List.take_left,
    List.drop_left]

theorem framed_variable {c address : ℕ} {userData msg : List ℕ}
    (h : variableLengthFrame p c address userData = some msg) : Framed p msg := by
  intro rest
  have hmsg := (variableLengthFrame_eq_some h).2
  have hlen := length_variableLengthFrame h
  obtain ⟨tail, htail⟩ : ∃ tail, msg = 0x68 :: (body p c address userData).length :: tail :=
    ⟨_, hmsg⟩
  rw [htail, List.length_cons, Nat.succ_inj] at hlen
  rw [htail]
  exact taken hlen 0x68 rest

theorem framed_fixed (fc address : ℕ) (prm dir acd dfc : Bool) :
    Framed p (SendFixedFrame p fc address prm dir acd dfc) := by
  intro rest
  have hlen := length_SendFixedFrame (p := p) fc address prm dir acd dfc
  obtain ⟨tail, htail⟩ : ∃ tail, SendFixedFrame p fc address prm dir acd dfc = 0x10 :: tail :=
    ⟨_, rfl⟩
  rw [htail, List.length_cons, Nat.add_comm 4, Nat.succ_inj, Nat.add_comm] at hlen
  rw [htail]
  exact taken hlen 0x10 rest

theorem PrimaryFrame.framed {f : PrimaryFrame} {msg : List ℕ} (h : f.octets p dir = some msg) :
    Framed p msg := by
  unfold octets at h
  split at h
  · obtain rfl := Option.some.inj h
    exact framed_fixed _ _ _ _ _ _
  · exact framed_variable h

/-- A station on a line hears the frames that are for it, in their order and with all that they
say, whatever frames are sent to other stations between them. -/
theorem stations_hear {fs : List PrimaryFrame} {msgs : List (List ℕ)}
    (hsent : fs.mapM (PrimaryFrame.octets p dir) = some msgs)
    (haddress : ∀ f ∈ fs, f.address < 0x100 ^ p.addressLength) (rest : List ℕ) :
    (readMessages p fs.length (msgs.flatten ++ rest)).filterMap
        (fun msg => ParseHeaderSecondaryUnbalanced p ownAddress msg msg.length) =
      (fs.filter (PrimaryFrame.isFor p ownAddress)).map
        fun f => (f.header, isBroadcast p f.address) := by
  induction fs generalizing msgs with
  | nil =>
    obtain rfl := Option.some.inj hsent
    rfl
  | cons f fs ih =>
    obtain ⟨hf, hfs⟩ := List.forall_mem_cons.mp haddress
    rw [List.mapM_cons] at hsent
    obtain ⟨msg, hmsg, hsent⟩ := Option.bind_eq_some_iff.mp hsent
    obtain ⟨later, hlater, hsent⟩ := Option.bind_eq_some_iff.mp hsent
    obtain rfl := Option.some.inj hsent
    rw [List.flatten_cons, List.append_assoc, List.length_cons, readMessages,
      PrimaryFrame.framed hmsg]
    dsimp only
    rw [Option.toList_some, List.singleton_append, List.filterMap_cons,
      PrimaryFrame.heard_eq hmsg hf, List.filter_cons]
    cases PrimaryFrame.isFor p ownAddress f with
    | false => exact ih hlater hfs
    | true => exact congrArg ((f.header, isBroadcast p f.address) :: ·) (ih hlater hfs)

/-- Parameters of a line with addresses of one octet. -/
def sampleParameters : LinkLayerParameters where
  addressLength := 1
  timeoutForACK := 500
  timeoutRepeat := 1000
  useSingleCharACK := true
  timeoutLinkState := 5000
  addressLength_le := by decide

/-- A poll of station 1, a command to station 2 and a message to all. -/
def sampleFrames : List PrimaryFrame :=
  [{ fc := 11, address := 1, fcb := true, fcv := true, userData := none },
    { fc := 3, address := 2, fcb := true, fcv := true, userData := some [45, 1, 6, 0, 1] },
    { fc := 4, address := 255, fcb := false, fcv := false, userData := some [103, 1, 6] }]

theorem station_two_hears :
    ∃ msgs, sampleFrames.mapM (PrimaryFrame.octets sampleParameters false) = some msgs ∧
      (readMessages sampleParameters 3 (msgs.flatten ++ [])).filterMap
          (fun msg => ParseHeaderSecondaryUnbalanced sampleParameters 2 msg msg.length) =
        [({ fc := 3, fcb := true, fcv := true, address := 2, userData := [45, 1, 6, 0, 1] },
            false),
          ({ fc := 4, fcb := false, fcv := false, address := 255, userData := [103, 1, 6] },
            true)] := by
  have haddress : ∀ f ∈ sampleFrames, f.address < 0x100 ^ sampleParameters.addressLength := by
    decide
  exact ⟨_, rfl, stations_hear rfl haddress []⟩

end Stations

section Altered

variable {p : LinkLayerParameters} {msg msg' frame front octets : List ℕ} {n i b cs e : ℕ}

theorem sum_set {l : List ℕ} (hi : i < l.length) (b : ℕ) :
    (l.set i b).sum + octet l i = l.sum + b := by
  induction l generalizing i with
  | nil => cases hi
  | cons a l ih =>
    cases i with
    | zero =>
      have hfirst : octet (a :: l) 0 = a := rfl
      rw [hfirst, List.set_cons_zero, List.sum_cons, List.sum_cons]
      omega
    | succ i =>
      have hrest := ih (Nat.lt_of_succ_lt_succ hi)
      have hoctet : octet (a :: l) (i + 1) = octet l i := rfl
      rw [hoctet, List.set_cons_succ, List.sum_cons, List.sum_cons]
      omega

theorem octet_lt {l : List ℕ} (h : ∀ a ∈ l, a < 0x100) (i : ℕ) : octet l i < 0x100 := by
  unfold octet
  rw [List.getD_eq_getElem?_getD]
  cases hi : l[i]? with
  | none => exact Nat.zero_lt_succ _
  | some a => exact h a (List.mem_of_getElem? hi)

/-- One other octet gives another checksum. -/
theorem checksum_set (h : ∀ a ∈ octets, a < 0x100) (hi : i < octets.length) (hb : b < 0x100)
    (hne : b ≠ octet octets i) : checksum (octets.set i b) ≠ checksum octets := by
  have hsum := sum_set hi b
  have hold := octet_lt h i
  unfold checksum
  omega

/-- Both stations ignore the message. -/
def Refused (p : LinkLayerParameters) (msg : List ℕ) (n : ℕ) : Prop :=
  (∀ ownAddress, ParseHeaderSecondaryUnbalanced p ownAddress msg n = none) ∧
    HandleMessageBalancedAndPrimaryUnbalanced p msg n = none

/-- Both stations make the same of the two messages. -/
def Alike (p : LinkLayerParameters) (msg msg' : List ℕ) (n : ℕ) : Prop :=
  (∀ ownAddress, ParseHeaderSecondaryUnbalanced p ownAddress msg n =
      ParseHeaderSecondaryUnbalanced p ownAddress msg' n) ∧
    HandleMessageBalancedAndPrimaryUnbalanced p msg n =
      HandleMessageBalancedAndPrimaryUnbalanced p msg' n

theorem Laid.refused (h : Laid p msg n octets cs) (hcs : checksum octets ≠ cs) :
    Refused p msg n := by
  refine ⟨fun ownAddress => ?_, ?_⟩
  · rw [h.heard_eq, if_neg hcs]
  · rw [h.response_eq, if_neg fun hand => hcs hand.1]

theorem Laid.alike (h : Laid p msg n octets cs) (h' : Laid p msg' n octets cs) :
    Alike p msg msg' n := by
  refine ⟨fun ownAddress => ?_, ?_⟩
  · rw [h.heard_eq, h'.heard_eq]
  · rw [h.response_eq, h'.response_eq]

/-- The octets from the control octet on: the checksum tells every other octet, save the end
octet, which is not read. -/
theorem altered_behind (hlaid : ∀ octets' cs' e', octets'.length = octets.length →
      Laid p (front ++ (octets' ++ [cs', e'])) n octets' cs')
    (hoctets : ∀ a ∈ octets, a < 0x100) (hfront : front.length ≤ i)
    (hlt : i < front.length + (octets.length + 2)) (hb : b < 0x100)
    (hne : b ≠ octet (front ++ (octets ++ [checksum octets, e])) i) :
    if i = front.length + (octets.length + 1) then
      Alike p ((front ++ (octets ++ [checksum octets, e])).set i b)
        (front ++ (octets ++ [checksum octets, e])) n
    else Refused p ((front ++ (octets ++ [checksum octets, e])).set i b) n := by
  obtain ⟨j, rfl⟩ := Nat.exists_eq_add_of_le hfront
  rw [octet_append_right] at hne
  rw [List.set_append_right _ _ hfront, Nat.add_sub_cancel_left]
  rcases Nat.lt_trichotomy j octets.length with hj | rfl | hj
  · rw [octet_append_left hj] at hne
    rw [if_neg (by omega), List.set_append_left _ _ hj]
    refine (hlaid _ _ _ List.length_set).refused ?_
    exact checksum_set hoctets hj hb hne
  · have hcs : octet (octets ++ [checksum octets, e]) octets.length = checksum octets :=
      octet_append_right octets _ 0
    rw [hcs] at hne
    rw [if_neg (by omega), List.set_append_right _ _ (Nat.le_refl _), Nat.sub_self]
    exact (hlaid _ _ _ rfl).refused hne.symm
  · obtain rfl : j = octets.length + 1 := by omega
    rw [if_pos rfl, List.set_append_right _ _ (Nat.le_succ _), Nat.succ_sub (Nat.le_refl _),
      Nat.sub_self]
    exact (hlaid _ _ _ rfl).alike (hlaid _ _ _ rfl)

/-- A frame that a station sends, of either kind. -/
inductive Sent (p : LinkLayerParameters) : List ℕ → Prop
  | fixedLength (fc address : ℕ) (prm dir acd dfc : Bool) :
      Sent p (SendFixedFrame p fc address prm dir acd dfc)
  | variableLength {c address : ℕ} {userData frame : List ℕ} (hc : c < 0x100)
      (hdata : ∀ a ∈ userData, a < 0x100)
      (h : variableLengthFrame p c address userData = some frame) : Sent p frame

/-- The octets that no station reads: the end, and the second start of a frame of variable
length. -/
def Unread (frame : List ℕ) (i : ℕ) : Prop :=
  i + 1 = frame.length ∨ octet frame 0 = 0x68 ∧ i = 3

instance (frame : List ℕ) (i : ℕ) : Decidable (Unread frame i) := by
  unfold Unread
  infer_instance

theorem controlField_lt (fc : ℕ) (prm dir acd dfc : Bool) :
    controlField fc prm dir acd dfc < 0x100 := Nat.mod_lt _ (by decide)

theorem body_lt {c address : ℕ} {userData : List ℕ} (hc : c < 0x100)
    (hdata : ∀ a ∈ userData, a < 0x100) : ∀ a ∈ body p c address userData, a < 0x100 := by
  have hfield : ∀ a ∈ addressField p address, a < 0x100 := by
    intro a ha
    unfold addressField at ha
    split at ha <;> split at ha <;> simp at ha <;> omega
  intro a ha
  rcases List.mem_append.mp ha with ha | ha
  · rcases List.mem_cons.mp ha with rfl | ha
    · exact hc
    · exact hfield a ha
  · exact hdata a ha

/-- No station takes a frame of which one octet behind the first was altered on the line, save
the octets that none reads, which change nothing. -/
theorem altered_octet_refused (hsent : Sent p frame) (hi : 0 < i) (hlt : i < frame.length)
    (hb : b < 0x100) (hne : b ≠ octet frame i) :
    if Unread frame i then Alike p (frame.set i b) frame frame.length
    else Refused p (frame.set i b) frame.length := by
  cases hsent with
  | fixedLength fc address prm dir acd dfc =>
    have hlen := length_SendFixedFrame (p := p) fc address prm dir acd dfc
    have hbody := length_body p (controlField fc prm dir acd dfc) address []
    have hbound : ∀ a ∈ body p (controlField fc prm dir acd dfc) address [], a < 0x100 :=
      body_lt (controlField_lt fc prm dir acd dfc) fun a ha => absurd ha List.not_mem_nil
    rw [List.length_nil, Nat.add_zero] at hbody
    have hiff : Unread (SendFixedFrame p fc address prm dir acd dfc) i ↔
        i = 1 + ((body p (controlField fc prm dir acd dfc) address []).length + 1) := by
      have hstart : octet (SendFixedFrame p fc address prm dir acd dfc) 0 = 0x10 := rfl
      rw [Unread, hstart, hlen, hbody]
      omega
    rw [hlen] at hlt ⊢
    rw [SendFixedFrame_eq] at hne hiff ⊢
    simp only [hiff]
    refine altered_behind (fun octets' cs' e' hlen' => ?_) hbound hi ?_ hb hne
    · exact laid_fixed (hlen'.trans hbody) e' []
    · rw [hbody]
      change i < 1 + _
      omega
  | @variableLength c address userData _ hc hdata h =>
    have hlen := length_variableLengthFrame h
    have hbody := length_body p c address userData
    have hbound : ∀ a ∈ body p c address userData, a < 0x100 := body_lt hc hdata
    obtain ⟨-, hframe⟩ := variableLengthFrame_eq_some h
    set octets := body p c address userData with hoctets
    have hlong : 1 + p.addressLength ≤ octets.length := by omega
    have hlaid (x : ℕ) (octets' : List ℕ) (cs' e' : ℕ) (hlen' : octets'.length = octets.length) :
        Laid p ([0x68, octets.length, octets.length, x] ++ (octets' ++ [cs', e']))
          (octets.length + 6) octets' cs' := by
      rw [← hlen'] at hlong ⊢
      exact laid_variable hlong x e' []
    have hiff : Unread frame i ↔ i = 4 + (octets.length + 1) ∨ i = 3 := by
      have hstart : octet frame 0 = 0x68 := by
        rw [hframe]
        rfl
      rw [Unread, hstart, hlen]
      omega
    rw [hlen] at hlt ⊢
    subst hframe
    have hdiffer {m : List ℕ} (h0 : octet m 0 = 0x68) (h12 : octet m 1 ≠ octet m 2) (k : ℕ) :
        Refused p m k := by
      have hnone : layout p m k = none := by
        rw [layout, if_pos h0, if_pos h12]
      refine ⟨fun ownAddress => ?_, ?_⟩
      · rw [ParseHeaderSecondaryUnbalanced, hnone]
        rfl
      · rw [HandleMessageBalancedAndPrimaryUnbalanced, if_neg (by rw [h0]; decide), hnone]
        rfl
    simp only [hiff]
    rcases (by omega : i = 1 ∨ i = 2 ∨ i = 3 ∨ 4 ≤ i) with rfl | rfl | rfl | hfour
    · rw [if_neg (by omega)]
      exact hdiffer (m := [0x68, b, octets.length, 0x68] ++ _) rfl hne _
    · rw [if_neg (by omega)]
      exact hdiffer (m := [0x68, octets.length, b, 0x68] ++ _) rfl hne.symm _
    · rw [if_pos (.inr rfl)]
      exact (hlaid b octets _ _ rfl).alike (hlaid 0x68 octets _ _ rfl)
    · have hbehind := altered_behind (i := i) (b := b) (hlaid 0x68) hbound hfour
        (by change i < 4 + _; omega) hb hne
      by_cases hend : i = 4 + (octets.length + 1)
      · rw [if_pos (.inl hend)]
        rwa [if_pos (by exact hend)] at hbehind
      · rw [if_neg (by omega)]
        rwa [if_neg (by exact hend)] at hbehind

/-- A poll that reaches another station is taken by none. -/
theorem other_address_refused :
    Refused sampleParameters ((SendFixedFrame sampleParameters 11 1 true false true true).set 2 3)
      5 := by
  have h := altered_octet_refused (i := 2) (b := 3)
    (.fixedLength (p := sampleParameters) 11 1 true false true true) (by decide) (by decide)
    (by decide) (by decide)
  rwa [if_neg (by decide)] at h

end Altered

end JsonScada.Cs101
