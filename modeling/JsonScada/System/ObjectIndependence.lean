/- path: JsonScada/System/ObjectIndependence
   source: src/i104m/i104m.go, incinfo, the object loop and i104mParseObj
   digest: For which types an object of a sequence is parsed from its own bytes alone. -/

import JsonScada.System.Datagram

set_option autoImplicit false
set_option relaxedAutoImplicit false

namespace JsonScada.System.ObjectIndependence

open JsonScada.Model.Documents (Date)
open JsonScada.I104M.Driver JsonScada.System.Datagram

def headerSize : ℕ := 28

/-- The bytes of an object: its address and what the stride leaves to it. -/
def own (buf : List UInt8) (inc i : ℕ) : List UInt8 := (buf.drop (headerSize + i * inc)).take inc

/-- The address of the object number `i` of a packet and what is parsed of it, with the type and
the cause of the header. -/
def objectAt (host : Host) (now : Date) (connectionNumber : ℤ) (buf : List UInt8) (inc i : ℕ) :
    ℕ × Option (Option Update) :=
  (addressAt buf inc i,
    parseAt host now connectionNumber buf (field buf 8) (field buf 20) inc i)

/-- Two packets with one header and one object alike parse it alike, whatever is beside it. -/
def Independent (iecASDU : ℕ) : Prop :=
  ∀ (host : Host) (now : Date) (connectionNumber : ℤ) (buf buf' : List UInt8) (inc i : ℕ),
    buf.length = bufferSize → buf'.length = bufferSize →
    buf.take headerSize = buf'.take headerSize → field buf 8 = iecASDU →
    incinfo iecASDU = some inc → i < field buf 4 → headerSize + field buf 4 * inc ≤ bufferSize →
    own buf inc i = own buf' inc i →
    objectAt host now connectionNumber buf inc i = objectAt host now connectionNumber buf' inc i

section Prefix

variable {host : Host} {now : Date} {buf : List UInt8} {objAddr iecAsdu cause n : ℕ}
  {connectionNumber : ℤ}

theorem index_take {i : ℕ} (h : i < n) : index (buf.take n) i = index buf i :=
  List.getElem?_take_of_lt h

theorem littleEndian_take {k : ℕ} (h : k ≤ n) :
    littleEndian k (buf.take n) = littleEndian k buf := by
  rw [littleEndian, littleEndian, List.take_take, Nat.min_eq_left h]

theorem int16_take (h : 2 ≤ n) : int16 (buf.take n) = int16 buf := by
  simp only [int16, littleEndian_take h]

/-- The reading is made of the first bytes. -/
theorem reading_take (h : bytesOfReading iecAsdu ≤ n) :
    reading (buf.take n) iecAsdu = reading buf iecAsdu := by
  rw [bytesOfReading] at h
  rw [reading, reading]
  split_ifs at h ⊢
  · rw [index_take (by omega), int16_take (by omega)]
  · rw [index_take (by omega), index_take (by omega)]
  · rw [index_take (by omega), littleEndian_take (by omega)]
  · rw [index_take (by omega)]
  · rw [index_take (by omega)]
  · rfl

/-- The time takes the first eight bytes. -/
theorem sourceTime_take (h : 8 ≤ n) : sourceTime host (buf.take n) = sourceTime host buf := by
  by_cases hshort : buf.length < 8
  · rw [List.take_of_length_le (by omega)]
  · have hlong : 8 ≤ (buf.take n).length := by
      rw [List.length_take]
      omega
    have hslice : slice (buf.take n) 1 = some ((buf.take n).drop 1) := if_pos (by omega)
    have hslice' : slice buf 1 = some (buf.drop 1) := if_pos (by omega)
    have hmsec : uint 2 ((buf.take n).drop 1) = uint 2 (buf.drop 1) := by
      rw [uint, uint, if_pos (by rw [List.length_drop]; omega),
        if_pos (by rw [List.length_drop]; omega), List.drop_take, littleEndian_take (by omega)]
    rw [sourceTime, sourceTime, hslice, hslice', index_take (by omega), index_take (by omega),
      index_take (by omega), index_take (by omega), index_take (by omega)]
    simp only [Option.bind_some, hmsec]

/-- An object is parsed from as many bytes as its type reads. -/
theorem parse_take (h : bytesRead iecAsdu ≤ n) :
    i104mParseObj host now (buf.take n) objAddr iecAsdu cause connectionNumber =
      i104mParseObj host now buf objAddr iecAsdu cause connectionNumber := by
  have hreading := (bytesOfReading_le iecAsdu).trans h
  rw [i104mParseObj, i104mParseObj, reading_take hreading]
  by_cases htime : iecAsdu ∈ timeTypes
  · have height : 8 ≤ n := by rwa [bytesRead_eq, if_pos htime] at h
    rw [sourceTime_take height]
  · rw [if_neg htime, if_neg htime]

end Prefix

section Objects

variable {host : Host} {now : Date} {connectionNumber : ℤ} {buf : List UInt8}
  {iecASDU cause inc i : ℕ}

/-- The stride holds what is read of an object, except for the types with a short time. -/
theorem bytesRead_le_stride (h : incinfo iecASDU = some inc) (hshort : iecASDU ∉ [2, 4]) :
    4 + bytesRead iecASDU ≤ inc := by
  have hall : ∀ type ∈ [1, 3, 30, 31, 5, 32, 9, 11, 34, 35, 13, 36, 15],
      ∀ stride ∈ incinfo type, 4 + bytesRead type ≤ stride := by decide
  refine hall iecASDU ?_ inc h
  by_contra hnot
  simp only [List.mem_cons, List.not_mem_nil, or_false, not_or] at hnot hshort
  rw [incinfo] at h
  simp [hnot, hshort] at h

theorem addressAt_own (h : 4 ≤ inc) : addressAt buf inc i = littleEndian 4 (own buf inc i) := by
  rw [own, littleEndian_take h]
  rfl

/-- An object whose bytes are all in the buffer is parsed from them, where the stride holds
what is read. -/
theorem parseAt_own (hbuf : buf.length = bufferSize)
    (hin : headerSize + (i + 1) * inc ≤ bufferSize) (hstride : 4 + bytesRead iecASDU ≤ inc) :
    parseAt host now connectionNumber buf iecASDU cause inc i =
      i104mParseObj host now ((own buf inc i).drop 4) (littleEndian 4 (own buf inc i)) iecASDU cause
        connectionNumber := by
  have hdrop : (own buf inc i).drop 4 = (buf.drop (32 + i * inc)).take (inc - 4) := by
    rw [own, List.drop_take, List.drop_drop, headerSize]
    congr 2
    omega
  have hsucc : (i + 1) * inc = i * inc + inc := Nat.succ_mul i inc
  rw [headerSize] at hin
  rw [parseAt_eq hbuf (by omega), addressAt_own (by omega), hdrop, parse_take (by omega)]

/-- Two packets with one header have the same words in it. -/
theorem field_eq {buf buf' : List UInt8} (h : buf.take headerSize = buf'.take headerSize)
    {offset : ℕ} (ho : offset ≤ 24) : field buf offset = field buf' offset := by
  have hword : ∀ b : List UInt8,
      field b offset = littleEndian 4 ((b.take headerSize).drop offset) := by
    intro b
    rw [List.drop_take, littleEndian_take (by rw [headerSize]; omega)]
    rfl
  rw [hword, hword, h]

theorem independent_of_stride (hshort : iecASDU ∉ [2, 4]) : Independent iecASDU := by
  intro host now connectionNumber buf buf' inc i hbuf hbuf' hheader htype hinc hi hin hown
  have hstride := bytesRead_le_stride hinc hshort
  have hlast : headerSize + (i + 1) * inc ≤ bufferSize :=
    (Nat.add_le_add_left (Nat.mul_le_mul_right inc hi) headerSize).trans hin
  have htype' : field buf' 8 = iecASDU := (field_eq hheader (by omega)).symm.trans htype
  rw [objectAt, objectAt, htype, htype', ← field_eq hheader (show 20 ≤ 24 by omega),
    parseAt_own hbuf hlast hstride, parseAt_own hbuf' hlast hstride, addressAt_own (by omega),
    addressAt_own (by omega), hown]

end Objects

section Example

/-- The hours of a clock that counts them from midnight. -/
def hours : Host := ⟨fun _ _ _ hour _ _ => hour⟩

/-- Two single points with a short time: the second begins with the address `addr`. -/
def shortTimes (type addr : UInt8) : List UInt8 :=
  [0x64, 0x64, 0x64, 0x64, 2, 0, 0, 0, type, 0, 0, 0] ++ List.replicate 16 0 ++
    [1, 0, 0, 0, 1, 0, 0, 0] ++ [addr, 0, 0, 0, 1, 0, 0, 0]

def timeOf (o : ℕ × Option (Option Update)) : Option Date :=
  (o.2.getD none).bind fun u => u.sourceDataUpdate.timeTagAtSource

variable {type : UInt8}

theorem headers_shortTimes (htype : type = 2 ∨ type = 4) (addr addr' : UInt8) :
    (received (shortTimes type addr)).take headerSize =
      (received (shortTimes type addr')).take headerSize := by
  rcases htype with rfl | rfl
  · rfl
  · rfl

theorem own_shortTimes (htype : type = 2 ∨ type = 4) (addr addr' : UInt8) :
    own (received (shortTimes type addr)) 8 0 = own (received (shortTimes type addr')) 8 0 := by
  rcases htype with rfl | rfl
  · rfl
  · rfl

theorem timeOf_shortTimes (htype : type = 2 ∨ type = 4) (addr : UInt8) :
    timeOf (objectAt hours 0 1 (received (shortTimes type addr)) 8 0) = some (addr.toNat : ℤ) := by
  have hbody : ((received (shortTimes type addr)).drop 32).take 8 =
      [1, 0, 0, 0, addr, 0, 0, 0] := rfl
  have htypeId : field (received (shortTimes type addr)) 8 = type.toNat := by
    rcases htype with rfl | rfl
    · rfl
    · rfl
  have hread : bytesRead type.toNat ≤ 8 := by
    rcases htype with rfl | rfl
    · decide
    · decide
  rw [objectAt, htypeId, parseAt_eq (length_received _) (by decide),
    ← parse_take hread, Nat.zero_mul, hbody]
  rcases htype with rfl | rfl
  · rfl
  · rfl

/-- The hour of the first point is the lowest byte of the address of the second. -/
theorem not_independent_short (htype : type = 2 ∨ type = 4) :
    ¬ Independent type.toNat := by
  intro h
  have hsame : objectAt hours 0 1 (received (shortTimes type 5)) 8 0 =
      objectAt hours 0 1 (received (shortTimes type 6)) 8 0 := by
    refine h hours 0 1 _ _ 8 0 (length_received _) (length_received _)
      (headers_shortTimes htype 5 6) ?_ ?_ ?_ ?_ (own_shortTimes htype 5 6)
    · rcases htype with rfl | rfl <;> rfl
    · rcases htype with rfl | rfl <;> rfl
    · rcases htype with rfl | rfl <;> decide
    · rcases htype with rfl | rfl <;> decide
  have htimes := congrArg timeOf hsame
  rw [timeOf_shortTimes htype, timeOf_shortTimes htype] at htimes
  exact absurd htimes (by decide)

end Example

/-- The objects of a type are parsed independently exactly when it has no short time. -/
theorem independent_iff (iecASDU : ℕ) : Independent iecASDU ↔ iecASDU ∉ [2, 4] := by
  refine ⟨fun h hmem => ?_, independent_of_stride⟩
  simp only [List.mem_cons, List.not_mem_nil, or_false] at hmem
  rcases hmem with rfl | rfl
  · exact @not_independent_short 2 (Or.inl rfl) h
  · exact @not_independent_short 4 (Or.inr rfl) h

/-- Two packets that differ beside the first object alone give it different hours. -/
theorem hour_of_neighbour :
    (received (shortTimes 2 5)).take headerSize = (received (shortTimes 2 6)).take headerSize ∧
      own (received (shortTimes 2 5)) 8 0 = own (received (shortTimes 2 6)) 8 0 ∧
      timeOf (objectAt hours 0 1 (received (shortTimes 2 5)) 8 0) = some 5 ∧
      timeOf (objectAt hours 0 1 (received (shortTimes 2 6)) 8 0) = some 6 ∧
      ¬ Independent 2 :=
  ⟨headers_shortTimes (Or.inl rfl) 5 6, own_shortTimes (Or.inl rfl) 5 6,
    timeOf_shortTimes (Or.inl rfl) 5, timeOf_shortTimes (Or.inl rfl) 6,
    @not_independent_short 2 (Or.inl rfl)⟩

end JsonScada.System.ObjectIndependence
