/- path: JsonScada/System/Datagram
   layer: system
   digest: Which datagrams the I104M driver handles without ending or leaving its buffer. -/

import JsonScada.I104M.Driver

set_option autoImplicit false
set_option relaxedAutoImplicit false

namespace JsonScada.System.Datagram

open JsonScada.Model.Documents (Date)
open JsonScada.I104M.Driver

/-- The bytes `i104mParseObj` reads of an object of a type. -/
def bytesRead (iecAsdu : ℕ) : ℕ :=
  if iecAsdu ∈ analogTypes then 3
  else if iecAsdu ∈ stepTypes then 2
  else if iecAsdu ∈ floatTypes then 5
  else if iecAsdu ∈ timeTypes then 8
  else if iecAsdu ∈ digitalTypes then 1
  else 0

/-- The types for which an update is made. -/
def updateTypes : List ℕ := analogTypes ++ stepTypes ++ floatTypes ++ digitalTypes

section Parsing

variable {host : Host} {now : Date} {buf : List UInt8} {objAddr iecAsdu cause : ℕ}
  {connectionNumber : ℤ}

theorem index_eq_none {i : ℕ} (h : buf.length ≤ i) : index buf i = none := by
  rw [index, List.getElem?_eq_none_iff]
  exact h

theorem exists_index {i : ℕ} (h : i < buf.length) : ∃ b, index buf i = some b :=
  ⟨buf[i], List.getElem?_eq_getElem h⟩

theorem sourceTime_eq_none (h : buf.length < 8) : sourceTime host buf = none := by
  rw [sourceTime]
  cases hminute : index buf 3 with
  | none => rfl
  | some minute =>
    cases hrest : slice buf 1 with
    | none => rfl
    | some rest =>
      cases hmsec : uint 2 rest with
      | none => simp [hmsec]
      | some msec => simp [index_eq_none (show buf.length ≤ 7 by omega)]

theorem exists_sourceTime (h : 8 ≤ buf.length) : ∃ t, sourceTime host buf = some t := by
  obtain ⟨minute, hminute⟩ := exists_index (show 3 < buf.length by omega)
  obtain ⟨year, hyear⟩ := exists_index (show 7 < buf.length by omega)
  obtain ⟨month, hmonth⟩ := exists_index (show 6 < buf.length by omega)
  obtain ⟨day, hday⟩ := exists_index (show 5 < buf.length by omega)
  obtain ⟨hour, hhour⟩ := exists_index (show 4 < buf.length by omega)
  have hrest : slice buf 1 = some (buf.drop 1) := if_pos (by omega)
  have hmsec : uint 2 (buf.drop 1) = some (littleEndian 2 (buf.drop 1)) :=
    if_pos (by rw [List.length_drop]; omega)
  rw [sourceTime, hminute, hrest, hyear, hmonth, hday, hhour]
  simp only [Option.bind_some, hmsec, Option.map_some]
  exact ⟨_, rfl⟩

/-- The bytes `reading` needs. -/
def bytesOfReading (iecAsdu : ℕ) : ℕ :=
  if iecAsdu ∈ analogTypes then 3
  else if iecAsdu ∈ stepTypes then 2
  else if iecAsdu ∈ floatTypes then 5
  else if iecAsdu ∈ digitalTypes then 1
  else 0

theorem reading_eq_none (h : buf.length < bytesOfReading iecAsdu) : reading buf iecAsdu = none := by
  rw [bytesOfReading] at h
  rw [reading]
  by_cases hanalog : iecAsdu ∈ analogTypes
  · rw [if_pos hanalog] at h ⊢
    rw [index_eq_none (by omega)]
    rfl
  rw [if_neg hanalog] at h ⊢
  by_cases hstep : iecAsdu ∈ stepTypes
  · rw [if_pos hstep] at h ⊢
    rw [index_eq_none (show buf.length ≤ 1 by omega)]
    rfl
  rw [if_neg hstep] at h ⊢
  by_cases hfloat : iecAsdu ∈ floatTypes
  · rw [if_pos hfloat] at h ⊢
    rw [index_eq_none (by omega)]
    rfl
  rw [if_neg hfloat] at h ⊢
  by_cases hdigital : iecAsdu ∈ digitalTypes
  · rw [if_pos hdigital] at h ⊢
    rw [index_eq_none (by omega)]
    rfl
  · rw [if_neg hdigital] at h
    omega

theorem exists_reading (h : bytesOfReading iecAsdu ≤ buf.length) :
    ∃ r, reading buf iecAsdu = some r ∧ (r.isSome ↔ iecAsdu ∈ updateTypes) := by
  rw [bytesOfReading] at h
  rw [reading]
  simp only [updateTypes, List.mem_append]
  split_ifs at h ⊢ with hanalog hstep hfloat hdigital hdouble
  · obtain ⟨flags, hflags⟩ := exists_index (show 2 < buf.length by omega)
    rw [hflags]
    exact ⟨_, rfl, by simp [hanalog]⟩
  · obtain ⟨flags, hflags⟩ := exists_index (show 1 < buf.length by omega)
    obtain ⟨vti, hvti⟩ := exists_index (show 0 < buf.length by omega)
    rw [hflags, hvti]
    exact ⟨_, rfl, by simp [hstep]⟩
  · obtain ⟨flags, hflags⟩ := exists_index (show 4 < buf.length by omega)
    rw [hflags]
    exact ⟨_, rfl, by simp [hfloat]⟩
  · obtain ⟨flags, hflags⟩ := exists_index (show 0 < buf.length by omega)
    rw [hflags]
    exact ⟨_, rfl, by simp [hdigital]⟩
  · obtain ⟨flags, hflags⟩ := exists_index (show 0 < buf.length by omega)
    rw [hflags]
    exact ⟨_, rfl, by simp [hdigital]⟩
  · exact ⟨none, rfl, by simp [hanalog, hstep, hfloat, hdigital]⟩

theorem bytesRead_eq (iecAsdu : ℕ) : bytesRead iecAsdu =
    if iecAsdu ∈ timeTypes then 8 else bytesOfReading iecAsdu := by
  by_cases htime : iecAsdu ∈ timeTypes
  · rw [if_pos htime, bytesRead]
    simp only [timeTypes, List.mem_cons, List.not_mem_nil, or_false] at htime
    rcases htime with rfl | rfl | rfl | rfl <;> rfl
  · rw [if_neg htime, bytesRead, bytesOfReading, if_neg htime]

theorem bytesOfReading_le (iecAsdu : ℕ) : bytesOfReading iecAsdu ≤ bytesRead iecAsdu := by
  rw [bytesRead_eq, bytesOfReading]
  split_ifs <;> omega

/-- An object that does not hold what is read of it ends the iteration with a panic. -/
theorem parse_eq_none (h : buf.length < bytesRead iecAsdu) :
    i104mParseObj host now buf objAddr iecAsdu cause connectionNumber = none := by
  have hother : iecAsdu ∉ [45, 46, 47] := by
    intro hmem
    have hzero : ∀ type ∈ [45, 46, 47], bytesRead type = 0 := by decide
    rw [hzero _ hmem] at h
    exact absurd h (Nat.not_lt_zero _)
  rw [i104mParseObj, if_neg hother]
  rw [bytesRead_eq] at h
  by_cases htime : iecAsdu ∈ timeTypes
  · rw [if_pos htime] at h
    rw [if_pos htime, sourceTime_eq_none h]
    cases reading buf iecAsdu <;> rfl
  · rw [if_neg htime] at h
    rw [reading_eq_none h]
    rfl

/-- An object that holds it gives an update of its address, or none for other types. -/
theorem exists_parse (h : bytesRead iecAsdu ≤ buf.length) :
    ∃ r, i104mParseObj host now buf objAddr iecAsdu cause connectionNumber = some r ∧
      (r.isSome ↔ iecAsdu ∈ updateTypes) ∧ ∀ u ∈ r, u.protocolSourceObjectAddress = objAddr := by
  rw [i104mParseObj]
  split_ifs with hack htime
  · refine ⟨none, rfl, ?_, fun u hu => (by cases hu)⟩
    simp only [List.mem_cons, List.not_mem_nil, or_false] at hack
    rcases hack with rfl | rfl | rfl <;> decide
  · obtain ⟨r, hr, hsome⟩ := exists_reading ((bytesOfReading_le iecAsdu).trans h)
    have height : 8 ≤ buf.length := by rwa [bytesRead_eq, if_pos htime] at h
    obtain ⟨time, ht⟩ := @exists_sourceTime host buf height
    rw [hr, ht]
    refine ⟨_, rfl, by simpa using hsome, fun u hu => ?_⟩
    obtain ⟨x, -, rfl⟩ := Option.map_eq_some_iff.mp hu
    rfl
  · obtain ⟨r, hr, hsome⟩ := exists_reading ((bytesOfReading_le iecAsdu).trans h)
    rw [hr]
    refine ⟨_, rfl, by simpa using hsome, fun u hu => ?_⟩
    obtain ⟨x, -, rfl⟩ := Option.map_eq_some_iff.mp hu
    rfl

end Parsing

section Objects

variable {host : Host} {now : Date} {buf : List UInt8} {iecASDU cause inc : ℕ}
  {connectionNumber : ℤ}

/-- The number of objects of a type of which the buffer holds all that is read. -/
def capacity (iecASDU inc : ℕ) : ℕ := (bufferSize - 32 - bytesRead iecASDU) / inc + 1

theorem bytesRead_le (iecASDU : ℕ) : bytesRead iecASDU ≤ 8 := by
  rw [bytesRead]
  split_ifs <;> omega

/-- One branch of a chain of conditions is taken, or a later one. -/
theorem of_ite_eq_some {c : Prop} [Decidable c] {a x : ℕ} {rest : Option ℕ}
    (h : (if c then some a else rest) = some x) : x = a ∨ rest = some x := by
  by_cases hc : c
  · rw [if_pos hc] at h
    exact .inl (Option.some.inj h).symm
  · rw [if_neg hc] at h
    exact .inr h

theorem incinfo_bounds (h : incinfo iecASDU = some inc) : 0 < inc ∧ inc ≤ 16 := by
  rw [incinfo] at h
  repeat
    rcases of_ite_eq_some h with rfl | h
    · omega
  cases h

theorem lt_capacity_iff (h : incinfo iecASDU = some inc) (i : ℕ) :
    i < capacity iecASDU inc ↔ 32 + i * inc + bytesRead iecASDU ≤ bufferSize := by
  have hread := bytesRead_le iecASDU
  rw [capacity, Nat.lt_succ_iff, Nat.le_div_iff_mul_le (incinfo_bounds h).1, bufferSize]
  omega

/-- The address of an object. -/
def addressAt (buf : List UInt8) (inc i : ℕ) : ℕ := littleEndian 4 (buf.drop (28 + i * inc))

/-- Objects that begin in the buffer are far from the wrap of the index. -/
theorem wrap_index {i offset : ℕ} (hoffset : offset ≤ 32) (hi : i * inc ≤ 2 ^ 20) :
    wrap32 (offset + wrap32 (i * inc)) = offset + i * inc := by
  simp only [wrap32]
  omega

/-- An object whose address is in the buffer is parsed from what follows it. -/
theorem parseAt_eq {i : ℕ} (hbuf : buf.length = bufferSize)
    (hin : 32 + i * inc ≤ bufferSize) :
    parseAt host now connectionNumber buf iecASDU cause inc i =
      i104mParseObj host now (buf.drop (32 + i * inc)) (addressAt buf inc i) iecASDU cause
        connectionNumber := by
  rw [bufferSize] at hin hbuf
  have hsmall : i * inc ≤ 2 ^ 20 := by omega
  have hhead : slice buf (28 + i * inc) = some (buf.drop (28 + i * inc)) := if_pos (by omega)
  have haddr : uint 4 (buf.drop (28 + i * inc)) = some (addressAt buf inc i) :=
    if_pos (by rw [List.length_drop]; omega)
  have hbody : slice buf (32 + i * inc) = some (buf.drop (32 + i * inc)) := if_pos (by omega)
  rw [parseAt, wrap_index (by omega) hsmall, wrap_index (by omega) hsmall, hhead, Option.bind_some,
    haddr, Option.bind_some, hbody, Option.bind_some]

theorem exists_parseAt (hbuf : buf.length = bufferSize) (h : incinfo iecASDU = some inc) {i : ℕ}
    (hi : i < capacity iecASDU inc) :
    ∃ r, parseAt host now connectionNumber buf iecASDU cause inc i = some r ∧
      (r.isSome ↔ iecASDU ∈ updateTypes) ∧
      ∀ u ∈ r, u.protocolSourceObjectAddress = addressAt buf inc i := by
  have hfits := (lt_capacity_iff h i).mp hi
  rw [parseAt_eq hbuf (by omega)]
  exact exists_parse (by rw [List.length_drop]; omega)

/-- The first object the buffer does not hold panics. -/
theorem parseAt_capacity (hbuf : buf.length = bufferSize) (h : incinfo iecASDU = some inc) :
    parseAt host now connectionNumber buf iecASDU cause inc (capacity iecASDU inc) = none := by
  have hout := (lt_capacity_iff h (capacity iecASDU inc)).not.mp (lt_irrefl _)
  have hprev := (lt_capacity_iff h (capacity iecASDU inc - 1)).mp
    (Nat.sub_lt (Nat.succ_pos _) one_pos)
  have hbounds := incinfo_bounds h
  have hread := bytesRead_le iecASDU
  have hone : capacity iecASDU inc * inc = (capacity iecASDU inc - 1) * inc + inc := by
    rw [capacity, Nat.add_sub_cancel, Nat.succ_mul]
  rw [bufferSize] at hout hprev hbuf
  have hsmall : capacity iecASDU inc * inc ≤ 2 ^ 20 := by omega
  rw [parseAt, wrap_index (by omega) hsmall, wrap_index (by omega) hsmall]
  cases hhead : slice buf (28 + capacity iecASDU inc * inc) with
  | none => rfl
  | some head =>
    rw [Option.bind_some]
    cases haddr : uint 4 head with
    | none => rfl
    | some objAddr =>
      rw [Option.bind_some]
      cases hbody : slice buf (32 + capacity iecASDU inc * inc) with
      | none => rfl
      | some body =>
        rw [Option.bind_some]
        rw [slice] at hbody
        split_ifs at hbody
        obtain rfl := Option.some.inj hbody
        exact parse_eq_none (by rw [List.length_drop]; omega)

/-- As many objects as the buffer holds are parsed, each to an update of its address. -/
theorem exists_parseObjects (hbuf : buf.length = bufferSize) (h : incinfo iecASDU = some inc)
    {count i : ℕ} (hcount : i + count ≤ capacity iecASDU inc) :
    ∃ us, parseObjects host now connectionNumber buf iecASDU cause inc count i = some us ∧
      (us ≠ [] ↔ 0 < count ∧ iecASDU ∈ updateTypes) ∧
      ∀ u ∈ us, ∃ j < i + count, u.protocolSourceObjectAddress = addressAt buf inc j := by
  induction count generalizing i with
  | zero => exact ⟨[], rfl, by simp, fun u hu => (by cases hu)⟩
  | succ count ih =>
    obtain ⟨r, hr, hsome, haddr⟩ :=
      @exists_parseAt host now buf iecASDU cause inc connectionNumber hbuf h i (by omega)
    obtain ⟨us, hus, hempty, hall⟩ := ih (i := i + 1) (by omega)
    refine ⟨r.toList ++ us, ?_, ?_, fun u hu => ?_⟩
    · rw [parseObjects, hr, Option.bind_some, hus]
      rfl
    · cases r with
      | none =>
        have hnot : iecASDU ∉ updateTypes := fun hmem => by simpa using hsome.mpr hmem
        simpa [hnot] using hempty
      | some u => simpa using hsome.mp rfl
    · rcases List.mem_append.mp hu with hu | hu
      · exact ⟨i, by omega, haddr u (Option.mem_toList.mp hu)⟩
      · obtain ⟨j, hj, hja⟩ := hall u hu
        exact ⟨j, by omega, hja⟩

/-- More objects end the loop with a panic. -/
theorem parseObjects_eq_none (hbuf : buf.length = bufferSize) (h : incinfo iecASDU = some inc)
    {count i : ℕ} (hi : i ≤ capacity iecASDU inc) (hcount : capacity iecASDU inc < i + count) :
    parseObjects host now connectionNumber buf iecASDU cause inc count i = none := by
  induction count generalizing i with
  | zero => omega
  | succ count ih =>
    rw [parseObjects]
    rcases hi.lt_or_eq with hlt | rfl
    · obtain ⟨r, hr, -, -⟩ :=
        @exists_parseAt host now buf iecASDU cause inc connectionNumber hbuf h i hlt
      rw [hr, Option.bind_some, ih (i := i + 1) (by omega) (by omega)]
      rfl
    · rw [parseAt_capacity hbuf h]
      rfl

end Objects

section Packets

variable (host : Host) (now : Date) (connectionNumber : ℤ) {buf : List UInt8}

def sequenceSignature : ℕ := 0x64646464

def singleSignature : ℕ := 0x53535353

/-- The word at an offset of the header. -/
def field (buf : List UInt8) (offset : ℕ) : ℕ := littleEndian 4 (buf.drop offset)

/-- The update is of an object that lies in the buffer with all bytes that are read of it. -/
def Complete (buf : List UInt8) (u : Update) : Prop :=
  (field buf 0 = sequenceSignature ∧ ∃ inc ∈ incinfo (field buf 8), ∃ i < field buf 4,
    28 + (i + 1) * inc ≤ buf.length ∧ 32 + i * inc + bytesRead (field buf 8) ≤ buf.length ∧
    u.protocolSourceObjectAddress = addressAt buf inc i) ∨
  (field buf 0 = singleSignature ∧ 28 + bytesRead (field buf 8) ≤ buf.length ∧
    u.protocolSourceObjectAddress = field buf 4)

/-- The packet has objects that are written to the database. -/
def Writes (buf : List UInt8) : Prop :=
  field buf 8 ∈ updateTypes ∧ (field buf 0 = singleSignature ∨
    field buf 0 = sequenceSignature ∧ 0 < field buf 4)

/-- The condition for a packet to be handled: a sequence has a supported type and no more
objects than the buffer holds, and the database gives a result for what is written. -/
structure Fits (hasResult : Bool) (buf : List UInt8) : Prop where
  objects : field buf 0 = sequenceSignature →
    ∃ inc ∈ incinfo (field buf 8), field buf 4 ≤ capacity (field buf 8) inc
  stored : Writes buf → hasResult = true

theorem word_eq (hbuf : buf.length = bufferSize) {offset : ℕ} (ho : offset ≤ 24) :
    word buf offset = some (field buf offset) := by
  rw [bufferSize] at hbuf
  have hslice : slice buf offset = some (buf.drop offset) := if_pos (by omega)
  rw [word, hslice, Option.bind_some]
  exact if_pos (by rw [List.length_drop]; omega)

theorem handlePacket_eq (hbuf : buf.length = bufferSize) (hasResult : Bool) :
    handlePacket host now connectionNumber hasResult buf =
      if field buf 0 = sequenceSignature then
        handleSequence host now connectionNumber hasResult buf (field buf 4) (field buf 8)
          (field buf 20)
      else if field buf 0 = singleSignature then
        handleSingle host now connectionNumber hasResult buf (field buf 4) (field buf 8)
          (field buf 20)
      else .next [] := by
  have hlong : 4 < buf.length := by
    rw [hbuf, bufferSize]
    omega
  rw [handlePacket, if_pos hlong, word_eq hbuf (by omega), word_eq hbuf (by omega),
    word_eq hbuf (by omega), word_eq hbuf (by omega), word_eq hbuf (by omega)]
  rfl

theorem bulkWrite_eq_next_iff {hasResult : Bool} {opers us : List Update} :
    bulkWrite hasResult opers = .next us ↔ us = opers ∧ (opers ≠ [] → hasResult = true) := by
  rw [bulkWrite]
  split_ifs with hempty hresult
  · subst hempty
    simp [eq_comm]
  · simp [hresult, eq_comm]
  · simp [hempty, hresult]

end Packets

section Handling

variable (host : Host) (now : Date) (connectionNumber : ℤ) {buf : List UInt8} {iecASDU inc : ℕ}

/-- The lengths of the objects with updates, with the bytes read of them. -/
theorem sizes_of_updateTypes : ∀ type ∈ updateTypes, (incinfo type, bytesRead type) ∈
    [(some 7, 3), (some 14, 3), (some 6, 2), (some 13, 2), (some 9, 5), (some 16, 5),
      (some 5, 1), (some 8, 8), (some 12, 8)] := by
  decide

/-- An object of a type with updates lies in the buffer when the bytes read of it do. -/
theorem object_le_of_lt_capacity (h : incinfo iecASDU = some inc) (hupdate : iecASDU ∈ updateTypes)
    {i : ℕ} (hi : i < capacity iecASDU inc) : 28 + (i + 1) * inc ≤ bufferSize := by
  have hfits := (lt_capacity_iff h i).mp hi
  have hsizes := sizes_of_updateTypes iecASDU hupdate
  rw [h] at hsizes
  rw [bufferSize] at hfits ⊢
  simp only [List.mem_cons, Prod.mk.injEq, Option.some_inj, List.not_mem_nil, or_false] at hsizes
  rcases hsizes with ⟨rfl, hr⟩ | ⟨rfl, hr⟩ | ⟨rfl, hr⟩ | ⟨rfl, hr⟩ | ⟨rfl, hr⟩ | ⟨rfl, hr⟩ |
    ⟨rfl, hr⟩ | ⟨rfl, hr⟩ | ⟨rfl, hr⟩ <;>
  · rw [hr] at hfits
    omega

/-- A sequence is handled when its objects are in the buffer and the database gives a result. -/
theorem handleSequence_iff (hbuf : buf.length = bufferSize) (hasResult : Bool)
    (hsignature : field buf 0 = sequenceSignature) :
    (∃ us, handleSequence host now connectionNumber hasResult buf (field buf 4) (field buf 8)
        (field buf 20) = .next us ∧ ∀ u ∈ us, Complete buf u) ↔ Fits hasResult buf := by
  have hsingle : sequenceSignature ≠ singleSignature := by decide
  rw [handleSequence]
  cases hinc : incinfo (field buf 8) with
  | none =>
    refine ⟨fun ⟨us, hus, _⟩ => (by cases hus), fun hfits => ?_⟩
    obtain ⟨inc, hinc', -⟩ := hfits.objects hsignature
    rw [hinc] at hinc'
    cases hinc'
  | some inc =>
    by_cases hcount : field buf 4 ≤ capacity (field buf 8) inc
    · obtain ⟨us, hus, hne, haddr⟩ :=
        @exists_parseObjects host now buf (field buf 8) (field buf 20) inc connectionNumber hbuf
          hinc (field buf 4) 0 (by omega)
      have hwrites : Writes buf ↔ us ≠ [] := by
        rw [hne, Writes]
        simp [hsignature, hsingle, and_comm]
      have hcomplete : ∀ u ∈ us, Complete buf u := by
        intro u hu
        obtain ⟨i, hi, hui⟩ := haddr u hu
        have hpos := hne.mp (List.ne_nil_of_mem hu)
        have hlt : i < capacity (field buf 8) inc := by omega
        refine .inl ⟨hsignature, inc, hinc, i, by omega, ?_, ?_, hui⟩
        · rw [hbuf]
          exact object_le_of_lt_capacity hinc hpos.2 hlt
        · rw [hbuf]
          exact (lt_capacity_iff hinc i).mp hlt
      simp only [hus, bulkWrite_eq_next_iff]
      constructor
      · rintro ⟨us', ⟨rfl, hresult⟩, -⟩
        exact ⟨fun _ => ⟨inc, hinc, hcount⟩, fun hw => hresult (hwrites.mp hw)⟩
      · intro hfits
        exact ⟨us, ⟨rfl, fun h => hfits.stored (hwrites.mpr h)⟩, hcomplete⟩
    · have hnone := @parseObjects_eq_none host now buf (field buf 8) (field buf 20) inc
        connectionNumber hbuf hinc (field buf 4) 0 (Nat.zero_le _) (by omega)
      simp only [hnone]
      refine ⟨fun ⟨us, hus, _⟩ => (by cases hus), fun hfits => ?_⟩
      obtain ⟨inc', hinc', hle⟩ := hfits.objects hsignature
      rw [hinc] at hinc'
      obtain rfl := Option.some.inj hinc'
      exact absurd hle hcount

/-- A packet of a single object is handled when the database gives a result. -/
theorem handleSingle_iff (hbuf : buf.length = bufferSize) (hasResult : Bool)
    (hsignature : field buf 0 = singleSignature) :
    (∃ us, handleSingle host now connectionNumber hasResult buf (field buf 4) (field buf 8)
        (field buf 20) = .next us ∧ ∀ u ∈ us, Complete buf u) ↔ Fits hasResult buf := by
  have hsequence : field buf 0 ≠ sequenceSignature := by
    rw [hsignature]
    decide
  have hread := bytesRead_le (field buf 8)
  have hslice : slice buf 28 = some (buf.drop 28) := if_pos (by rw [hbuf, bufferSize]; omega)
  obtain ⟨r, hr, hsome, haddr⟩ :=
    @exists_parse host now (buf.drop 28) (field buf 4) (field buf 8) (field buf 20)
      connectionNumber (by rw [List.length_drop, hbuf, bufferSize]; omega)
  have hwrites : Writes buf ↔ r.toList ≠ [] := by
    rw [Writes, ← hsome]
    cases r <;> simp [hsignature]
  have hcomplete : ∀ u ∈ r.toList, Complete buf u := by
    intro u hu
    refine .inr ⟨hsignature, ?_, haddr u (Option.mem_toList.mp hu)⟩
    rw [hbuf, bufferSize]
    omega
  rw [handleSingle, hslice, Option.bind_some, hr]
  simp only [bulkWrite_eq_next_iff]
  constructor
  · rintro ⟨us, ⟨rfl, hresult⟩, -⟩
    exact ⟨fun h => absurd h hsequence, fun hw => hresult (hwrites.mp hw)⟩
  · intro hfits
    exact ⟨_, ⟨rfl, fun h => hfits.stored (hwrites.mpr h)⟩, hcomplete⟩

/-- Every datagram received is handled, with updates of objects in the buffer alone, exactly when
its sequence has a supported type and fits, and what is written gets a result. -/
theorem handled_iff (hasResult : Bool) (payload : List UInt8) :
    (∃ us, handlePacket host now connectionNumber hasResult (received payload) = .next us ∧
      ∀ u ∈ us, Complete (received payload) u) ↔ Fits hasResult (received payload) := by
  have hbuf := length_received payload
  rw [handlePacket_eq host now connectionNumber hbuf]
  by_cases hsequence : field (received payload) 0 = sequenceSignature
  · rw [if_pos hsequence]
    exact handleSequence_iff host now connectionNumber hbuf hasResult hsequence
  rw [if_neg hsequence]
  by_cases hsingle : field (received payload) 0 = singleSignature
  · rw [if_pos hsingle]
    exact handleSingle_iff host now connectionNumber hbuf hasResult hsingle
  rw [if_neg hsingle]
  refine ⟨fun _ => ⟨fun h => absurd h hsequence, fun hw => ?_⟩,
    fun _ => ⟨[], rfl, fun u hu => (by cases hu)⟩⟩
  rcases hw.2 with h | h
  · exact absurd h hsingle
  · exact absurd h.1 hsequence

/-- A datagram of one object of type 100, in a sequence. -/
def unsupported : List UInt8 := [0x64, 0x64, 0x64, 0x64, 1, 0, 0, 0, 100, 0, 0, 0]

/-- The datagram with an unsupported type ends the driver. -/
theorem unsupported_returned : ¬ ∀ (host : Host) (now : Date) (connectionNumber : ℤ)
    (hasResult : Bool) (payload : List UInt8), 4 < payload.length →
      ∃ us, handlePacket host now connectionNumber hasResult (received payload) = .next us := by
  intro h
  obtain ⟨us, hus⟩ := h ⟨fun _ _ _ _ _ _ => 0⟩ 0 1 true unsupported (by decide)
  have hsequence : field (received unsupported) 0 = sequenceSignature := by rfl
  have htype : field (received unsupported) 8 = 100 := by rfl
  rw [handlePacket_eq _ _ _ (length_received _), if_pos hsequence, handleSequence, htype] at hus
  cases hus

end Handling

end JsonScada.System.Datagram
