/- path: JsonScada/I104M/Driver
   source: src/i104m/i104m.go
   digest: What the driver does with a datagram: the listener, the packets, their objects. -/

import JsonScada.Lib.Endian
import JsonScada.Lib.Golang
import JsonScada.Lib.Interchange
import JsonScada.Lib.DotNet
import JsonScada.Model.Documents

set_option autoImplicit false
set_option relaxedAutoImplicit false

namespace JsonScada.I104M.Driver

open JsonScada.Lib.Binary64 JsonScada.Lib.DotNet
open JsonScada.Lib.Endian (ofBytes)
open JsonScada.Lib.Golang (formatF)
open JsonScada.Model.Documents (Date)

section Slices

/-- `buf[i]`; `none` is a panic. -/
def index (buf : List UInt8) (i : ℕ) : Option UInt8 := buf[i]?

/-- `buf[i:]` -/
def slice (buf : List UInt8) (i : ℕ) : Option (List UInt8) :=
  if i ≤ buf.length then some (buf.drop i) else none

/-- The first `n` bytes as a number, the least significant one first. -/
def littleEndian (n : ℕ) (buf : List UInt8) : ℕ := ofBytes ((buf.take n).map UInt8.toNat)

/-- `binary.LittleEndian.Uint16` and `Uint32`, by their number of bytes. -/
def uint (n : ℕ) (buf : List UInt8) : Option ℕ :=
  if n ≤ buf.length then some (littleEndian n buf) else none

/-- A number of 32 bits. -/
def wrap32 (n : ℕ) : ℕ := n % 2 ^ 32

/-- The number in the two lowest bytes, with its sign. -/
def int16 (buf : List UInt8) : ℤ :=
  let u := littleEndian 2 buf
  if u < 2 ^ 15 then u else (u : ℤ) - 2 ^ 16

end Slices

section Parser

/-- What the driver takes from its surroundings. -/
structure Host where
  /-- `time.Date(year, month, day, hour, min, sec, 0, time.Local)`, in the zone of the machine. -/
  localTime : (year month day hour min sec : ℕ) → Date

/-- The object `sourceDataUpdate` of an update. -/
structure SourceData where
  valueAtSource : Number
  valueStringAtSource : String
  invalidAtSource : Bool
  notTopicalAtSource : Bool
  substitutedAtSource : Bool
  blockedAtSource : Bool
  overflowAtSource : Bool
  transientAtSource : Bool
  carryAtSource : Bool
  asduAtSource : String
  causeOfTransmissionAtSource : ℕ
  timeTag : Date
  timeTagAtSource : Option Date
  timeTagAtSourceOk : Bool
  deriving DecidableEq

/-- An update operation: the filter, and what is set. -/
structure Update where
  protocolSourceConnectionNumber : ℤ
  protocolSourceObjectAddress : ℕ
  sourceDataUpdate : SourceData
  deriving DecidableEq

/-- The value and the qualifiers read from an object. -/
structure Reading where
  value : Number
  flags : UInt8
  overflow : Bool := false
  transient : Bool := false

def hasBit (flags mask : UInt8) : Bool := flags &&& mask = mask

/-- Normalized and scaled values. -/
def analogTypes : List ℕ := [9, 11, 34, 35]

/-- Step positions. -/
def stepTypes : List ℕ := [5, 32]

def floatTypes : List ℕ := [13, 36]

def digitalTypes : List ℕ := [1, 2, 3, 4, 30, 31]

def doubleTypes : List ℕ := [3, 4, 31]

/-- The digital types for which a time is read. -/
def timeTypes : List ℕ := [2, 4, 30, 31]

/-- The reading of an object: `none` is a panic, `some none` a type without values. -/
def reading (buf : List UInt8) (iecAsdu : ℕ) : Option (Option Reading) :=
  if iecAsdu ∈ analogTypes then
    (index buf 2).map fun flags => some { value := .fin (int16 buf), flags := flags }
  else if iecAsdu ∈ stepTypes then
    (index buf 1).bind fun flags => (index buf 0).map fun vti => some {
      value := .fin (vti &&& 0x7F).toNat
      flags := flags
      transient := hasBit vti 0x80 }
  else if iecAsdu ∈ floatTypes then
    (index buf 4).map fun flags => some {
      value := binary32.decode (littleEndian 4 buf)
      flags := flags
      overflow := hasBit flags 0x01 }
  else if iecAsdu ∈ digitalTypes then
    (index buf 0).map fun flags =>
      if iecAsdu ∈ doubleTypes then some {
        value := .fin (if hasBit flags 0x02 then 1 else 0)
        flags := flags
        transient := flags &&& 0x03 = 0x00 || flags &&& 0x03 = 0x03 }
      else some {
        value := .fin (if hasBit flags 0x01 then 1 else 0)
        flags := flags }
  else some none

/-- The time of an object and whether it is good; `none` is a panic. -/
def sourceTime (host : Host) (buf : List UInt8) : Option (Date × Bool) :=
  (index buf 3).bind fun minute => (slice buf 1).bind fun rest => (uint 2 rest).bind fun msec =>
  (index buf 7).bind fun year => (index buf 6).bind fun month => (index buf 5).bind fun day =>
  (index buf 4).map fun hour =>
    (host.localTime (2000 + year.toNat) month.toNat day.toNat hour.toNat (minute &&& 0x3F).toNat
      (msec / 1000) + (msec % 1000 : ℕ), !hasBit minute 0x80)

/-- `i104mParseObj`: `none` is a panic, and `some none` stands for `false`. -/
def i104mParseObj (host : Host) (now : Date) (buf : List UInt8) (objAddr iecAsdu cause : ℕ)
    (connectionNumber : ℤ) : Option (Option Update) :=
  if iecAsdu ∈ [45, 46, 47] then some none
  else (reading buf iecAsdu).bind fun r =>
    (if iecAsdu ∈ timeTypes then (sourceTime host buf).map some else some none).map fun time =>
      r.map fun r => {
        protocolSourceConnectionNumber := connectionNumber
        protocolSourceObjectAddress := objAddr
        sourceDataUpdate := {
          valueAtSource := r.value
          valueStringAtSource := formatF r.value
          invalidAtSource := hasBit r.flags 0x80
          notTopicalAtSource := hasBit r.flags 0x40
          substitutedAtSource := hasBit r.flags 0x20
          blockedAtSource := hasBit r.flags 0x10
          overflowAtSource := r.overflow
          transientAtSource := r.transient
          carryAtSource := false
          asduAtSource := toString iecAsdu
          causeOfTransmissionAtSource := cause
          timeTag := now
          timeTagAtSource := time.map Prod.fst
          timeTagAtSourceOk := (time.map Prod.snd).getD false } }

end Parser

section Packets

variable (host : Host) (now : Date) (connectionNumber : ℤ)

/-- The size of an object in a sequence; `none` for a type that is not supported. -/
def incinfo (iecASDU : ℕ) : Option ℕ :=
  if iecASDU = 1 ∨ iecASDU = 3 then some (4 + 1)
  else if iecASDU = 2 ∨ iecASDU = 4 then some (4 + 1 + 3)
  else if iecASDU = 30 ∨ iecASDU = 31 then some (4 + 1 + 7)
  else if iecASDU = 5 then some (4 + 2)
  else if iecASDU = 32 then some (4 + 2 + 7)
  else if iecASDU = 9 ∨ iecASDU = 11 then some (4 + 3)
  else if iecASDU = 34 ∨ iecASDU = 35 then some (4 + 3 + 7)
  else if iecASDU = 13 then some (4 + 5)
  else if iecASDU = 36 then some (4 + 5 + 7)
  else if iecASDU = 15 then some (4 + 5)
  else none

/-- The object number `i` of a sequence: its address, and what is parsed of it. -/
def parseAt (buf : List UInt8) (iecASDU cause inc i : ℕ) : Option (Option Update) :=
  (slice buf (wrap32 (28 + wrap32 (i * inc)))).bind fun head =>
  (uint 4 head).bind fun objAddr =>
  (slice buf (wrap32 (32 + wrap32 (i * inc)))).bind fun body =>
    i104mParseObj host now body objAddr iecASDU cause connectionNumber

/-- The objects from number `i` on. -/
def parseObjects (buf : List UInt8) (iecASDU cause inc : ℕ) : ℕ → ℕ → Option (List Update)
  | 0, _ => some []
  | count + 1, i =>
    (parseAt host now connectionNumber buf iecASDU cause inc i).bind fun oper =>
      (parseObjects buf iecASDU cause inc count (i + 1)).map (oper.toList ++ ·)

/-- How an iteration of the main loop ends: it goes on after its updates, `main` returns,
`log.Fatal` ends the process, or it panics. -/
inductive Outcome where
  | next (updates : List Update)
  | returned
  | fatal
  | panicked
  deriving DecidableEq

/-- The updates are written; without a result of `BulkWrite` the process ends. -/
def bulkWrite (hasResult : Bool) (opers : List Update) : Outcome :=
  if opers = [] then .next []
  else if hasResult then .next opers
  else .fatal

/-- A packet with the signature of a sequence. -/
def handleSequence (hasResult : Bool) (buf : List UInt8) (numpoints iecASDU cause : ℕ) : Outcome :=
  match incinfo iecASDU with
  | none => .returned
  | some inc =>
    match parseObjects host now connectionNumber buf iecASDU cause inc numpoints 0 with
    | none => .panicked
    | some opers => bulkWrite hasResult opers

/-- A packet with the signature of a single object. -/
def handleSingle (hasResult : Bool) (buf : List UInt8) (objAddr iecASDU cause : ℕ) : Outcome :=
  match (slice buf 28).bind fun body =>
      i104mParseObj host now body objAddr iecASDU cause connectionNumber with
  | none => .panicked
  | some oper => bulkWrite hasResult oper.toList

/-- The word of the header at an offset. -/
def word (buf : List UInt8) (offset : ℕ) : Option ℕ := (slice buf offset).bind (uint 4)

/-- One iteration of the main loop, for a packet of the channel. -/
def handlePacket (hasResult : Bool) (buf : List UInt8) : Outcome :=
  if 4 < buf.length then
    match word buf 0, word buf 4, word buf 8, word buf 20, word buf 24 with
    | some signature, some second, some iecASDU, some cause, some _ =>
      if signature = 0x64646464 then
        handleSequence host now connectionNumber hasResult buf second iecASDU cause
      else if signature = 0x53535353 then
        handleSingle host now connectionNumber hasResult buf second iecASDU cause
      else .next []
    | some signature, _, _, _, _ =>
      if signature = 0x64646464 ∨ signature = 0x53535353 then .panicked else .next []
    | none, _, _, _, _ => .panicked
  else .next []

end Packets

section Listening

def bufferSize : ℕ := 2048

/-- What is in the buffer after a datagram was received into it. -/
def received (payload : List UInt8) : List UInt8 :=
  payload.take bufferSize ++ List.replicate (bufferSize - payload.length) 0

theorem length_received (payload : List UInt8) : (received payload).length = bufferSize := by
  rw [received, List.length_append, List.length_take, List.length_replicate]
  omega

def udpChannelSize : ℕ := 1000

/-- The last packet taken, and the packets on the channel. -/
structure Listener where
  prevBuf : List UInt8 := List.replicate bufferSize 0
  chanBuf : List (List UInt8) := []

/-- A datagram from an address that is allowed or not. -/
def listen (isActive allowed : Bool) (payload : List UInt8) (l : Listener) : Listener :=
  if allowed && decide (4 < payload.length) then
    if received payload = l.prevBuf then l
    else
      let l := { l with prevBuf := received payload }
      if isActive && decide (l.chanBuf.length < udpChannelSize) then
        { l with chanBuf := l.chanBuf ++ [received payload] }
      else l
  else l

/-- Only buffers datagrams were received into are on the channel. -/
theorem mem_chanBuf_listen {isActive allowed : Bool} {payload buf : List UInt8} {l : Listener}
    (h : buf ∈ (listen isActive allowed payload l).chanBuf) :
    buf ∈ l.chanBuf ∨ buf = received payload := by
  simp only [listen] at h
  split_ifs at h
  · exact .inl h
  · rcases List.mem_append.mp h with h | h
    · exact .inl h
    · exact .inr (List.mem_singleton.mp h)
  · exact .inl h
  · exact .inl h

end Listening

end JsonScada.I104M.Driver
