/- path: JsonScada/Plc4xClient/Values
   source: src/plc4x-client/plc4x-client.go, iterateCommandsChangeStream and extractValue
   digest: The value written to a PLC for a command, and the number read from a PLC value. -/

import JsonScada.Lib.DotNet
import JsonScada.Lib.EcmaScript
import JsonScada.Lib.Endian
import JsonScada.Lib.Interchange
import Mathlib.Data.List.Infix

set_option autoImplicit false
set_option relaxedAutoImplicit false

namespace JsonScada.Plc4xClient.Values

open JsonScada.Lib.Binary64 JsonScada.Lib.DotNet JsonScada.Lib.Endian
open JsonScada.Lib.EcmaScript (truncate)

/-- The numeric types of PLC values. -/
inductive PlcType where
  | BYTE
  | USINT
  | SINT
  | UINT
  | WORD
  | INT
  | UDINT
  | DWORD
  | DINT
  | ULINT
  | LWORD
  | LINT
  | REAL
  | LREAL
  deriving DecidableEq

namespace PlcType

/-- The width in bytes. -/
def size : PlcType → ℕ
  | BYTE | USINT | SINT => 1
  | UINT | WORD | INT => 2
  | UDINT | DWORD | DINT | REAL => 4
  | ULINT | LWORD | LINT | LREAL => 8

def signed : PlcType → Bool
  | SINT | INT | DINT | LINT => true
  | _ => false

def format : PlcType → Option Format
  | REAL => some binary32
  | LREAL => some binary64
  | _ => none

end PlcType

/-- A value of the Go language: an integer of a number of bytes, or the pattern of a float. -/
inductive GoValue where
  | bool (b : Bool)
  | uint (size : ℕ) (x : ℕ)
  | int (size : ℕ) (x : ℤ)
  | float32 (bits : ℕ)
  | float64 (bits : ℕ)
  | string (s : String)
  | nil
  deriving DecidableEq

/-- The machine the driver runs on. What becomes of a double outside the range of an integer
type is left to the machine by the language. -/
structure Host where
  order : ByteOrder
  toUint : ℕ → Number → ℕ
  toInt : ℕ → Number → ℤ
  toUint_lt : ∀ n x, toUint n x < 256 ^ n
  toUint_exact : ∀ n q, 0 ≤ truncate q → truncate q < 256 ^ n →
    toUint n (.fin q) = (truncate q).toNat
  toInt_exact : ∀ n q, -(256 ^ n / 2) ≤ truncate q → truncate q < 256 ^ n / 2 →
    toInt n (.fin q) = truncate q

/-- The signed integer with the bits of an unsigned one. -/
def wrap (n u : ℕ) : ℤ := if 2 * u < 256 ^ n then u else u - 256 ^ n

/-- The bits of an integer. -/
def bitsOf (n : ℕ) (z : ℤ) : ℕ := (z % 256 ^ n).toNat

/-- What a Go value of the kind of the type is stored as. -/
def native (T : PlcType) : GoValue → Option ℕ
  | .uint n x => if T.signed = false ∧ T.format = none ∧ n = T.size then some x else none
  | .int n x => if T.signed = true ∧ n = T.size then some (bitsOf n x) else none
  | .float32 b => if T = .REAL then some b else none
  | .float64 b => if T = .LREAL then some b else none
  | _ => none

/-- The PLC4X library: the bits stored for a Go value, where it takes the value for the type,
and `GetUint32` and `GetUint64` of the bits of a float. -/
structure Plc4x where
  store : PlcType → GoValue → Option ℕ
  getUint : ℕ → ℕ → ℕ
  getUint_lt : ∀ n b, getUint n b < 256 ^ n
  store_native : ∀ T g b, native T g = some b → store T g = some b

/-- The branches of the switch on the type of an address, in their order. -/
inductive Branch where
  | BOOL
  | BYTE
  | SINT
  | SUINT
  | UINT
  | INT
  | UDINT
  | DINT
  | ULINT
  | LINT
  | REAL
  | LREAL
  | STRING
  | Struct
  | unknown
  deriving DecidableEq

/-- `strings.Contains(addr, sep + name)` -/
def hasType (sep addr name : String) : Bool := decide ((sep ++ name).toList <:+: addr.toList)

/-- The branch of an address in upper case. -/
def branch (sep addr : String) : Branch :=
  if hasType sep addr "BOOL" then .BOOL
  else if hasType sep addr "BYTE" then .BYTE
  else if hasType sep addr "SINT" then .SINT
  else if hasType sep addr "SUINT" then .SUINT
  else if hasType sep addr "UINT" || hasType sep addr "WORD" then .UINT
  else if hasType sep addr "INT" then .INT
  else if hasType sep addr "UDINT" then .UDINT
  else if hasType sep addr "DINT" then .DINT
  else if hasType sep addr "ULINT" || hasType sep addr "LWORD" then .ULINT
  else if hasType sep addr "LINT" then .LINT
  else if hasType sep addr "REAL" then .REAL
  else if hasType sep addr "LREAL" then .LREAL
  else if hasType sep addr "STRING" || hasType sep addr "CHAR" || hasType sep addr "WCHAR" then
    .STRING
  else if hasType sep addr "Struct" || hasType sep addr "List" ||
      hasType sep addr "RAW_BYTE_ARRAY" then .Struct
  else .unknown

section Write

variable (host : Host) (e : String)

/-- The bytes put in the order of the host and read in the configured one; `none` where no
endianness is configured. -/
def reordered (n u : ℕ) : Option ℕ :=
  if e = "LITTLE_ENDIAN" then some (reread n host.order .little u)
  else if e = "BIG_ENDIAN" then some (reread n host.order .big u)
  else if e = "REV_ENDIAN" then some (reread n .little .big u)
  else none

/-- 16 bits without a sign have no case for `REV_ENDIAN`. -/
def reordered16 (u : ℕ) : Option ℕ :=
  if e = "LITTLE_ENDIAN" then some (reread 2 host.order .little u)
  else if e = "BIG_ENDIAN" then some (reread 2 host.order .big u)
  else none

/-- With 64 bits, `REV_ENDIAN` reads the first four bytes only. -/
def reordered64 (u : ℕ) : Option ℕ :=
  if e = "LITTLE_ENDIAN" then some (reread 8 host.order .little u)
  else if e = "BIG_ENDIAN" then some (reread 8 host.order .big u)
  else if e = "REV_ENDIAN" then some (get .big ((put .little 8 u).take 4))
  else none

/-- `math.Float32bits(float32(value))` -/
def float32bits (value : Number) : ℕ := binary32.encode (toSingle value)

def float64bits (value : Number) : ℕ := binary64.encode value

/-- The value given to the write request for a command. -/
def write (b : Branch) (value : Number) (valueString : String) : GoValue :=
  match b with
  | .BOOL => .bool (!value.eqv (.fin 0))
  | .BYTE => .uint 1 (host.toUint 1 value)
  | .SINT => .int 1 (host.toInt 1 value)
  | .SUINT => .uint 1 (host.toUint 1 value)
  | .UINT => .uint 2 ((reordered16 host e (host.toUint 2 value)).getD (host.toUint 2 value))
  | .INT =>
    .int 2 (((reordered host e 2 (host.toUint 2 value)).map (wrap 2)).getD (host.toInt 2 value))
  | .UDINT => .uint 4 ((reordered host e 4 (host.toUint 4 value)).getD (host.toUint 4 value))
  | .DINT =>
    .int 4 (((reordered host e 4 (host.toUint 4 value)).map (wrap 4)).getD (host.toInt 4 value))
  | .ULINT => .uint 8 ((reordered64 host e (host.toUint 8 value)).getD (host.toUint 8 value))
  | .LINT =>
    .int 8 (((reordered64 host e (host.toUint 8 value)).map (wrap 8)).getD (host.toInt 8 value))
  | .REAL => .float32 ((reordered host e 4 (float32bits value)).getD (float32bits value))
  | .LREAL => .float64 ((reordered host e 8 (float64bits value)).getD (float64bits value))
  | .STRING => .string valueString
  | .Struct => .nil
  | .unknown => .float64 (float64bits value)

end Write

section Read

variable (host : Host) (lib : Plc4x) (e : String)

/-- `float64(n)` -/
def float64 (n : ℤ) : Number := round binary64 n

/-- 16 bits without a sign, as `extractValue` reads them. -/
def read16 (b : ℕ) : ℕ :=
  if e = "LITTLE_ENDIAN" then reread 2 host.order .little b
  else if e = "BIG_ENDIAN" then reread 2 host.order .big b
  else if e = "REV_ENDIAN" then reread 2 .big .little b
  else b

/-- The other types turn the bytes for `LITTLE_ENDIAN` only, and on every host. -/
def readBits (n b : ℕ) : ℕ := if e = "LITTLE_ENDIAN" then reread n .big .little b else b

/-- The bits of a float go through `GetUint32` or `GetUint64` there. -/
def readFloat (n b : ℕ) : ℕ :=
  if e = "LITTLE_ENDIAN" then reread n .big .little (lib.getUint n b) else b

/-- `valDbl` of `extractValue`, for the bits of a numeric PLC value. -/
def extractValue (T : PlcType) (b : ℕ) : Number :=
  match T with
  | .BYTE => float64 b
  | .USINT => float64 b
  | .SINT => float64 (wrap 1 b)
  | .UINT | .WORD => float64 (read16 host e b)
  | .INT => float64 (wrap 2 (readBits e 2 b))
  | .DINT => float64 (wrap 4 (readBits e 4 b))
  | .UDINT | .DWORD => float64 (readBits e 4 b)
  | .LINT => float64 (wrap 8 (readBits e 8 b))
  | .ULINT | .LWORD => float64 (readBits e 8 b)
  | .REAL => binary32.decode (readFloat lib e 4 b)
  | .LREAL => binary64.decode (readFloat lib e 8 b)

end Read

end JsonScada.Plc4xClient.Values
