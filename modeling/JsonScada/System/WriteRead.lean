/- path: JsonScada/System/WriteRead
   source: src/plc4x-client/plc4x-client.go
   digest: A value written to a PLC for a command, and read back from it. -/

import JsonScada.Plc4xClient.Values

set_option autoImplicit false
set_option relaxedAutoImplicit false

namespace JsonScada.System.WriteRead

open JsonScada.Lib.Binary64 JsonScada.Lib.Binary64.Format JsonScada.Lib.DotNet
open JsonScada.Lib.Endian
open JsonScada.Lib.EcmaScript (truncate truncate_intCast)
open JsonScada.Plc4xClient.Values

/-- The name of a type in an address. -/
def name : PlcType → String
  | .BYTE => "BYTE"
  | .USINT => "USINT"
  | .SINT => "SINT"
  | .UINT => "UINT"
  | .WORD => "WORD"
  | .INT => "INT"
  | .UDINT => "UDINT"
  | .DWORD => "DWORD"
  | .DINT => "DINT"
  | .ULINT => "ULINT"
  | .LWORD => "LWORD"
  | .LINT => "LINT"
  | .REAL => "REAL"
  | .LREAL => "LREAL"

/-- The names an address can have after a separator. -/
def names : List String :=
  ["BOOL", "BYTE", "USINT", "SINT", "SUINT", "UINT", "WORD", "INT", "UDINT", "DWORD", "DINT",
    "ULINT", "LWORD", "LINT", "REAL", "LREAL", "STRING", "CHAR", "WCHAR", "Struct", "List",
    "RAW_BYTE_ARRAY"]

/-- The address has the name of the type after a separator, and no other name. -/
def Names (sep addr : String) (T : PlcType) : Prop :=
  ∀ n ∈ names, hasType sep addr n = decide (n = name T)

instance (sep addr : String) (T : PlcType) : Decidable (Names sep addr T) := by
  unfold Names
  infer_instance

/-- The branch of the writer for a type: there is none for `USINT`, which is spelt `SUINT`
there, and none for `DWORD`. -/
def branchOf : PlcType → Branch
  | .BYTE => .BYTE
  | .SINT => .SINT
  | .UINT | .WORD => .UINT
  | .INT => .INT
  | .UDINT => .UDINT
  | .DINT => .DINT
  | .ULINT | .LWORD => .ULINT
  | .LINT => .LINT
  | .REAL => .REAL
  | .LREAL => .LREAL
  | .USINT | .DWORD => .unknown

theorem branch_eq {sep addr : String} {T : PlcType} (h : Names sep addr T) :
    branch sep addr = branchOf T := by
  simp only [Names, names, List.forall_mem_cons] at h
  obtain ⟨hBOOL, hBYTE, -, hSINT, hSUINT, hUINT, hWORD, hINT, hUDINT, -, hDINT, hULINT, hLWORD,
    hLINT, hREAL, hLREAL, hSTRING, hCHAR, hWCHAR, hStruct, hList, hRAW, -⟩ := h
  unfold branch
  rw [hBOOL, hBYTE, hSINT, hSUINT, hUINT, hWORD, hINT, hUDINT, hDINT, hULINT, hLWORD, hLINT,
    hREAL, hLREAL, hSTRING, hCHAR, hWCHAR, hStruct, hList, hRAW]
  cases T <;> decide

/-- The numbers of a type that a double holds. -/
def Representable (T : PlcType) (x : Number) : Prop :=
  binary64.Holds x ∧
    match T.format with
    | some f => f.Holds x
    | none => ∃ z : ℤ, x = .fin z ∧
        if T.signed then -(256 ^ T.size / 2) ≤ z ∧ z < 256 ^ T.size / 2
        else 0 ≤ z ∧ z < 256 ^ T.size

/-- The number the bits of a type stand for. -/
def number (T : PlcType) (b : ℕ) : Number :=
  match T.format with
  | some f => f.decode b
  | none => float64 (if T.signed then wrap T.size b else b)

/-- The value goes to the PLC and comes back. -/
def RoundTrip (host : Host) (lib : Plc4x) (sep addr e : String) (T : PlcType) (x : Number)
    (valueString : String) : Prop :=
  ∃ b, lib.store T (write host e (branch sep addr) x valueString) = some b ∧
    extractValue host lib e T b = x

section Condition

variable (host : Host) (lib : Plc4x) (e : String)

/-- 16 bits without a sign have a case for an endianness less in the writer, and cases of their
own in the reader. -/
def word : PlcType → Bool
  | .UINT | .WORD => true
  | _ => false

/-- The endianness sends an integer of the type through unsigned bits. -/
def named (T : PlcType) : Bool :=
  e = "LITTLE_ENDIAN" || e = "BIG_ENDIAN" || (e = "REV_ENDIAN" && !word T)

/-- The writer turns the bytes. -/
def writeReverses (T : PlcType) : Bool :=
  if e = "LITTLE_ENDIAN" then host.order ≠ .little
  else if e = "BIG_ENDIAN" then host.order ≠ .big
  else e = "REV_ENDIAN" && !word T

/-- The reader turns the bytes. -/
def readReverses (T : PlcType) : Bool :=
  if word T then
    if e = "LITTLE_ENDIAN" then host.order ≠ .little
    else if e = "BIG_ENDIAN" then host.order ≠ .big
    else e = "REV_ENDIAN"
  else e = "LITTLE_ENDIAN"

/-- Bytes turned or left as they are. -/
def turned (b : Bool) (n u : ℕ) : ℕ := if b then reverseBytes n u else u

/-- The bits of a number of a type, as the host converts it. -/
def pattern (T : PlcType) (x : Number) : ℕ :=
  match T.format with
  | some f => f.encode x
  | none =>
    if T.signed && !named e T then bitsOf T.size (host.toInt T.size x)
    else host.toUint T.size x

/-- What has to hold of a type for which the writer has a branch: the bytes are turned as often
on the way in as on the way out, and a negative number survives the conversion to unsigned
bits; else the number has to be the same with its bytes turned. -/
def KeptTurned (T : PlcType) (x : Number) : Prop :=
  if writeReverses host e T = readReverses host e T then
    T.signed = true → named e T = true → number T (host.toUint T.size x) = x
  else number T (reverseBytes T.size (pattern host e T x)) = x

/-- When a number of a type comes back. -/
def Kept (T : PlcType) (x : Number) : Prop :=
  match T with
  | .BYTE | .SINT => True
  | .USINT => ∃ b, lib.store .USINT (.float64 (float64bits x)) = some b ∧ number .USINT b = x
  | .DWORD => ∃ b, lib.store .DWORD (.float64 (float64bits x)) = some b ∧
      number .DWORD (turned (e = "LITTLE_ENDIAN") 4 b) = x
  | .REAL | .LREAL =>
    if e = "LITTLE_ENDIAN" then
      number T (reverseBytes T.size
        (lib.getUint T.size (turned (host.order ≠ .little) T.size (pattern host e T x)))) = x
    else KeptTurned host e T x
  | .ULINT | .LWORD | .LINT =>
    if e = "REV_ENDIAN" then number T (reverseBytes 4 (host.toUint 8 x)) = x
    else KeptTurned host e T x
  | T => KeptTurned host e T x

end Condition

theorem reread_turned {n x : ℕ} (o o' : ByteOrder) (h : x < 256 ^ n) :
    reread n o o' x = turned (o ≠ o') n x := by
  rw [reread_eq o o' h]
  unfold turned
  by_cases heq : o = o'
  · simp [heq]
  · simp [heq]

/-- The bits of an integer are read as the integer. -/
theorem wrap_bitsOf {n : ℕ} {z : ℤ} (hn : 0 < n) (hlow : -(256 ^ n / 2) ≤ z)
    (hhigh : z < 256 ^ n / 2) : wrap n (bitsOf n z) = z := by
  obtain ⟨m, rfl⟩ : ∃ m, n = m + 1 := ⟨n - 1, by omega⟩
  have heven : ((256 : ℤ) ^ (m + 1)) = 2 * (128 * 256 ^ m) := by ring
  have hcast : (((256 : ℕ) ^ (m + 1) : ℕ) : ℤ) = 256 ^ (m + 1) := by push_cast; rfl
  have hpos : (0 : ℤ) < 128 * 256 ^ m := by positivity
  unfold wrap bitsOf
  rw [heven] at hlow hhigh hcast ⊢
  generalize (128 : ℤ) * 256 ^ m = c at *
  generalize (256 : ℕ) ^ (m + 1) = d at *
  have hmod : z % (2 * c) = if 0 ≤ z then z else z + 2 * c := by
    split_ifs with hz
    · exact Int.emod_eq_of_lt hz (by omega)
    · rw [← Int.add_emod_right, Int.emod_eq_of_lt (by omega) (by omega)]
  rw [hmod]
  split_ifs <;> omega

theorem bitsOf_wrap {n u : ℕ} (h : u < 256 ^ n) : bitsOf n (wrap n u) = u := by
  have hcast : (((256 : ℕ) ^ n : ℕ) : ℤ) = 256 ^ n := by push_cast; rfl
  unfold wrap bitsOf
  rw [← hcast]
  split_ifs
  · rw [Int.emod_eq_of_lt (by omega) (by omega)]
    omega
  · rw [← Int.add_emod_right, Int.emod_eq_of_lt (by omega) (by omega)]
    omega

theorem turned_lt {n u : ℕ} (b : Bool) (h : u < 256 ^ n) : turned b n u < 256 ^ n := by
  cases b with
  | false => exact h
  | true => exact reverseBytes_lt n u

theorem turned_turned {n u : ℕ} (b c : Bool) (h : u < 256 ^ n) :
    turned c n (turned b n u) = if b = c then u else reverseBytes n u := by
  cases b <;> cases c
  · rfl
  · rfl
  · rfl
  · exact reverseBytes_reverseBytes h

section Write

variable {host : Host} {e : String} {T : PlcType} {u : ℕ}

theorem writeReverses_of_not_named (h : named e T = false) :
    writeReverses host e T = false := by
  simp only [named, Bool.or_eq_false_iff, decide_eq_false_iff_not] at h
  unfold writeReverses
  rw [if_neg h.1.1, if_neg h.1.2, h.2]

/-- The bytes of the writer, for the types with all the cases. -/
theorem reordered_eq (hT : word T = false) (n : ℕ) (hu : u < 256 ^ n) :
    reordered host e n u =
      if named e T then some (turned (writeReverses host e T) n u) else none := by
  unfold reordered named writeReverses
  rw [hT]
  by_cases hlittle : e = "LITTLE_ENDIAN"
  · simp [hlittle, reread_turned _ _ hu]
  · by_cases hbig : e = "BIG_ENDIAN"
    · simp [hbig, reread_turned _ _ hu]
    · by_cases hrev : e = "REV_ENDIAN"
      · simp [hrev, reread_turned _ _ hu]
      · simp [hlittle, hbig, hrev]

theorem reordered16_eq (hT : word T = true) (hu : u < 256 ^ 2) :
    reordered16 host e u =
      if named e T then some (turned (writeReverses host e T) 2 u) else none := by
  unfold reordered16 named writeReverses
  rw [hT]
  by_cases hlittle : e = "LITTLE_ENDIAN"
  · simp [hlittle, reread_turned _ _ hu]
  · by_cases hbig : e = "BIG_ENDIAN"
    · simp [hbig, reread_turned _ _ hu]
    · simp [hlittle, hbig]

theorem reordered64_eq (hT : word T = false) (hrev : e ≠ "REV_ENDIAN") (hu : u < 256 ^ 8) :
    reordered64 host e u =
      if named e T then some (turned (writeReverses host e T) 8 u) else none := by
  rw [← reordered_eq hT 8 hu]
  unfold reordered64 reordered
  rw [if_neg hrev, if_neg hrev]

theorem bitsOf_lt (n : ℕ) (z : ℤ) : bitsOf n z < 256 ^ n := by
  have hpos : (0 : ℤ) < 256 ^ n := by positivity
  have hlt := Int.emod_lt_of_pos z hpos
  have hcast : (((256 : ℕ) ^ n : ℕ) : ℤ) = 256 ^ n := by push_cast; rfl
  unfold bitsOf
  omega

/-- The patterns of the two float types. -/
theorem regular32 : binary32.Regular := ⟨by decide, by decide⟩

theorem regular64 : binary64.Regular := ⟨by decide, by decide⟩

theorem pattern_lt {x : Number} (hx : Representable T x) : pattern host e T x < 256 ^ T.size := by
  have hformat := hx.2
  cases hf : T.format with
  | none =>
    unfold pattern
    rw [hf]
    show (if T.signed && !named e T then _ else _) < _
    split_ifs
    · exact bitsOf_lt _ _
    · exact host.toUint_lt _ _
  | some f =>
    rw [hf] at hformat
    have hcases : (T = .REAL ∧ f = binary32) ∨ (T = .LREAL ∧ f = binary64) := by
      cases T <;> simp [PlcType.format] at hf <;> simp [hf]
    unfold pattern
    rw [hf]
    rcases hcases with ⟨rfl, rfl⟩ | ⟨rfl, rfl⟩
    · exact encode_lt regular32 hformat
    · exact encode_lt regular64 hformat

/-- What is written for an integer without a sign. -/
theorem getD_turned (n u : ℕ) :
    (if named e T then some (turned (writeReverses host e T) n u) else none).getD u =
      turned (writeReverses host e T) n u := by
  cases hnamed : named e T with
  | true => rfl
  | false =>
    rw [writeReverses_of_not_named hnamed]
    rfl

/-- What is written for an integer with a sign, as bits. -/
theorem bitsOf_getD_turned (hT : T.format = none) (hsigned : T.signed = true) (x : Number) :
    bitsOf T.size (((if named e T then
        some (turned (writeReverses host e T) T.size (host.toUint T.size x)) else none).map
          (wrap T.size)).getD (host.toInt T.size x)) =
      turned (writeReverses host e T) T.size (pattern host e T x) := by
  unfold pattern
  rw [hT, hsigned]
  cases hnamed : named e T with
  | true => exact bitsOf_wrap (turned_lt _ (host.toUint_lt _ _))
  | false =>
    rw [writeReverses_of_not_named hnamed]
    rfl

/-- A type with a branch of its own is stored with the bytes turned as the endianness says. -/
theorem store_write (lib : Plc4x) {x : Number} (s : String) (hx : Representable T x)
    (hsize : 1 < T.size) (hbranch : T ≠ .DWORD)
    (hrev : T.size = 8 → T.format = none → e ≠ "REV_ENDIAN") :
    lib.store T (write host e (branchOf T) x s) =
      some (turned (writeReverses host e T) T.size (pattern host e T x)) := by
  apply lib.store_native
  cases T with
  | BYTE | USINT | SINT => exact absurd hsize (by decide)
  | DWORD => exact absurd rfl hbranch
  | UINT =>
    show some ((reordered16 host e (host.toUint 2 x)).getD (host.toUint 2 x)) = _
    rw [@reordered16_eq _ _ .UINT _ rfl (host.toUint_lt 2 x), getD_turned]
    rfl
  | WORD =>
    show some ((reordered16 host e (host.toUint 2 x)).getD (host.toUint 2 x)) = _
    rw [@reordered16_eq _ _ .WORD _ rfl (host.toUint_lt 2 x), getD_turned]
    rfl
  | UDINT =>
    show some ((reordered host e 4 (host.toUint 4 x)).getD (host.toUint 4 x)) = _
    rw [@reordered_eq _ _ .UDINT _ rfl 4 (host.toUint_lt 4 x), getD_turned]
    rfl
  | ULINT =>
    show some ((reordered64 host e (host.toUint 8 x)).getD (host.toUint 8 x)) = _
    rw [@reordered64_eq _ _ .ULINT _ rfl (hrev rfl rfl) (host.toUint_lt 8 x), getD_turned]
    rfl
  | LWORD =>
    show some ((reordered64 host e (host.toUint 8 x)).getD (host.toUint 8 x)) = _
    rw [@reordered64_eq _ _ .LWORD _ rfl (hrev rfl rfl) (host.toUint_lt 8 x), getD_turned]
    rfl
  | INT =>
    rw [← bitsOf_getD_turned rfl rfl, ← reordered_eq rfl _ (host.toUint_lt _ x)]
    rfl
  | DINT =>
    rw [← bitsOf_getD_turned rfl rfl, ← reordered_eq rfl _ (host.toUint_lt _ x)]
    rfl
  | LINT =>
    rw [← bitsOf_getD_turned rfl rfl]
    show some (bitsOf 8 (((reordered64 host e (host.toUint 8 x)).map (wrap 8)).getD
      (host.toInt 8 x))) = _
    rw [@reordered64_eq _ _ .LINT _ rfl (hrev rfl rfl) (host.toUint_lt 8 x)]
    rfl
  | REAL =>
    have hsingle : float32bits x = binary32.encode x := by
      have hholds : binary32.Holds x := hx.2
      cases x with
      | fin q => exact congrArg binary32.encode hholds
      | inf neg => rfl
      | nan => rfl
    have hlt : float32bits x < 256 ^ 4 := by
      rw [hsingle]
      exact encode_lt regular32 hx.2
    show some ((reordered host e 4 (float32bits x)).getD (float32bits x)) = _
    rw [@reordered_eq _ _ .REAL _ rfl 4 hlt, getD_turned, hsingle]
    rfl
  | LREAL =>
    have hlt : float64bits x < 256 ^ 8 := encode_lt regular64 hx.2
    show some ((reordered host e 8 (float64bits x)).getD (float64bits x)) = _
    rw [@reordered_eq _ _ .LREAL _ rfl 8 hlt, getD_turned]
    rfl

end Write

section Read

variable {host : Host} {lib : Plc4x} {e : String} {T : PlcType} {b : ℕ}

theorem readBits_eq (hT : word T = false) (n : ℕ) :
    readBits e n b = turned (readReverses host e T) n b := by
  unfold readBits readReverses turned
  rw [hT]
  by_cases hlittle : e = "LITTLE_ENDIAN"
  · simp only [hlittle, if_true, Bool.false_eq_true, if_false, decide_true]
    exact reread_other (by decide)
  · simp [hlittle]

theorem read16_eq (hT : word T = true) (hb : b < 256 ^ 2) :
    read16 host e b = turned (readReverses host e T) 2 b := by
  unfold read16 readReverses
  rw [hT]
  by_cases hlittle : e = "LITTLE_ENDIAN"
  · simp [hlittle, reread_turned _ _ hb]
  · by_cases hbig : e = "BIG_ENDIAN"
    · simp [hbig, reread_turned _ _ hb]
    · by_cases hrev : e = "REV_ENDIAN"
      · simp [hrev, reread_turned _ _ hb]
      · simp [hlittle, hbig, hrev, turned]

/-- The reader turns the bytes of the wider integers as the endianness says. -/
theorem extractValue_eq (hsize : 1 < T.size) (hT : T.format = none) (hb : b < 256 ^ T.size) :
    extractValue host lib e T b = number T (turned (readReverses host e T) T.size b) := by
  cases T with
  | BYTE | USINT | SINT => exact absurd hsize (by decide)
  | REAL | LREAL => exact absurd hT (by decide)
  | UINT =>
    show float64 (read16 host e b) = _
    rw [read16_eq (T := .UINT) rfl hb]
    rfl
  | WORD =>
    show float64 (read16 host e b) = _
    rw [read16_eq (T := .WORD) rfl hb]
    rfl
  | INT | DINT | LINT =>
    rw [← readBits_eq rfl]
    rfl
  | UDINT | DWORD | ULINT | LWORD =>
    rw [← readBits_eq rfl]
    rfl

/-- The bits of a float are taken as they are without `LITTLE_ENDIAN`. -/
theorem extractValue_float (hT : T.format ≠ none) (he : e ≠ "LITTLE_ENDIAN") :
    extractValue host lib e T b = number T b := by
  cases T with
  | REAL | LREAL =>
    simp only [extractValue, readFloat, if_neg he]
    rfl
  | _ => exact absurd rfl hT

theorem extractValue_little (hT : T.format ≠ none) :
    extractValue host lib "LITTLE_ENDIAN" T b =
      number T (reverseBytes T.size (lib.getUint T.size b)) := by
  cases T with
  | REAL | LREAL => rfl
  | _ => exact absurd rfl hT

end Read

section Convert

variable {host : Host} {e : String} {T : PlcType} {x : Number}

/-- A number that fits is an unsigned integer of the type. -/
theorem toUint_of_nonneg {z : ℤ} {n : ℕ} (hlow : 0 ≤ z) (hhigh : z < 256 ^ n) :
    host.toUint n (.fin z) = z.toNat := by
  have hexact := host.toUint_exact n (z : ℚ)
  rw [truncate_intCast] at hexact
  exact hexact hlow hhigh

theorem toInt_of_range {z : ℤ} {n : ℕ} (hlow : -(256 ^ n / 2) ≤ z) (hhigh : z < 256 ^ n / 2) :
    host.toInt n (.fin z) = z := by
  have hexact := host.toInt_exact n (z : ℚ)
  rw [truncate_intCast] at hexact
  exact hexact hlow hhigh

/-- The pattern of a number stands for it, where a negative number survives the conversion. -/
theorem number_pattern (hx : Representable T x)
    (hwraps : T.signed = true → named e T = true → number T (host.toUint T.size x) = x) :
    number T (pattern host e T x) = x := by
  have hformat := hx.2
  cases hf : T.format with
  | some f =>
    rw [hf] at hformat
    have hregular : f.Regular := by
      cases T <;> simp [PlcType.format] at hf <;> subst hf
      · exact regular32
      · exact regular64
    unfold number pattern
    rw [hf]
    exact decode_encode hregular hformat
  | none =>
    rw [hf] at hformat
    obtain ⟨z, rfl, hrange⟩ := hformat
    have hfloat : float64 z = .fin z := hx.1
    have hpattern : pattern host e T (.fin z) =
        if T.signed && !named e T then bitsOf T.size (host.toInt T.size (.fin z))
        else host.toUint T.size (.fin z) := by
      unfold pattern
      rw [hf]
    rw [hpattern]
    have hsize : 0 < T.size := by cases T <;> decide
    cases hsigned : T.signed with
    | true =>
      rw [hsigned, if_pos rfl] at hrange
      cases hnamed : named e T with
      | true => exact hwraps hsigned hnamed
      | false =>
        unfold number
        rw [hf, hsigned]
        show float64 (wrap T.size (bitsOf T.size (host.toInt T.size (.fin z)))) = _
        rw [toInt_of_range hrange.1 hrange.2, wrap_bitsOf hsize hrange.1 hrange.2, hfloat]
    | false =>
      rw [hsigned, if_neg Bool.false_ne_true] at hrange
      unfold number
      rw [hf, hsigned]
      show float64 ((host.toUint T.size (.fin z) : ℕ) : ℤ) = _
      rw [toUint_of_nonneg hrange.1 hrange.2, Int.toNat_of_nonneg hrange.1, hfloat]

/-- A number that is not negative survives the conversion to unsigned bits. -/
theorem survives_of_nonneg {z : ℤ} (hx : Representable T (.fin z)) (hT : T.format = none)
    (hz : 0 ≤ z) : number T (host.toUint T.size (.fin z)) = .fin z := by
  have hformat := hx.2
  rw [hT] at hformat
  obtain ⟨y, hy, hrange⟩ := hformat
  obtain rfl : z = y := by exact_mod_cast Number.fin.inj hy
  have hfloat : float64 z = .fin z := hx.1
  have hcast : (((256 : ℕ) ^ T.size : ℕ) : ℤ) = 256 ^ T.size := by push_cast; rfl
  unfold number
  rw [hT]
  show float64 _ = _
  cases hsigned : T.signed with
  | false =>
    rw [hsigned, if_neg Bool.false_ne_true] at hrange
    rw [if_neg Bool.false_ne_true, toUint_of_nonneg hrange.1 hrange.2, Int.toNat_of_nonneg hz, hfloat]
  | true =>
    rw [hsigned, if_pos rfl] at hrange
    have hwrap : wrap T.size z.toNat = z := by
      unfold wrap
      rw [if_pos (by omega)]
      omega
    rw [if_pos rfl, toUint_of_nonneg hz (by omega), hwrap, hfloat]

end Convert

section Main

variable {host : Host} {lib : Plc4x} {e : String} {T : PlcType} {x : Number}

/-- Turning bytes twice, or not at all, leaves the pattern. -/
theorem number_turned_iff (hx : Representable T x) :
    number T (turned (readReverses host e T) T.size
        (turned (writeReverses host e T) T.size (pattern host e T x))) = x ↔
      KeptTurned host e T x := by
  rw [turned_turned _ _ (pattern_lt hx)]
  unfold KeptTurned
  by_cases hsame : writeReverses host e T = readReverses host e T
  · rw [if_pos hsame, if_pos hsame]
    constructor
    · intro h hsigned hnamed
      have hint : T.format = none := by cases T <;> first | rfl | exact absurd hsigned (by decide)
      unfold pattern at h
      rw [hint, hsigned, hnamed] at h
      exact h
    · exact number_pattern hx
  · rw [if_neg hsame, if_neg hsame]

theorem roundTrip_of_store {sep addr s : String} {b : ℕ} (hname : Names sep addr T)
    (hstore : lib.store T (write host e (branchOf T) x s) = some b) :
    RoundTrip host lib sep addr e T x s ↔ extractValue host lib e T b = x := by
  unfold RoundTrip
  rw [branch_eq hname, hstore]
  constructor
  · rintro ⟨c, hc, h⟩
    cases hc
    exact h
  · exact fun h => ⟨b, rfl, h⟩

/-- The wider integers, where the bytes are turned as the endianness says. -/
theorem roundTrip_turned {sep addr s : String} (hname : Names sep addr T)
    (hx : Representable T x) (hsize : 1 < T.size) (hint : T.format = none) (hT : T ≠ .DWORD)
    (hrev : T.size = 8 → e ≠ "REV_ENDIAN") :
    RoundTrip host lib sep addr e T x s ↔ KeptTurned host e T x := by
  have hlt := turned_lt (writeReverses host e T) (@pattern_lt host e T x hx)
  rw [roundTrip_of_store hname (store_write lib s hx hsize hT fun h _ => hrev h),
    extractValue_eq hsize hint hlt]
  exact number_turned_iff hx

/-- With `REV_ENDIAN` half of the bytes of a 64-bit integer are written. -/
theorem roundTrip_rev {sep addr s : String} (hname : Names sep addr T) (hsize : T.size = 8)
    (hint : T.format = none) :
    RoundTrip host lib sep addr "REV_ENDIAN" T x s ↔
      number T (reverseBytes 4 (host.toUint 8 x)) = x := by
  have hread : ∀ b, extractValue host lib "REV_ENDIAN" T b = number T b := by
    intro b
    cases T <;> first | rfl | exact absurd hsize (by decide)
  have hlt : reverseBytes 4 (host.toUint 8 x) < 256 ^ 8 :=
    (reverseBytes_lt 4 _).trans (by norm_num)
  have hstore : lib.store T (write host "REV_ENDIAN" (branchOf T) x s) =
      some (reverseBytes 4 (host.toUint 8 x)) := by
    apply lib.store_native
    cases T with
    | ULINT | LWORD => rfl
    | LINT =>
      show some (bitsOf 8 (wrap 8 (reverseBytes 4 (host.toUint 8 x)))) = _
      rw [bitsOf_wrap hlt]
    | REAL | LREAL => exact absurd hint (by decide)
    | _ => exact absurd hsize (by decide)
  rw [roundTrip_of_store hname hstore, hread]

theorem roundTrip_float {sep addr s : String} (hname : Names sep addr T)
    (hx : Representable T x) (hfloat : T.format ≠ none) :
    RoundTrip host lib sep addr e T x s ↔
      if e = "LITTLE_ENDIAN" then
        number T (reverseBytes T.size
          (lib.getUint T.size (turned (host.order ≠ .little) T.size (pattern host e T x)))) = x
      else KeptTurned host e T x := by
  have hsize : 1 < T.size := by
    cases T <;> first | decide | exact absurd rfl hfloat
  have hT : T ≠ .DWORD := fun h => hfloat (by rw [h]; rfl)
  have hword : word T = false := by
    cases T <;> first | rfl | exact absurd rfl hfloat
  rw [roundTrip_of_store hname (store_write lib s hx hsize hT fun _ h => absurd h hfloat)]
  by_cases hlittle : e = "LITTLE_ENDIAN"
  · subst hlittle
    rw [if_pos rfl, extractValue_little hfloat]
    rfl
  · have hreader : readReverses host e T = false := by
      unfold readReverses
      rw [hword]
      exact decide_eq_false hlittle
    rw [if_neg hlittle, extractValue_float hfloat hlittle, ← number_turned_iff hx, hreader]
    rfl

/-- A byte is not turned. -/
theorem roundTrip_byte {sep addr s : String} (hname : Names sep addr .BYTE)
    (hx : Representable .BYTE x) : RoundTrip host lib sep addr e .BYTE x s := by
  obtain ⟨z, rfl, hlow, hhigh⟩ := hx.2
  have hstore : lib.store .BYTE (write host e (branchOf .BYTE) (.fin z) s) =
      some (host.toUint 1 (.fin z)) := lib.store_native _ _ _ rfl
  rw [roundTrip_of_store hname hstore]
  exact survives_of_nonneg hx rfl hlow

theorem roundTrip_sint {sep addr s : String} (hname : Names sep addr .SINT)
    (hx : Representable .SINT x) : RoundTrip host lib sep addr e .SINT x s := by
  obtain ⟨z, rfl, hlow, hhigh⟩ := hx.2
  have hstore : lib.store .SINT (write host e (branchOf .SINT) (.fin z) s) =
      some (bitsOf 1 (host.toInt 1 (.fin z))) := lib.store_native _ _ _ rfl
  rw [roundTrip_of_store hname hstore]
  show float64 (wrap 1 (bitsOf 1 (host.toInt 1 (.fin z)))) = _
  rw [toInt_of_range (n := 1) hlow hhigh, wrap_bitsOf (n := 1) (by norm_num) hlow hhigh]
  exact hx.1

/-- A number written to a PLC comes back exactly where the writer and the reader of its type
agree. -/
theorem round_trip_iff {sep addr : String} (hname : Names sep addr T)
    (hx : Representable T x) (s : String) :
    RoundTrip host lib sep addr e T x s ↔ Kept host lib e T x := by
  cases T with
  | BYTE => exact iff_of_true (roundTrip_byte hname hx) trivial
  | SINT => exact iff_of_true (roundTrip_sint hname hx) trivial
  | USINT =>
    unfold RoundTrip
    rw [branch_eq hname]
    exact Iff.rfl
  | DWORD =>
    have hread : ∀ b, extractValue host lib e .DWORD b =
        number .DWORD (turned (e = "LITTLE_ENDIAN") 4 b) := by
      intro b
      have hbits := @readBits_eq host e .DWORD b rfl 4
      show float64 ((readBits e 4 b : ℕ) : ℤ) = _
      rw [hbits]
      rfl
    unfold RoundTrip
    rw [branch_eq hname]
    simp only [hread]
    exact Iff.rfl
  | REAL | LREAL => exact roundTrip_float hname hx (by decide)
  | ULINT | LWORD | LINT =>
    by_cases hrev : e = "REV_ENDIAN"
    · subst hrev
      exact roundTrip_rev hname rfl rfl
    · show _ ↔ if e = "REV_ENDIAN" then _ else _
      rw [if_neg hrev]
      exact roundTrip_turned hname hx (by decide) rfl (by decide) fun _ => hrev
  | UINT | WORD | INT | UDINT | DINT =>
    exact roundTrip_turned hname hx (by decide) rfl (by decide) fun h => absurd h (by decide)

end Main

theorem hostOf_toUint_lt (n : ℕ) (x : Number) :
    (match x with
      | .fin q => bitsOf n (truncate q)
      | _ => 0) < 256 ^ n := by
  cases x with
  | fin q => exact bitsOf_lt n _
  | _ => exact Nat.pow_pos (by norm_num)

theorem bitsOf_of_range (n : ℕ) (q : ℚ) (hlow : 0 ≤ truncate q) (hhigh : truncate q < 256 ^ n) :
    bitsOf n (truncate q) = (truncate q).toNat := by
  unfold bitsOf
  rw [Int.emod_eq_of_lt hlow hhigh]

theorem wrap_bitsOf_of_range (n : ℕ) (q : ℚ) (hlow : -(256 ^ n / 2) ≤ truncate q)
    (hhigh : truncate q < 256 ^ n / 2) : wrap n (bitsOf n (truncate q)) = truncate q := by
  rcases Nat.eq_zero_or_pos n with rfl | hn
  · norm_num at hlow hhigh
    omega
  · exact wrap_bitsOf hn hlow hhigh

/-- A host that takes the bits of the integer nearest to zero. -/
def hostOf (o : ByteOrder) : Host where
  order := o
  toUint n x := match x with
    | .fin q => bitsOf n (truncate q)
    | _ => 0
  toInt n x := match x with
    | .fin q => wrap n (bitsOf n (truncate q))
    | _ => 0
  toUint_lt := hostOf_toUint_lt
  toUint_exact := bitsOf_of_range
  toInt_exact := wrap_bitsOf_of_range

/-- A library that takes the Go type of each PLC type only. -/
def strict : Plc4x where
  store := native
  getUint n b := b % 256 ^ n
  getUint_lt n b := Nat.mod_lt b (Nat.pow_pos (by norm_num))
  store_native _ _ _ h := h

set_option maxRecDepth 4000 in
theorem names_uint : Names ":" "HOLDING-REGISTER:1:UINT" .UINT := by decide

set_option maxRecDepth 4000 in
theorem names_int : Names ":" "HOLDING-REGISTER:1:INT" .INT := by decide

theorem holds_natCast {n : ℕ} (h : n ≤ 2 ^ 53) : binary64.Holds (.fin (n : ℚ)) := round_natCast h

/-- Words keep their value in both orders. -/
theorem word_returns :
    RoundTrip (hostOf .little) strict ":" "HOLDING-REGISTER:1:UINT" "BIG_ENDIAN" .UINT (.fin (513 : ℕ)) "" ∧
      Kept (hostOf .little) strict "BIG_ENDIAN" .UINT (.fin (513 : ℕ)) := by
  have hx : Representable .UINT (.fin (513 : ℕ)) :=
    ⟨holds_natCast (by norm_num : 513 ≤ 2 ^ 53), 513, rfl, by decide⟩
  have hkept : Kept (hostOf .little) strict "BIG_ENDIAN" .UINT (.fin (513 : ℕ)) := by
    intro hsigned
    cases hsigned
  exact ⟨(round_trip_iff names_uint hx "").mpr hkept, hkept⟩

/-- An integer is written as it is, and read with its bytes turned. -/
theorem one_read_as_256 :
    Names ":" "HOLDING-REGISTER:1:INT" .INT ∧ Representable .INT (.fin (1 : ℕ)) ∧
      ¬ RoundTrip (hostOf .little) strict ":" "HOLDING-REGISTER:1:INT" "LITTLE_ENDIAN" .INT
        (.fin (1 : ℕ)) "" := by
  refine ⟨names_int, ⟨holds_natCast (by norm_num : 1 ≤ 2 ^ 53), 1, rfl, by decide⟩, ?_⟩
  unfold RoundTrip
  rw [branch_eq names_int]
  rintro ⟨b, hb, hx⟩
  have hstored : strict.store .INT (write (hostOf .little) "LITTLE_ENDIAN" (branchOf .INT)
      (.fin (1 : ℕ)) "") = some 1 := by decide
  rw [hstored] at hb
  cases hb
  have hread : extractValue (hostOf .little) strict "LITTLE_ENDIAN" .INT 1 =
      .fin ((256 : ℕ) : ℚ) := holds_natCast (by norm_num : 256 ≤ 2 ^ 53)
  rw [hread] at hx
  have hcast := Number.fin.inj hx
  norm_num at hcast

end JsonScada.System.WriteRead
