import Mathlib.Data.List.Basic
import Mathlib.Data.Nat.Notation

/-!
# Bytes and lower-case hexadecimal

Byte strings are lists of `UInt8`. `utf8Bytes` is the byte content of a string, and it
determines the string. `hexEncode` writes two lower-case digits per byte; `hexDecode` accepts
either case, as the usual hexadecimal crates do, and inverts it (`hexDecode_hexEncode`).
`FixedBytes n` are the byte strings of length `n`; `byteaText` is the `\x` form in which a
database prints and reads byte strings.
-/

namespace Mipsorcu

/-- The UTF-8 bytes of a string. -/
def utf8Bytes (s : String) : List UInt8 :=
  s.toByteArray.data.toList

theorem utf8Bytes_injective : Function.Injective utf8Bytes := by
  intro s t h
  exact String.toByteArray_inj.mp (ByteArray.ext (Array.toList_inj.mp h))

theorem utf8Bytes_eq (s : String) : utf8Bytes s = s.toList.flatMap String.utf8EncodeChar := by
  have h : s.toByteArray = s.toList.utf8Encode := by
    rw [← String.toByteArray_ofList, String.ofList_toList]
  rw [utf8Bytes, h, List.utf8Encode, List.data_toByteArray]

/-- A character takes at least one byte. -/
theorem length_le_length_utf8Bytes (s : String) : s.length ≤ (utf8Bytes s).length := by
  rw [utf8Bytes_eq, ← String.length_toList]
  induction s.toList with
  | nil => exact Nat.le_refl _
  | cons c cs ih =>
    have hpos := c.utf8Size_pos
    rw [List.flatMap_cons, List.length_append, String.length_utf8EncodeChar, List.length_cons]
    omega

/-- A character takes at most four bytes. -/
theorem length_utf8Bytes_le (s : String) : (utf8Bytes s).length ≤ 4 * s.length := by
  rw [utf8Bytes_eq, ← String.length_toList]
  induction s.toList with
  | nil => exact Nat.le_refl _
  | cons c cs ih =>
    have hle := c.utf8Size_le_four
    rw [List.flatMap_cons, List.length_append, String.length_utf8EncodeChar, List.length_cons]
    omega

/-- An ASCII character takes one byte. -/
theorem length_utf8Bytes_of_ascii {s : String} (h : ∀ c ∈ s.toList, c.toNat < 128) :
    (utf8Bytes s).length = s.length := by
  rw [utf8Bytes_eq, ← String.length_toList]
  generalize s.toList = cs at h
  induction cs with
  | nil => rfl
  | cons c cs ih =>
    obtain ⟨hc, hcs⟩ := List.forall_mem_cons.mp h
    have hone : c.utf8Size = 1 := Char.utf8Size_eq_one_iff.mpr (by
      rw [UInt32.le_iff_toNat_le]
      exact Nat.le_of_lt_succ hc)
    rw [List.flatMap_cons, List.length_append, String.length_utf8EncodeChar, hone, ih hcs,
      List.length_cons, Nat.add_comm]

/-- The string with the given UTF-8 bytes. -/
def utf8String? (bytes : List UInt8) : Option String :=
  String.fromUTF8? ⟨bytes.toArray⟩

@[simp]
theorem utf8String?_utf8Bytes (s : String) : utf8String? (utf8Bytes s) = some s := by
  rw [utf8String?, utf8Bytes, Array.toArray_toList, String.fromUTF8?, dif_pos s.isValidUTF8]
  rfl

/-! ### Hexadecimal digits -/

/-- The lower-case hexadecimal digit of a number below 16. -/
def hexDigit (n : ℕ) : Char :=
  if n < 10 then Char.ofNat (48 + n) else Char.ofNat (87 + n)

/-- The value of a hexadecimal digit of either case. -/
def hexValue (c : Char) : Option ℕ :=
  if 48 ≤ c.toNat ∧ c.toNat ≤ 57 then some (c.toNat - 48)
  else if 97 ≤ c.toNat ∧ c.toNat ≤ 102 then some (c.toNat - 87)
  else if 65 ≤ c.toNat ∧ c.toNat ≤ 70 then some (c.toNat - 55)
  else none

theorem hexValue_hexDigit {n : ℕ} (h : n < 16) : hexValue (hexDigit n) = some n := by
  have key : ∀ k : Fin 16, hexValue (hexDigit k) = some k.val := by decide
  exact key ⟨n, h⟩

/-- A number below ten is the value of one digit only. -/
theorem hexValue_eq_some {c : Char} {n : ℕ} (h : n < 10) :
    hexValue c = some n ↔ c = hexDigit n := by
  constructor
  · intro hvalue
    have htoNat : c.toNat = 48 + n := by
      unfold hexValue at hvalue
      split_ifs at hvalue <;> cases hvalue <;> omega
    rw [hexDigit, if_pos h, ← htoNat, Char.ofNat_toNat]
  · rintro rfl
    exact hexValue_hexDigit (by omega)

theorem hexValue_lt {c : Char} {n : ℕ} (h : hexValue c = some n) : n < 16 := by
  unfold hexValue at h
  split_ifs at h <;> cases h <;> omega

/-! ### Byte strings -/

/-- The two hexadecimal digits of a byte, high half first. -/
def hexPair (b : UInt8) : List Char :=
  [hexDigit (b.toNat / 16), hexDigit (b.toNat % 16)]

/-- Lower-case hexadecimal text of a byte string. -/
def hexEncode (bytes : List UInt8) : List Char :=
  bytes.flatMap hexPair

/-- Reads pairs of hexadecimal digits; an odd digit or a foreign character is refused. -/
def hexDecode : List Char → Option (List UInt8)
  | [] => some []
  | [_] => none
  | hi :: lo :: rest => do
    let h ← hexValue hi
    let l ← hexValue lo
    let bytes ← hexDecode rest
    pure (UInt8.ofNat (16 * h + l) :: bytes)

theorem hexEncode_cons (b : UInt8) (bytes : List UInt8) :
    hexEncode (b :: bytes) = hexDigit (b.toNat / 16) :: hexDigit (b.toNat % 16) ::
      hexEncode bytes := rfl

theorem length_hexEncode (bytes : List UInt8) :
    (hexEncode bytes).length = 2 * bytes.length := by
  induction bytes with
  | nil => rfl
  | cons b bytes ih => rw [hexEncode_cons]; simp only [List.length_cons, ih]; omega

/-- **Round trip**: decoding the hexadecimal text of a byte string gives it back. -/
@[simp]
theorem hexDecode_hexEncode (bytes : List UInt8) : hexDecode (hexEncode bytes) = some bytes := by
  induction bytes with
  | nil => rfl
  | cons b bytes ih =>
    have hb : b.toNat < 256 := b.toNat_lt
    have hsum : UInt8.ofNat (16 * (b.toNat / 16) + b.toNat % 16) = b := by
      rw [Nat.div_add_mod, UInt8.ofNat_toNat]
    rw [hexEncode_cons, hexDecode, hexValue_hexDigit (by omega), hexValue_hexDigit (by omega), ih]
    simp only [Option.bind_eq_bind, Option.bind_some, Option.pure_def, hsum]

theorem hexEncode_injective : Function.Injective hexEncode := fun xs ys h => by
  simpa using congrArg hexDecode h

/-- **What decodes**: an even number of hexadecimal digits. -/
theorem isSome_hexDecode (text : List Char) : (hexDecode text).isSome = true ↔
    text.length % 2 = 0 ∧ ∀ c ∈ text, (hexValue c).isSome = true := by
  fun_induction hexDecode text with
  | case1 => simp
  | case2 => simp
  | case3 hi lo rest ih =>
    have hlength : (hi :: lo :: rest).length % 2 = rest.length % 2 := by
      rw [List.length_cons, List.length_cons]
      omega
    simp only [hlength, List.forall_mem_cons, Option.bind_eq_bind, Option.pure_def,
      Option.isSome_bind, Option.isSome_some]
    cases hexValue hi <;> cases hexValue lo <;> simp [ih]

theorem length_of_hexDecode {text : List Char} {bytes : List UInt8}
    (h : hexDecode text = some bytes) : text.length = 2 * bytes.length := by
  fun_induction hexDecode text generalizing bytes with
  | case1 => cases h; rfl
  | case2 => cases h
  | case3 hi lo rest ih =>
    simp only [Option.bind_eq_bind, Option.pure_def, Option.bind_eq_some_iff,
      Option.some.injEq] at h
    obtain ⟨_, -, _, -, decoded, hdecoded, rfl⟩ := h
    rw [List.length_cons, List.length_cons, List.length_cons, ih hdecoded]
    omega

/-- The first of the two digits of a byte is its high half. -/
theorem hexValue_of_hexDecode {text : List Char} {bytes : List UInt8} {i : ℕ} {c : Char}
    (h : hexDecode text = some bytes) (hc : text[2 * i]? = some c) :
    hexValue c = some ((bytes.getD i 0).toNat / 16) := by
  fun_induction hexDecode text generalizing bytes i with
  | case1 => cases hc
  | case2 => cases h
  | case3 hi lo rest ih =>
    simp only [Option.bind_eq_bind, Option.pure_def, Option.bind_eq_some_iff,
      Option.some.injEq] at h
    obtain ⟨high, hhigh, low, hlow, decoded, hdecoded, rfl⟩ := h
    cases i with
    | zero =>
      cases hc
      have hlt := hexValue_lt hhigh
      have hlt' := hexValue_lt hlow
      rw [hhigh, List.getD_cons_zero, UInt8.toNat_ofNat', Nat.mod_eq_of_lt (by omega)]
      exact congrArg some (by omega)
    | succ i =>
      rw [List.getD_cons_succ]
      exact ih hdecoded hc

/-! ### Byte strings of a fixed length -/

/-- A byte string of length `n`. -/
structure FixedBytes (n : ℕ) where
  bytes : List UInt8
  length_bytes : bytes.length = n
  deriving DecidableEq

namespace FixedBytes

variable {n : ℕ}

@[ext]
theorem ext {a b : FixedBytes n} (h : a.bytes = b.bytes) : a = b := by
  cases a; cases b; simp_all

/-- The byte string, if it has the right length. -/
def ofBytes? (n : ℕ) (bytes : List UInt8) : Option (FixedBytes n) :=
  if h : bytes.length = n then some ⟨bytes, h⟩ else none

@[simp]
theorem ofBytes?_bytes (a : FixedBytes n) : ofBytes? n a.bytes = some a := by
  simp [ofBytes?, a.length_bytes]

theorem ofBytes?_eq_some {bytes : List UInt8} {a : FixedBytes n} :
    ofBytes? n bytes = some a ↔ a.bytes = bytes := by
  refine ⟨fun h => ?_, fun h => by rw [← h, ofBytes?_bytes]⟩
  unfold ofBytes? at h
  split at h
  · rw [← Option.some.inj h]
  · cases h

/-- The all-zero byte string. -/
def zero (n : ℕ) : FixedBytes n :=
  ⟨List.replicate n 0, List.length_replicate⟩

/-- The byte string of a number, most significant byte first. -/
def ofNat (n value : ℕ) : FixedBytes n :=
  ⟨(List.range n).map fun i => UInt8.ofNat (value >>> (8 * (n - 1 - i))), by simp⟩

/-- The byte string of two numbers, one for each half. -/
def ofHalves (n first second : ℕ) : FixedBytes n :=
  ofNat n (first <<< (8 * (n / 2)) + second)

end FixedBytes

/-! ### The database's text form -/

/-- The text form of a byte string: `\x` and the hexadecimal digits. -/
def byteaText (bytes : List UInt8) : String :=
  String.ofList ('\\' :: 'x' :: hexEncode bytes)

/-- The text after a leading `\x`. -/
def stripByteaMark (text : String) : Option (List Char) :=
  match text.toList with
  | '\\' :: 'x' :: digits => some digits
  | _ => none

@[simp]
theorem stripByteaMark_byteaText (bytes : List UInt8) :
    stripByteaMark (byteaText bytes) = some (hexEncode bytes) := by
  simp [stripByteaMark, byteaText]

end Mipsorcu
