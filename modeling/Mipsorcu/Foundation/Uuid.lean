import Mipsorcu.Foundation.Bytes

/-!
# UUIDs

A UUID is sixteen bytes. It is printed in the hyphenated lower-case form; the parser accepts
the simple, hyphenated, braced and URN forms in either case, and inverts the printer.
-/

namespace Mipsorcu

/-- A UUID: sixteen bytes. -/
structure Uuid where
  bytes : List UInt8
  length_bytes : bytes.length = 16
  deriving DecidableEq

namespace Uuid

/-- The UUID of a byte string of the right length. -/
def ofBytes (bytes : List UInt8) : Option Uuid :=
  if h : bytes.length = 16 then some ⟨bytes, h⟩ else none

@[simp]
theorem ofBytes_bytes (u : Uuid) : ofBytes u.bytes = some u := by
  simp [ofBytes, u.length_bytes]

/-- The groups of a hyphenated UUID, in bytes. -/
def hyphenatedChars (bytes : List UInt8) : List Char :=
  hexEncode (bytes.take 4) ++ '-' :: hexEncode ((bytes.drop 4).take 2) ++
    '-' :: hexEncode ((bytes.drop 6).take 2) ++ '-' :: hexEncode ((bytes.drop 8).take 2) ++
    '-' :: hexEncode (bytes.drop 10)

/-- The hyphenated lower-case form. -/
def hyphenated (u : Uuid) : String :=
  String.ofList (hyphenatedChars u.bytes)

/-- Reads thirty-two hexadecimal digits. -/
def parseSimple (text : List Char) : Option Uuid := do
  let bytes ← hexDecode text
  ofBytes bytes

/-- Reads the hyphenated form: hyphens after the digits 8, 12, 16 and 20. -/
def parseHyphenated (text : List Char) : Option Uuid :=
  if text[8]? = some '-' ∧ text[13]? = some '-' ∧ text[18]? = some '-' ∧ text[23]? = some '-' then
    parseSimple (text.take 8 ++ (text.drop 9).take 4 ++ (text.drop 14).take 4 ++
      (text.drop 19).take 4 ++ text.drop 24)
  else none

/-- The parser: the form is chosen by the length of the text. -/
def parse (text : String) : Option Uuid :=
  let chars := text.toList
  if chars.length = 32 then parseSimple chars
  else if chars.length = 36 then parseHyphenated chars
  else if chars.length = 38 ∧ chars[0]? = some '{' ∧ chars[37]? = some '}' then
    parseHyphenated ((chars.drop 1).take 36)
  else if chars.length = 45 ∧ chars.take 9 = ['u', 'r', 'n', ':', 'u', 'u', 'i', 'd', ':'] then
    parseHyphenated (chars.drop 9)
  else none

/-- The version number. -/
def version (u : Uuid) : ℕ :=
  (u.bytes.getD 6 0).toNat / 16

/-- The UUID of random bytes: version 4 and the usual variant replace six of the bits. -/
def ofRandomBytes (random : FixedBytes 16) : Uuid where
  bytes := (random.bytes.modify 6 fun b => UInt8.ofNat (b.toNat % 16 + 64)).modify 8
    fun b => UInt8.ofNat (b.toNat % 64 + 128)
  length_bytes := by simp [random.length_bytes]

@[simp]
theorem version_ofRandomBytes (random : FixedBytes 16) : (ofRandomBytes random).version = 4 := by
  have hlt : 6 < random.bytes.length := by simp [random.length_bytes]
  simp [version, ofRandomBytes, List.getElem?_eq_getElem hlt]
  omega

/-- The two bits of the variant. -/
theorem variant_ofRandomBytes (random : FixedBytes 16) :
    ((ofRandomBytes random).bytes.getD 8 0).toNat / 64 = 2 := by
  have hlt : 8 < random.bytes.length := by simp [random.length_bytes]
  simp [ofRandomBytes, List.getElem?_eq_getElem hlt]
  omega

private theorem exists_bytes (u : Uuid) : ∃ b0 b1 b2 b3 b4 b5 b6 b7 b8 b9 b10 b11 b12 b13 b14 b15,
    u.bytes = [b0, b1, b2, b3, b4, b5, b6, b7, b8, b9, b10, b11, b12, b13, b14, b15] := by
  obtain ⟨bytes, h⟩ := u
  match bytes, h with
  | [b0, b1, b2, b3, b4, b5, b6, b7, b8, b9, b10, b11, b12, b13, b14, b15], _ =>
    exact ⟨b0, b1, b2, b3, b4, b5, b6, b7, b8, b9, b10, b11, b12, b13, b14, b15, rfl⟩

private theorem parseHyphenated_hyphenatedChars (u : Uuid) :
    parseHyphenated (hyphenatedChars u.bytes) = some u := by
  obtain ⟨b0, b1, b2, b3, b4, b5, b6, b7, b8, b9, b10, b11, b12, b13, b14, b15, hb⟩ :=
    exists_bytes u
  -- with the bytes spelled out the slices of the text are literal
  have hsimple : parseHyphenated (hyphenatedChars u.bytes) = parseSimple (hexEncode u.bytes) := by
    rw [hb]; rfl
  rw [hsimple, parseSimple, hexDecode_hexEncode]
  exact ofBytes_bytes u

private theorem length_hyphenatedChars (u : Uuid) : (hyphenatedChars u.bytes).length = 36 := by
  have h := u.length_bytes
  simp only [hyphenatedChars, List.length_append, List.length_cons, length_hexEncode,
    List.length_take, List.length_drop]
  omega

/-- **Round trip**: a printed UUID parses to itself. -/
@[simp]
theorem parse_hyphenated (u : Uuid) : parse u.hyphenated = some u := by
  simp [parse, hyphenated, length_hyphenatedChars, parseHyphenated_hyphenatedChars]

theorem hyphenated_injective : Function.Injective hyphenated := fun u v h => by
  simpa using congrArg parse h

/-! ### Spellings -/

/-- Thirty-two hexadecimal digits are a UUID. -/
theorem isSome_parseSimple {digits : List Char} (hlength : digits.length = 32) :
    (parseSimple digits).isSome = true ↔ ∀ c ∈ digits, (hexValue c).isSome = true := by
  have hdecode := isSome_hexDecode digits
  rw [hlength] at hdecode
  simp only [Nat.reduceMod, true_and] at hdecode
  rw [← hdecode, parseSimple]
  cases h : hexDecode digits with
  | none => simp
  | some bytes =>
    have hbytes : bytes.length = 16 := by have := length_of_hexDecode h; omega
    simp [ofBytes, hbytes]

/-- The version is the thirteenth digit. -/
theorem version_of_parseSimple {digits : List Char} {u : Uuid} (h : parseSimple digits = some u)
    (hlength : digits.length = 32) : u.version = 4 ↔ digits[12]? = some '4' := by
  simp only [parseSimple, Option.bind_eq_bind, Option.bind_eq_some_iff, ofBytes] at h
  obtain ⟨bytes, hdecode, hbytes⟩ := h
  split_ifs at hbytes
  cases hbytes
  obtain ⟨c, hc⟩ : ∃ c, digits[12]? = some c := ⟨_, List.getElem?_eq_getElem (by omega)⟩
  have hvalue := hexValue_of_hexDecode (i := 6) hdecode hc
  rw [hc, Option.some_inj, version]
  constructor
  · intro hversion
    rw [hversion] at hvalue
    exact (hexValue_eq_some (by decide)).mp hvalue
  · rintro rfl
    exact (Option.some_inj.mp hvalue).symm

/-- A text spells digits if it is the digits, or has hyphens between their groups. -/
inductive Spells (digits : List Char) : List Char → Prop
  | simple : Spells digits digits
  | hyphenated {a b c d e : List Char} (hdigits : digits = a ++ b ++ c ++ d ++ e)
      (ha : a.length = 8) (hb : b.length = 4) (hc : c.length = 4) (hd : d.length = 4) :
      Spells digits (a ++ '-' :: (b ++ '-' :: (c ++ '-' :: (d ++ '-' :: e))))

theorem parseHyphenated_groups {a b c d e : List Char} (ha : a.length = 8) (hb : b.length = 4)
    (hc : c.length = 4) (hd : d.length = 4) :
    parseHyphenated (a ++ '-' :: (b ++ '-' :: (c ++ '-' :: (d ++ '-' :: e)))) =
      parseSimple (a ++ b ++ c ++ d ++ e) := by
  simp [parseHyphenated, List.getElem?_append, List.drop_append,
    List.drop_of_length_le, ha, hb, hc, hd]

/-- A text with hyphens at the four places is made of five groups. -/
theorem exists_groups {text : List Char} (h8 : text[8]? = some '-') (h13 : text[13]? = some '-')
    (h18 : text[18]? = some '-') (h23 : text[23]? = some '-') :
    ∃ a b c d e, a.length = 8 ∧ b.length = 4 ∧ c.length = 4 ∧ d.length = 4 ∧
      text = a ++ '-' :: (b ++ '-' :: (c ++ '-' :: (d ++ '-' :: e))) := by
  -- each hyphen splits the rest of the text
  have hsplit : ∀ (rest : List Char) (n : ℕ), rest[n]? = some '-' →
      (rest.take n).length = n ∧ rest = rest.take n ++ '-' :: rest.drop (n + 1) := by
    intro rest n h
    obtain ⟨hlt, hget⟩ := List.getElem?_eq_some_iff.mp h
    refine ⟨List.length_take_of_le (Nat.le_of_lt hlt), ?_⟩
    rw [← hget, List.getElem_cons_drop, List.take_append_drop]
  obtain ⟨ha, hta⟩ := hsplit text 8 h8
  obtain ⟨hb, htb⟩ := hsplit (text.drop 9) 4 (by rwa [List.getElem?_drop])
  obtain ⟨hc, htc⟩ := hsplit (text.drop 14) 4 (by rwa [List.getElem?_drop])
  obtain ⟨hd, htd⟩ := hsplit (text.drop 19) 4 (by rwa [List.getElem?_drop])
  rw [List.drop_drop] at htb htc htd
  refine ⟨_, _, _, _, text.drop 24, ha, hb, hc, hd, ?_⟩
  rw [← htd, ← htc, ← htb, ← hta]

/-- **The texts the parser accepts, without braces and URNs**: those that spell the digits of the
UUID. -/
theorem parse_eq_some_iff {text : String} {u : Uuid} (hbrace : '{' ∉ text.toList)
    (hcolon : ':' ∉ text.toList) :
    parse text = some u ↔ ∃ digits, digits.length = 32 ∧ parseSimple digits = some u ∧
      Spells digits text.toList := by
  constructor
  · intro h
    simp only [parse] at h
    split_ifs at h with h32 h36 h38 h45
    · exact ⟨_, h32, h, .simple⟩
    · by_cases hhyphens : text.toList[8]? = some '-' ∧ text.toList[13]? = some '-' ∧
          text.toList[18]? = some '-' ∧ text.toList[23]? = some '-'
      · obtain ⟨a, b, c, d, e, ha, hb, hc, hd, htext⟩ := exists_groups hhyphens.1 hhyphens.2.1
          hhyphens.2.2.1 hhyphens.2.2.2
        rw [htext] at h h36 ⊢
        refine ⟨a ++ b ++ c ++ d ++ e, ?_, ?_, .hyphenated rfl ha hb hc hd⟩
        · simp only [List.length_append, List.length_cons] at h36 ⊢
          omega
        · rwa [parseHyphenated_groups ha hb hc hd] at h
      · rw [parseHyphenated, if_neg hhyphens] at h
        cases h
    -- braces and the URN form are the two spellings that are left out
    · exact absurd (List.mem_of_getElem? h38.2.1) hbrace
    · have hmem : ':' ∈ text.toList.take 9 := by rw [h45.2]; decide
      exact absurd (List.mem_of_mem_take hmem) hcolon
  · rintro ⟨digits, hlength, hparse, hspells⟩
    rw [parse]
    generalize text.toList = chars at hspells
    cases hspells with
    | simple => rwa [if_pos hlength]
    | hyphenated hdigits ha hb hc hd =>
      rw [hdigits] at hlength
      simp only [List.length_append] at hlength
      simp only [List.length_append, List.length_cons]
      rw [if_neg (by omega), if_pos (by omega), parseHyphenated_groups ha hb hc hd, ← hdigits,
        hparse]

end Uuid

end Mipsorcu
