import Mipsorcu.Foundation.Result
import Mipsorcu.Types

/-!
# Aliases and references to secrets

An alias is a short text of letters, digits, hyphens and underscores. A request refers to a secret
by its identifier or by an alias; a text that reads as an identifier is one, whatever aliases exist.
`SecretRef.parse_alias_iff` says which aliases are read as aliases.
-/

namespace Mipsorcu

/-! ### Aliases -/

/-- `AliasInputError`. -/
inductive AliasInputError where
  | empty
  | tooLong (actual max : ℕ)
  | disallowedCharacter (position : ℕ)
  deriving DecidableEq

/-- The longest alias, in bytes. -/
def aliasMaxLength : ℕ := 128

/-- `is_allowed_byte`. An allowed byte is a character of its own. -/
def isAllowedByte (c : Char) : Bool :=
  (65 ≤ c.toNat && c.toNat ≤ 90) || (97 ≤ c.toNat && c.toNat ≤ 122) ||
    (48 ≤ c.toNat && c.toNat ≤ 57) || c == '-' || c == '_'

/-- `NormalizedAlias`. -/
structure NormalizedAlias where
  text : String
  ne_empty : text ≠ ""
  length_le : byteLength text ≤ aliasMaxLength
  allowed : text.toList.all isAllowedByte = true

namespace NormalizedAlias

@[ext]
theorem ext {a b : NormalizedAlias} (h : a.text = b.text) : a = b := by
  cases a
  cases b
  simp_all

instance : DecidableEq NormalizedAlias := fun a b =>
  decidable_of_iff (a.text = b.text) ⟨ext, congrArg text⟩

/-- `NormalizedAlias::parse`. All bytes before the first one that is not allowed are characters of
their own, so that its position counts characters as well. -/
def parse (value : String) : Except AliasInputError NormalizedAlias :=
  let trimmed := trim value
  if hempty : trimmed = "" then .error .empty
  else if hlength : aliasMaxLength < byteLength trimmed then
    .error (.tooLong (byteLength trimmed) aliasMaxLength)
  else if hallowed : trimmed.toList.all isAllowedByte = true then
    .ok ⟨trimmed, hempty, Nat.le_of_not_lt hlength, hallowed⟩
  else .error (.disallowedCharacter (trimmed.toList.findIdx fun c => !isAllowedByte c))

/-- The bytes that are sealed and fingerprinted. -/
def asBytes (a : NormalizedAlias) : List UInt8 :=
  utf8Bytes a.text

theorem isWhiteSpace_of_isAllowedByte {c : Char} (h : isAllowedByte c = true) :
    isWhiteSpace c = false := by
  simp only [isAllowedByte, Bool.or_eq_true, Bool.and_eq_true, decide_eq_true_eq, beq_iff_eq] at h
  rcases h with ((h | rfl) | rfl)
  · simp only [isWhiteSpace, Bool.or_eq_false_iff, Bool.and_eq_false_iff, decide_eq_false_iff_not,
      beq_eq_false_iff_ne]
    omega
  · rfl
  · rfl

/-- There is nothing to trim of an alias. -/
theorem trim_text (a : NormalizedAlias) : trim a.text = a.text := by
  have hkeep : ∀ c ∈ a.text.toList, isWhiteSpace c = false := fun c hc =>
    isWhiteSpace_of_isAllowedByte (List.all_eq_true.mp a.allowed c hc)
  have hdrop : ∀ chars : List Char, (∀ c ∈ chars, isWhiteSpace c = false) →
      chars.dropWhile isWhiteSpace = chars := by
    intro chars hchars
    cases chars with
    | nil => rfl
    | cons c chars => rw [List.dropWhile_cons_of_neg (by simp [hchars c List.mem_cons_self])]
  rw [trim, hdrop _ hkeep, hdrop _ fun c hc => hkeep c (List.mem_reverse.mp hc),
    List.reverse_reverse, String.ofList_toList]

@[simp]
theorem parse_text (a : NormalizedAlias) : parse a.text = .ok a := by
  simp only [parse, trim_text]
  rw [dif_neg a.ne_empty, dif_neg (Nat.not_lt.mpr a.length_le), dif_pos a.allowed]

end NormalizedAlias

/-! ### References -/

/-- `SecretRef`. -/
inductive SecretRef where
  | byId (secretId : SecretId)
  | byAlias (requested : NormalizedAlias)
  deriving DecidableEq

/-- `SecretRef::parse`: what reads as an identifier is one. -/
def SecretRef.parse (value : String) : Except InputError SecretRef :=
  let trimmed := trim value
  match SecretId.parse trimmed with
  | .ok secretId => .ok (.byId secretId)
  | .error _ => (SecretRef.byAlias <$> NormalizedAlias.parse trimmed).mapError
      fun _ => .invalidSecretAlias

namespace SecretRef

theorem parse_alias_text (a : NormalizedAlias) :
    parse a.text = match SecretId.parse a.text with
      | .ok secretId => .ok (.byId secretId)
      | .error _ => .ok (.byAlias a) := by
  simp only [parse, a.trim_text, a.parse_text]
  cases SecretId.parse a.text <;> rfl

end SecretRef

/-! ### Aliases that read as identifiers -/

/-- The text spells an identifier: thirty-two hexadecimal digits of which the thirteenth is a 4,
alone or in the groups of the hyphenated form. -/
def SpellsUuidV4 (text : List Char) : Prop :=
  ∃ digits, digits.length = 32 ∧ (∀ c ∈ digits, (hexValue c).isSome = true) ∧
    digits[12]? = some '4' ∧ Uuid.Spells digits text

/-- **The aliases that read as identifiers.** An alias has neither braces nor colons, so that the
other two forms of a UUID are out. -/
theorem NormalizedAlias.exists_secretId_iff (a : NormalizedAlias) :
    (∃ id, SecretId.parse a.text = .ok id) ↔ SpellsUuidV4 a.text.toList := by
  have hnot : ∀ c, isAllowedByte c = false → c ∉ a.text.toList := fun c hc hmem => by
    rw [List.all_eq_true.mp a.allowed c hmem] at hc
    cases hc
  have hparse : ∀ u, Uuid.parse a.text = some u ↔ ∃ digits, digits.length = 32 ∧
      Uuid.parseSimple digits = some u ∧ Uuid.Spells digits a.text.toList := fun u =>
    Uuid.parse_eq_some_iff (hnot '{' rfl) (hnot ':' rfl)
  simp only [SecretId.parse_eq_ok, hparse]
  constructor
  · rintro ⟨id, digits, hlength, hsimple, hspells⟩
    exact ⟨digits, hlength,
      (Uuid.isSome_parseSimple hlength).mp (Option.isSome_iff_exists.mpr ⟨_, hsimple⟩),
      (Uuid.version_of_parseSimple hsimple hlength).mp id.version_eq, hspells⟩
  · rintro ⟨digits, hlength, hhex, hfour, hspells⟩
    obtain ⟨u, hsimple⟩ := Option.isSome_iff_exists.mp ((Uuid.isSome_parseSimple hlength).mpr hhex)
    exact ⟨⟨u, (Uuid.version_of_parseSimple hsimple hlength).mpr hfour⟩, digits, hlength, hsimple,
      hspells⟩

/-- **Which aliases are read as aliases**: those that do not spell an identifier. -/
theorem SecretRef.parse_alias_iff (a : NormalizedAlias) :
    SecretRef.parse a.text = .ok (.byAlias a) ↔ ¬SpellsUuidV4 a.text.toList := by
  rw [← a.exists_secretId_iff, SecretRef.parse_alias_text]
  cases SecretId.parse a.text with
  | error e => simp
  | ok id => simp

end Mipsorcu
