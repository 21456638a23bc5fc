import Mipsorcu.Foundation.Bytes
import Mipsorcu.Foundation.Reader
import Mipsorcu.Foundation.SortedMap
import Mathlib.Data.String.Basic

/-!
# JSON values and their compact text

`Json` is a JSON value whose objects are lists of members, in the order in which they are
written. `Json.write` is the compact writer (no blanks, minimal escapes) and `Json.read` the
matching reader, which like the usual libraries gives up below a nesting limit. The reader
inverts the writer (`Json.parse_write`), so the text determines the value
(`Json.write_injective`).

A library whose object type is an ordered map keeps the members sorted by key;
`Json.normalize` is that form.
-/

namespace Mipsorcu

/-- The characters of a number. -/
def isNumberChar (c : Char) : Bool :=
  c.isDigit || c == '-' || c == '+' || c == '.' || c == 'e' || c == 'E'

/-- What may follow the digits of a number: nothing, or an exponent. -/
def isExponentText : List Char → Bool
  | [] => true
  | mark :: rest =>
    let digits := if rest.head? == some '+' || rest.head? == some '-' then rest.drop 1 else rest
    (mark == 'e' || mark == 'E') && digits != [] && digits.all Char.isDigit

/-- The grammar of a number: an optional minus sign, digits with no needless zero in front, an
optional fraction and an optional exponent. -/
def isNumberText (text : List Char) : Bool :=
  let body := if text.head? == some '-' then text.drop 1 else text
  let digits := body.takeWhile Char.isDigit
  (digits == ['0'] || digits.head?.any (· != '0')) &&
    match body.dropWhile Char.isDigit with
    | '.' :: rest => rest.head?.any Char.isDigit && isExponentText (rest.dropWhile Char.isDigit)
    | rest => isExponentText rest

/-- The text of a floating point number: that of a number with a point or an exponent. -/
def isFloatText (text : List Char) : Bool :=
  text.all isNumberChar && (text.head?.any fun c => c.isDigit || c == '-') &&
    (text.any fun c => c == '.' || c == 'e' || c == 'E') && isNumberText text

/-- A JSON number, as the usual libraries distinguish them. A floating point number is kept as
the text it is printed with; a library that reads it into 64 bits may print another text for it,
so that `Json.isExact` leaves it out. -/
inductive JsonNumber where
  | posInt (n : ℕ)
  /-- The number `-(n + 1)`. -/
  | negInt (n : ℕ)
  | float (text : List Char) (valid : isFloatText text = true)
  deriving DecidableEq

/-- A JSON value. -/
inductive Json where
  | null
  | bool (b : Bool)
  | number (n : JsonNumber)
  | string (s : String)
  | array (items : List Json)
  | object (members : List (String × Json))

namespace Json

/-! ### Decidable equality -/

mutual

/-- Equality test of values. -/
def same : Json → Json → Bool
  | null, null => true
  | bool a, bool b => a == b
  | number a, number b => a == b
  | string a, string b => a == b
  | array as, array bs => sameItems as bs
  | object as, object bs => sameMembers as bs
  | _, _ => false

/-- Equality test of arrays. -/
def sameItems : List Json → List Json → Bool
  | [], [] => true
  | a :: as, b :: bs => same a b && sameItems as bs
  | _, _ => false

/-- Equality test of objects, member by member. -/
def sameMembers : List (String × Json) → List (String × Json) → Bool
  | [], [] => true
  | a :: as, b :: bs => sameMember a b && sameMembers as bs
  | _, _ => false

/-- Equality test of members. -/
def sameMember : String × Json → String × Json → Bool
  | (k, a), (l, b) => k == l && same a b

end

mutual

theorem same_iff : ∀ a b : Json, same a b = true ↔ a = b
  | null, b => by cases b <;> simp [same]
  | bool _, b => by cases b <;> simp [same]
  | number _, b => by cases b <;> simp [same]
  | string _, b => by cases b <;> simp [same]
  | array as, b => by cases b <;> simp [same, sameItems_iff as]
  | object as, b => by cases b <;> simp [same, sameMembers_iff as]

theorem sameItems_iff : ∀ as bs : List Json, sameItems as bs = true ↔ as = bs
  | [], bs => by cases bs <;> simp [sameItems]
  | a :: as, bs => by cases bs <;> simp [sameItems, same_iff a, sameItems_iff as]

theorem sameMembers_iff : ∀ as bs : List (String × Json), sameMembers as bs = true ↔ as = bs
  | [], bs => by cases bs <;> simp [sameMembers]
  | a :: as, bs => by cases bs <;> simp [sameMembers, sameMember_iff a, sameMembers_iff as]

theorem sameMember_iff : ∀ a b : String × Json, sameMember a b = true ↔ a = b
  | (k, a), (l, b) => by simp [sameMember, same_iff a b]

end

instance : DecidableEq Json := fun a b => decidable_of_iff _ (same_iff a b)

/-! ### Writing -/

/-- The escape of one character: the short escapes, `\u00xx` for the other control characters,
every other character as it is. -/
def escapeChar (c : Char) : List Char :=
  if c.toNat = 34 then ['\\', '"']
  else if c.toNat = 92 then ['\\', '\\']
  else if c.toNat = 8 then ['\\', 'b']
  else if c.toNat = 9 then ['\\', 't']
  else if c.toNat = 10 then ['\\', 'n']
  else if c.toNat = 12 then ['\\', 'f']
  else if c.toNat = 13 then ['\\', 'r']
  else if c.toNat < 32 then
    ['\\', 'u', '0', '0', hexDigit (c.toNat / 16), hexDigit (c.toNat % 16)]
  else [c]

/-- A quoted string. -/
def writeString (s : String) : List Char :=
  '"' :: (s.toList.flatMap escapeChar ++ ['"'])

/-- A non-negative integer as a JSON number. -/
def nat (n : ℕ) : Json :=
  .number (.posInt n)

/-- The value of an optional field; one that is missing is written as `null`. -/
def orNull {α : Type} (toJson : α → Json) : Option α → Json
  | some a => toJson a
  | none => .null

/-- The text of a number. -/
def writeNumber : JsonNumber → List Char
  | .posInt n => Nat.toDigits 10 n
  | .negInt n => '-' :: Nat.toDigits 10 (n + 1)
  | .float text _ => text

mutual

/-- The compact text of a value. -/
def write : Json → List Char
  | null => ['n', 'u', 'l', 'l']
  | bool true => ['t', 'r', 'u', 'e']
  | bool false => ['f', 'a', 'l', 's', 'e']
  | number n => writeNumber n
  | string s => writeString s
  | array [] => ['[', ']']
  | array (a :: as) => '[' :: (a.write ++ writeMore as)
  | object [] => ['{', '}']
  | object (m :: ms) => '{' :: (writeMember m ++ writeMoreMembers ms)

/-- The rest of an array, up to its end. -/
def writeMore : List Json → List Char
  | [] => [']']
  | a :: as => ',' :: (a.write ++ writeMore as)

/-- The rest of an object, up to its end. -/
def writeMoreMembers : List (String × Json) → List Char
  | [] => ['}']
  | m :: ms => ',' :: (writeMember m ++ writeMoreMembers ms)

/-- One member of an object. -/
def writeMember : String × Json → List Char
  | (k, v) => writeString k ++ ':' :: v.write

end

theorem writeMore_eq (items : List Json) : writeMore items = writeItems ']' write items := by
  induction items with
  | nil => rfl
  | cons a items ih => rw [writeMore, writeItems, ih]

theorem writeMoreMembers_eq (members : List (String × Json)) :
    writeMoreMembers members = writeItems '}' writeMember members := by
  induction members with
  | nil => rfl
  | cons m members ih => rw [writeMoreMembers, writeItems, ih]

theorem write_array (items : List Json) :
    write (array items) = '[' :: writeSequence ']' write items := by
  cases items with
  | nil => rfl
  | cons a items => rw [write, writeSequence, writeMore_eq]

theorem write_object (members : List (String × Json)) :
    write (object members) = '{' :: writeSequence '}' writeMember members := by
  cases members with
  | nil => rfl
  | cons m members => rw [write, writeSequence, writeMoreMembers_eq]

/-! ### Nesting depth -/

mutual

/-- How deeply arrays and objects are nested. -/
def depth : Json → ℕ
  | array items => depthItems items + 1
  | object members => depthMembers members + 1
  | _ => 0

/-- The greatest depth of an item. -/
def depthItems : List Json → ℕ
  | [] => 0
  | a :: as => max a.depth (depthItems as)

/-- The greatest depth of a member's value. -/
def depthMembers : List (String × Json) → ℕ
  | [] => 0
  | m :: ms => max (depthMember m) (depthMembers ms)

/-- The depth of a member's value. -/
def depthMember : String × Json → ℕ
  | (_, v) => v.depth

end

/-! ### Numbers of 64 bits -/

mutual

/-- Every number is an integer of 64 bits: such values come back as they were from a library that
keeps all other numbers as floating point numbers. -/
def isExact : Json → Bool
  | number (.posInt n) => decide (n < 18446744073709551616)
  | number (.negInt n) => decide (n < 9223372036854775808)
  | number (.float _ _) => false
  | array items => isExactItems items
  | object members => isExactMembers members
  | _ => true

/-- All items are exact. -/
def isExactItems : List Json → Bool
  | [] => true
  | a :: as => a.isExact && isExactItems as

/-- All values of members are exact. -/
def isExactMembers : List (String × Json) → Bool
  | [] => true
  | m :: ms => isExactMember m && isExactMembers ms

/-- The value of a member is exact. -/
def isExactMember : String × Json → Bool
  | (_, v) => v.isExact

end

/-! ### Bounds of the depth -/

theorem depth_orNull {α : Type} {toJson : α → Json} (h : ∀ a, (toJson a).depth = 0)
    (x : Option α) : (orNull toJson x).depth = 0 := by
  cases x with
  | none => rfl
  | some a => exact h a

theorem depth_le_depthItems {items : List Json} {a : Json} (h : a ∈ items) :
    a.depth ≤ depthItems items := by
  induction items with
  | nil => simp at h
  | cons b items ih =>
    rw [depthItems]
    rcases List.mem_cons.mp h with rfl | h
    · exact le_max_left _ _
    · exact (ih h).trans (le_max_right _ _)

variable {members : List (String × Json)}

theorem depth_le_depthMembers {m : String × Json} (h : m ∈ members) :
    m.2.depth ≤ depthMembers members := by
  induction members with
  | nil => simp at h
  | cons n members ih =>
    rw [depthMembers]
    rcases List.mem_cons.mp h with rfl | h
    · obtain ⟨k, v⟩ := m
      exact Nat.le_max_left v.depth _
    · exact (ih h).trans (Nat.le_max_right _ _)

theorem depthMembers_le {n : ℕ} (h : ∀ m ∈ members, m.2.depth ≤ n) : depthMembers members ≤ n := by
  induction members with
  | nil => exact Nat.zero_le n
  | cons m members ih =>
    obtain ⟨key, value⟩ := m
    obtain ⟨hvalue, hmembers⟩ := List.forall_mem_cons.mp h
    exact Nat.max_le.mpr ⟨hvalue, ih hmembers⟩

/-! ### Reading -/

/-- The character a short escape stands for. -/
def unescape (c : Char) : Option Char :=
  if c.toNat = 34 ∨ c.toNat = 92 ∨ c.toNat = 47 then some c
  else if c = 'b' then some (Char.ofNat 8)
  else if c = 't' then some (Char.ofNat 9)
  else if c = 'n' then some (Char.ofNat 10)
  else if c = 'f' then some (Char.ofNat 12)
  else if c = 'r' then some (Char.ofNat 13)
  else none

/-- Puts a character in front of what has been read. -/
def consChar (c : Char) : List Char × List Char → List Char × List Char
  | (cs, text) => (c :: cs, text)

/-- Reads up to the closing quote. Of the `\u` escapes only those the writer uses are read. -/
def readStringBody : Reader (List Char)
  | [] => none
  | '"' :: text => some ([], text)
  | '\\' :: 'u' :: '0' :: '0' :: hi :: lo :: text =>
    match hexValue hi, hexValue lo with
    | some h, some l => (readStringBody text).map (consChar (Char.ofNat (16 * h + l)))
    | _, _ => none
  | '\\' :: e :: text =>
    match unescape e with
    | some c => (readStringBody text).map (consChar c)
    | none => none
  | c :: text => if c.toNat < 32 then none else (readStringBody text).map (consChar c)

/-- Reads a quoted string. -/
def readString : Reader String
  | '"' :: text => (readStringBody text).map fun (cs, text) => (String.ofList cs, text)
  | _ => none

/-- Classifies the text of a number. -/
def numberOfText (text : List Char) : Option JsonNumber :=
  if h : isFloatText text = true then some (.float text h)
  else match text with
    | '-' :: digits =>
      if digits ≠ [] ∧ digits.all Char.isDigit then
        some (.negInt (Nat.ofDigitChars 10 digits 0 - 1))
      else none
    | digits =>
      if digits ≠ [] ∧ digits.all Char.isDigit then some (.posInt (Nat.ofDigitChars 10 digits 0))
      else none

/-- Reads a number. -/
def readNumber : Reader JsonNumber := fun text => do
  let (literal, text) ← readWhile isNumberChar text
  let n ← numberOfText literal
  pure (n, text)

/-- Reads a value that is neither an array nor an object. -/
def readScalar : Reader Json
  | 'n' :: 'u' :: 'l' :: 'l' :: text => some (null, text)
  | 't' :: 'r' :: 'u' :: 'e' :: text => some (bool true, text)
  | 'f' :: 'a' :: 'l' :: 's' :: 'e' :: text => some (bool false, text)
  | '"' :: text => (readString ('"' :: text)).map fun (s, text) => (string s, text)
  | text => (readNumber text).map fun (n, text) => (number n, text)

/-- Reads one member of an object, given the reader of its value. -/
def readMember (value : Reader Json) : Reader (String × Json) := fun text => do
  let (k, text) ← readString text
  match text with
  | ':' :: text => do
    let (v, text) ← value text
    pure ((k, v), text)
  | _ => none

/-- Reads a value with at most `limit` nested arrays and objects. -/
def readValue : ℕ → Reader Json
  | 0, text => readScalar text
  | limit + 1, '[' :: text =>
    (readSequence ']' (readValue limit) text).map fun (items, text) => (array items, text)
  | limit + 1, '{' :: text =>
    (readSequence '}' (readMember (readValue limit)) text).map
      fun (members, text) => (object members, text)
  | _ + 1, text => readScalar text

/-- Reads a whole text as a value with at most `limit` nested arrays and objects. -/
def parse (limit : ℕ) (text : List Char) : Option Json :=
  match readValue limit text with
  | some (v, []) => some v
  | _ => none

/-! ### The reader inverts the writer -/

private theorem isNumberChar_of_isDigit {c : Char} (h : c.isDigit = true) :
    isNumberChar c = true := by
  simp [isNumberChar, h]

private theorem isDigit_toDigits (n : ℕ) : ∀ c ∈ Nat.toDigits 10 n, c.isDigit = true :=
  fun _ hc => Nat.isDigit_of_mem_toDigits (by decide) (by decide) hc

private theorem isFloatText_digits {digits : List Char} (h : ∀ c ∈ digits, c.isDigit = true) :
    isFloatText digits = false := by
  have hany : (digits.any fun c => c == '.' || c == 'e' || c == 'E') = false := by
    rw [List.any_eq_false]
    intro c hc hmark
    simp only [Bool.or_eq_true, beq_iff_eq] at hmark
    rcases hmark with (rfl | rfl) | rfl <;> exact absurd (h _ hc) (by decide)
  rw [isFloatText, hany, Bool.and_false, Bool.false_and]

private theorem isFloatText_neg_digits {digits : List Char}
    (h : ∀ c ∈ digits, c.isDigit = true) : isFloatText ('-' :: digits) = false := by
  have hany : (('-' :: digits).any fun c => c == '.' || c == 'e' || c == 'E') = false := by
    rw [List.any_eq_false]
    intro c hc hmark
    simp only [Bool.or_eq_true, beq_iff_eq] at hmark
    rcases List.mem_cons.mp hc with rfl | hc
    · simp at hmark
    · rcases hmark with (rfl | rfl) | rfl <;> exact absurd (h _ hc) (by decide)
  rw [isFloatText, hany, Bool.and_false, Bool.false_and]

theorem numberOfText_writeNumber (n : JsonNumber) : numberOfText (writeNumber n) = some n := by
  cases n with
  | posInt n =>
    have hdigits := isDigit_toDigits n
    have hne : Nat.toDigits 10 n ≠ [] := Nat.toDigits_ne_nil
    have hall : (Nat.toDigits 10 n).all Char.isDigit = true := by
      simpa [List.all_eq_true] using hdigits
    -- digits are not taken for a negative number
    have hminus : ∀ rest, Nat.toDigits 10 n ≠ '-' :: rest := by
      intro rest h
      exact absurd (hdigits '-' (by rw [h]; exact List.mem_cons_self)) (by decide)
    rw [writeNumber, numberOfText, dif_neg (by simp [isFloatText_digits hdigits])]
    split
    · exact absurd ‹_› (hminus _)
    · rw [if_pos ⟨hne, hall⟩, Nat.ofDigitChars_ten_toDigits]
  | negInt n =>
    have hdigits := isDigit_toDigits (n + 1)
    have hne : Nat.toDigits 10 (n + 1) ≠ [] := Nat.toDigits_ne_nil
    have hall : (Nat.toDigits 10 (n + 1)).all Char.isDigit = true := by
      simpa [List.all_eq_true] using hdigits
    rw [writeNumber, numberOfText, dif_neg (by simp [isFloatText_neg_digits hdigits])]
    simp only [hne, ne_eq, not_false_eq_true, hall, and_self, if_true,
      Nat.ofDigitChars_ten_toDigits, Nat.add_sub_cancel]
  | float text valid => rw [writeNumber, numberOfText, dif_pos valid]

theorem writeNumber_isNumberChar (n : JsonNumber) :
    ∀ c ∈ writeNumber n, isNumberChar c = true := by
  intro c hc
  cases n with
  | posInt n => exact isNumberChar_of_isDigit (isDigit_toDigits n c hc)
  | negInt n =>
    rcases List.mem_cons.mp hc with rfl | hc
    · rfl
    · exact isNumberChar_of_isDigit (isDigit_toDigits _ c hc)
  | float text valid =>
    simp only [isFloatText, Bool.and_eq_true, List.all_eq_true] at valid
    exact valid.1.1.1 c hc

/-- What may follow a value: anything that does not continue a number. -/
abbrev ValueEnd : List Char → Prop := StopsAt isNumberChar

theorem readNumber_reads (n : JsonNumber) : Reads readNumber (writeNumber n) n ValueEnd := by
  intro rest hrest
  have hread := readWhile_reads (writeNumber_isNumberChar n) rest hrest
  rw [readNumber, hread]
  simp [numberOfText_writeNumber]

private theorem readStringBody_shortEscape {e c : Char} (he : e ≠ 'u')
    (h : unescape e = some c) (text : List Char) :
    readStringBody ('\\' :: e :: text) = (readStringBody text).map (consChar c) := by
  rw [readStringBody.eq_def]
  simp [he, h]

/-- One escaped character is read back as the character. -/
private theorem readStringBody_escapeChar (c : Char) (text : List Char) :
    readStringBody (escapeChar c ++ text) = (readStringBody text).map (consChar c) := by
  -- the short escapes are those of seven characters, fixed by their codes
  have short : ∀ {e : Char}, e ≠ 'u' → escapeChar c = ['\\', e] → unescape e = some c →
      readStringBody (escapeChar c ++ text) = (readStringBody text).map (consChar c) :=
    fun he hc h => by rw [hc]; exact readStringBody_shortEscape he h text
  have ofCode : ∀ {k : ℕ}, c.toNat = k → c = Char.ofNat k := fun h => by
    rw [← h, Char.ofNat_toNat]
  by_cases hquote : c.toNat = 34
  · obtain rfl := ofCode hquote; exact short (by decide) rfl rfl
  by_cases hback : c.toNat = 92
  · obtain rfl := ofCode hback; exact short (by decide) rfl rfl
  by_cases h8 : c.toNat = 8
  · obtain rfl := ofCode h8; exact short (by decide) rfl rfl
  by_cases h9 : c.toNat = 9
  · obtain rfl := ofCode h9; exact short (by decide) rfl rfl
  by_cases h10 : c.toNat = 10
  · obtain rfl := ofCode h10; exact short (by decide) rfl rfl
  by_cases h12 : c.toNat = 12
  · obtain rfl := ofCode h12; exact short (by decide) rfl rfl
  by_cases h13 : c.toNat = 13
  · obtain rfl := ofCode h13; exact short (by decide) rfl rfl
  by_cases hcontrol : c.toNat < 32
  · have hc : Char.ofNat (16 * (c.toNat / 16) + c.toNat % 16) = c := by
      rw [Nat.div_add_mod, Char.ofNat_toNat]
    simp only [escapeChar, hquote, hback, h8, h9, h10, h12, h13, hcontrol, if_false, if_true,
      List.cons_append, List.nil_append, readStringBody,
      hexValue_hexDigit (show c.toNat / 16 < 16 by omega),
      hexValue_hexDigit (show c.toNat % 16 < 16 by omega), hc]
  · have hq : c ≠ '"' := by rintro rfl; exact hquote rfl
    have hb : c ≠ '\\' := by rintro rfl; exact hback rfl
    have hescape : escapeChar c = [c] := by
      simp only [escapeChar, hquote, hback, h8, h9, h10, h12, h13, hcontrol, if_false]
    rw [hescape, List.singleton_append, readStringBody, if_neg hcontrol]
    · exact hq
    all_goals intros; exact hb ‹_›

private theorem readStringBody_reads (cs : List Char) (text : List Char) :
    readStringBody (cs.flatMap escapeChar ++ '"' :: text) = some (cs, text) := by
  induction cs with
  | nil => rfl
  | cons c cs ih =>
    rw [List.flatMap_cons, List.append_assoc, readStringBody_escapeChar, ih, Option.map_some,
      consChar]

theorem readString_reads (s : String) :
    Reads readString (writeString s) s fun _ => True := by
  intro rest _
  simp [writeString, readString, readStringBody_reads, String.ofList_toList]

/-- A number starts with a digit or a minus sign. -/
theorem writeNumber_head (n : JsonNumber) :
    ∃ c text, writeNumber n = c :: text ∧ (c.isDigit = true ∨ c = '-') := by
  cases n with
  | posInt n =>
    obtain ⟨c, text, h⟩ := List.exists_cons_of_ne_nil (Nat.toDigits_ne_nil (n := n) (b := 10))
    exact ⟨c, text, h, .inl (isDigit_toDigits n c (by rw [h]; exact List.mem_cons_self))⟩
  | negInt n => exact ⟨'-', _, rfl, .inr rfl⟩
  | float text valid =>
    cases text with
    | nil => simp [isFloatText] at valid
    | cons c text =>
      simp only [isFloatText, Bool.and_eq_true, List.head?_cons, Option.any_some, Bool.or_eq_true,
        beq_iff_eq] at valid
      exact ⟨c, text, rfl, valid.1.1.2⟩

private theorem readScalar_number {text : List Char} {c : Char} {n : JsonNumber}
    {rest : List Char} (hc : c.isDigit = true ∨ c = '-')
    (h : readNumber (c :: text) = some (n, rest)) :
    readScalar (c :: text) = some (number n, rest) := by
  have hstart : c ≠ 'n' ∧ c ≠ 't' ∧ c ≠ 'f' ∧ c ≠ '"' := by
    refine ⟨?_, ?_, ?_, ?_⟩ <;> rintro rfl <;> simp at hc
  rw [readScalar.eq_def]
  simp [hstart, h]

variable {v : Json}

/-- A value that is neither an array nor an object is read back. -/
theorem readScalar_reads (h : v.depth = 0) : Reads readScalar v.write v ValueEnd := by
  intro rest hrest
  cases v with
  | null => rfl
  | bool b => cases b <;> rfl
  | number n =>
    obtain ⟨c, text, hwrite, hc⟩ := writeNumber_head n
    have hread := readNumber_reads n rest hrest
    rw [hwrite, List.cons_append] at hread
    rw [write, hwrite, List.cons_append]
    exact readScalar_number hc hread
  | string s =>
    have hread := readString_reads s rest trivial
    rw [writeString, List.cons_append] at hread
    rw [write, writeString, List.cons_append, readScalar, hread, Option.map_some]
  | array items => simp [depth] at h
  | object members => simp [depth] at h

/-- How the text of a value starts: never like the end of an array, and like an array or an
object only if it is one. -/
theorem write_head (v : Json) :
    ∃ c text, v.write = c :: text ∧ c ≠ ']' ∧ (v.depth = 0 → c ≠ '[' ∧ c ≠ '{') := by
  cases v with
  | null => exact ⟨_, _, rfl, by decide⟩
  | bool b => cases b <;> exact ⟨_, _, rfl, by decide⟩
  | number n =>
    obtain ⟨c, text, hwrite, hc⟩ := writeNumber_head n
    have hne : ∀ d : Char, d.isDigit = false → d ≠ '-' → c ≠ d := by
      rintro d hd hminus rfl
      simp [hd, hminus] at hc
    exact ⟨c, text, hwrite, hne _ rfl (by decide), fun _ =>
      ⟨hne _ rfl (by decide), hne _ rfl (by decide)⟩⟩
  | string s => exact ⟨_, _, rfl, by decide, fun _ => by decide⟩
  | array items => exact ⟨_, _, write_array items, by decide, by simp [depth]⟩
  | object members => exact ⟨_, _, write_object members, by decide, by simp [depth]⟩

private theorem readMember_reads {value : Reader Json} {m : String × Json}
    (h : Reads value m.2.write m.2 ValueEnd) :
    Reads (readMember value) (writeMember m) m ValueEnd := by
  intro rest hrest
  obtain ⟨k, v⟩ := m
  have hkey := readString_reads k (':' :: (v.write ++ rest)) trivial
  rw [writeMember, List.append_assoc, List.cons_append, readMember, hkey]
  simp [h rest hrest]

private theorem readValue_eq_readScalar (limit : ℕ) (h : v.depth = 0) (rest : List Char) :
    readValue limit (v.write ++ rest) = readScalar (v.write ++ rest) := by
  obtain ⟨c, text, hwrite, -, hc⟩ := write_head v
  obtain ⟨hbracket, hbrace⟩ := hc h
  rw [hwrite, List.cons_append]
  cases limit with
  | zero => rfl
  | succ limit =>
    rw [readValue]
    · intro _ heq; exact hbracket (List.cons.inj heq).1
    · intro _ heq; exact hbrace (List.cons.inj heq).1

/-- The reader inverts the writer on every value within the nesting limit. -/
theorem readValue_reads (limit : ℕ) (h : v.depth ≤ limit) :
    Reads (readValue limit) v.write v ValueEnd := by
  -- the limit is on the depth, which is smaller for the items
  induction limit generalizing v with
  | zero => exact readScalar_reads (Nat.le_zero.mp h)
  | succ limit ih =>
    intro rest hrest
    have hend : ∀ c rest, isNumberChar c = false → ValueEnd (c :: rest) :=
      fun c rest hc => stopsAt_cons rest hc
    by_cases hscalar : v.depth = 0
    · rw [readValue_eq_readScalar _ hscalar, readScalar_reads hscalar rest hrest]
    cases v with
    | array items =>
      have hitems := readSequence_reads (fun rest => hend ']' rest rfl)
        (fun rest => hend ',' rest rfl) (by decide) items
        (fun a ha => ih ((depth_le_depthItems ha).trans (Nat.le_of_succ_le_succ h)))
        (fun a _ => (write_head a).imp fun _ => Exists.imp fun _ hw => ⟨hw.1, hw.2.1⟩)
        rest trivial
      rw [write_array, List.cons_append, readValue, hitems, Option.map_some]
    | object members =>
      have hmembers := readSequence_reads (fun rest => hend '}' rest rfl)
        (fun rest => hend ',' rest rfl) (by decide) members
        (fun m hm => readMember_reads
          (ih ((depth_le_depthMembers hm).trans (Nat.le_of_succ_le_succ h))))
        (fun (k, v) _ => ⟨'"', _, by rw [writeMember, writeString, List.cons_append], by decide⟩)
        rest trivial
      rw [write_object, List.cons_append, readValue, hmembers, Option.map_some]
    | _ => exact absurd (by simp only [depth]) hscalar

/-- **Round trip**: parsing the compact text of a value gives the value. -/
theorem parse_write {limit : ℕ} (h : v.depth ≤ limit) : parse limit v.write = some v := by
  have hread := readValue_reads limit h [] (stopsAt_nil _)
  rw [List.append_nil] at hread
  rw [parse, hread]

/-- The compact text determines the value. -/
theorem write_injective : Function.Injective write := by
  intro v w h
  have hv : parse (max v.depth w.depth) v.write = some v := parse_write (le_max_left _ _)
  rw [h, parse_write (le_max_right _ _)] at hv
  exact (Option.some.inj hv).symm

/-! ### Bytes -/

/-- The compact text as a string. -/
def toText (v : Json) : String :=
  String.ofList v.write

/-- The compact text as UTF-8 bytes. -/
def toBytes (v : Json) : List UInt8 :=
  utf8Bytes v.toText

theorem toBytes_injective : Function.Injective toBytes := by
  intro v w h
  have htext : v.toText = w.toText := utf8Bytes_injective h
  exact write_injective (String.ofList_injective htext)

theorem length_escapeChar_le (c : Char) : (escapeChar c).length ≤ 6 := by
  unfold escapeChar
  split_ifs <;> exact Nat.le_of_ble_eq_true rfl

/-- A quoted text has at most six characters for each of its own. -/
theorem length_writeString_le (s : String) : (writeString s).length ≤ 6 * s.length + 2 := by
  have hbody : (s.toList.flatMap escapeChar).length ≤ 6 * s.toList.length := by
    induction s.toList with
    | nil => exact Nat.le_refl _
    | cons c cs ih =>
      have hchar := length_escapeChar_le c
      rw [List.flatMap_cons, List.length_append, List.length_cons]
      omega
  rw [writeString, List.length_cons, List.length_append, List.length_singleton,
    ← String.length_toList]
  omega

theorem length_toBytes_le (v : Json) : v.toBytes.length ≤ 4 * v.write.length := by
  have hle := length_utf8Bytes_le v.toText
  rwa [toText, ← String.length_toList, String.toList_ofList] at hle

/-! ### Keys at any depth -/

mutual

/-- The keys of all objects in the value, in the order of the text: each key before the keys of its
value. -/
def keys : Json → List String
  | object members => keysMembers members
  | array items => keysItems items
  | _ => []

/-- The keys of the members of an object. -/
def keysMembers : List (String × Json) → List String
  | [] => []
  | m :: ms => keysMember m ++ keysMembers ms

/-- The key of a member and the keys of its value. -/
def keysMember : String × Json → List String
  | (key, value) => key :: keys value

/-- The keys of the items of an array. -/
def keysItems : List Json → List String
  | [] => []
  | v :: vs => keys v ++ keysItems vs

end

/-! ### Objects as ordered maps -/

mutual

/-- The value with the members of every object in key order, a later member replacing an
earlier one of the same key. -/
def normalize : Json → Json
  | array items => array (normalizeItems items)
  | object members => object (SortedMap.ofList (normalizeMembers members))
  | v => v

/-- Normalizes the items of an array. -/
def normalizeItems : List Json → List Json
  | [] => []
  | a :: as => a.normalize :: normalizeItems as

/-- Normalizes the members of an object. -/
def normalizeMembers : List (String × Json) → List (String × Json)
  | [] => []
  | m :: ms => normalizeMember m :: normalizeMembers ms

/-- Normalizes one member. -/
def normalizeMember : String × Json → String × Json
  | (k, v) => (k, v.normalize)

end

/-- Only objects are changed, and what contains one is nested. -/
theorem normalize_of_depth_eq_zero {v : Json} (h : v.depth = 0) : v.normalize = v := by
  cases v with
  | array items => cases h
  | object members => cases h
  | _ => rfl

theorem normalizeMembers_append (xs ys : List (String × Json)) :
    normalizeMembers (xs ++ ys) = normalizeMembers xs ++ normalizeMembers ys := by
  induction xs with
  | nil => rfl
  | cons x xs ih => rw [List.cons_append, normalizeMembers, normalizeMembers, ih, List.cons_append]

theorem normalizeMembers_of_normal (h : ∀ m ∈ members, m.2.normalize = m.2) :
    normalizeMembers members = members := by
  induction members with
  | nil => rfl
  | cons m members ih =>
    obtain ⟨key, value⟩ := m
    rw [normalizeMembers, ih fun m hm => h m (List.mem_cons_of_mem _ hm), normalizeMember,
      h (key, value) List.mem_cons_self]

mutual

/-- The normal form of a normal form is itself. -/
theorem normalize_normalize : ∀ v : Json, v.normalize.normalize = v.normalize
  | null => rfl
  | bool _ => rfl
  | number _ => rfl
  | string _ => rfl
  | array items => by
    rw [normalize, normalize, normalizeItems_normalizeItems items]
  | object members => by
    rw [normalize, normalize, normalizeMembers_of_normal,
      SortedMap.ofList_eq_self (SortedMap.sorted_ofList _)]
    intro m hm
    exact normal_of_mem_normalizeMembers members m (SortedMap.mem_of_mem_ofList hm)

theorem normalizeItems_normalizeItems :
    ∀ items : List Json, normalizeItems (normalizeItems items) = normalizeItems items
  | [] => rfl
  | a :: as => by
    rw [normalizeItems, normalizeItems, normalize_normalize a, normalizeItems_normalizeItems as]

theorem normal_of_mem_normalizeMembers : ∀ members : List (String × Json),
    ∀ m ∈ normalizeMembers members, m.2.normalize = m.2
  | [] => fun _ hm => by cases hm
  | (key, value) :: members => fun m hm => by
    rw [normalizeMembers, normalizeMember, List.mem_cons] at hm
    rcases hm with rfl | hm
    · exact normalize_normalize value
    · exact normal_of_mem_normalizeMembers members m hm

end

mutual

/-- Members that are replaced do not make a value deeper. -/
theorem depth_normalize_le : ∀ v : Json, v.normalize.depth ≤ v.depth
  | null => le_rfl
  | bool _ => le_rfl
  | number _ => le_rfl
  | string _ => le_rfl
  | array items => by
    rw [normalize, depth, depth]
    exact Nat.succ_le_succ (depthItems_normalizeItems_le items)
  | object members => by
    rw [normalize, depth, depth]
    refine Nat.succ_le_succ (depthMembers_le fun m hm => ?_)
    exact depth_le_of_mem_normalizeMembers members m (SortedMap.mem_of_mem_ofList hm)

theorem depthItems_normalizeItems_le :
    ∀ items : List Json, depthItems (normalizeItems items) ≤ depthItems items
  | [] => le_rfl
  | a :: as => by
    rw [normalizeItems, depthItems, depthItems]
    exact max_le_max (depth_normalize_le a) (depthItems_normalizeItems_le as)

theorem depth_le_of_mem_normalizeMembers : ∀ members : List (String × Json),
    ∀ m ∈ normalizeMembers members, m.2.depth ≤ depthMembers members
  | [] => fun _ hm => by cases hm
  | (key, value) :: members => fun m hm => by
    rw [normalizeMembers, normalizeMember, List.mem_cons] at hm
    rw [depthMembers, depthMember]
    rcases hm with rfl | hm
    · exact (depth_normalize_le value).trans (le_max_left _ _)
    · exact (depth_le_of_mem_normalizeMembers members m hm).trans (le_max_right _ _)

end

end Json

end Mipsorcu
