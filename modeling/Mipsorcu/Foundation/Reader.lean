import Mathlib.Data.List.Basic
import Mathlib.Data.Nat.Notation

/-!
# Readers that invert writers

A reader takes a value off the front of a text and returns what is left. `Reads r text a follow`
says that `r` takes exactly `text` for `a` whenever the rest of the input satisfies `follow`;
the condition is what makes texts without an end mark, such as decimal numbers, readable.

Two building blocks are given: decimal numbers, and separated sequences up to a closing
character.
-/

namespace Mipsorcu

/-- A reader of `α`: the value read and the remaining text. -/
abbrev Reader (α : Type*) := List Char → Option (α × List Char)

/-- `r` reads `text` as `a` in front of every rest that satisfies `follow`. -/
def Reads {α : Type*} (r : Reader α) (text : List Char) (a : α) (follow : List Char → Prop) :
    Prop :=
  ∀ rest, follow rest → r (text ++ rest) = some (a, rest)

/-- The rest starts with no character of the class `p`. -/
def StopsAt (p : Char → Bool) (rest : List Char) : Prop :=
  ∀ c ∈ rest.head?, p c = false

theorem stopsAt_nil (p : Char → Bool) : StopsAt p [] := by simp [StopsAt]

theorem stopsAt_cons {p : Char → Bool} {c : Char} (rest : List Char) (h : p c = false) :
    StopsAt p (c :: rest) := by simpa [StopsAt] using h

/-! ### Runs of characters -/

/-- The longest run of characters of the class `p`. -/
def readWhile (p : Char → Bool) : Reader (List Char) :=
  fun text => some (text.takeWhile p, text.dropWhile p)

theorem readWhile_reads {p : Char → Bool} {text : List Char} (h : ∀ c ∈ text, p c = true) :
    Reads (readWhile p) text text (StopsAt p) := by
  intro rest hrest
  have htake : rest.takeWhile p = [] := by
    cases rest with
    | nil => rfl
    | cons c rest => simp [hrest c rfl]
  have hdrop : rest.dropWhile p = rest := by
    cases rest with
    | nil => rfl
    | cons c rest => simp [hrest c rfl]
  rw [readWhile, List.takeWhile_append_of_pos h, List.dropWhile_append_of_pos h, htake, hdrop,
    List.append_nil]

/-! ### Separated sequences -/

section Sequences

variable {α : Type*}

/-- The items still to come, each after a comma, up to the closing character. -/
def writeItems (close : Char) (write : α → List Char) : List α → List Char
  | [] => [close]
  | a :: rest => ',' :: (write a ++ writeItems close write rest)

/-- The inside of a separated sequence: as `writeItems`, without the first comma. -/
def writeSequence (close : Char) (write : α → List Char) : List α → List Char
  | [] => [close]
  | a :: rest => write a ++ writeItems close write rest

/-- Reads what `writeItems` writes, at most `bound` items. -/
def readItems (close : Char) (item : Reader α) : ℕ → Reader (List α)
  | 0, _ => none
  | _ + 1, [] => none
  | bound + 1, c :: text =>
    if c = close then some ([], text)
    else if c = ',' then do
      let (a, text) ← item text
      let (rest, text) ← readItems close item bound text
      pure (a :: rest, text)
    else none

/-- Reads what `writeSequence` writes. The text bounds the number of items. -/
def readSequence (close : Char) (item : Reader α) : Reader (List α)
  | [] => none
  | c :: text =>
    if c = close then some ([], text)
    else readItems close item (text.length + 2) (',' :: c :: text)

variable {close : Char} {item : Reader α} {write : α → List Char} {follow : List Char → Prop}

private theorem writeItems_follow (write : α → List Char) (hclose : ∀ rest, follow (close :: rest))
    (hcomma : ∀ rest, follow (',' :: rest)) (items : List α) (rest : List Char) :
    follow (writeItems close write items ++ rest) := by
  cases items with
  | nil => exact hclose _
  | cons a items => exact hcomma _

theorem readItems_reads (hclose : ∀ rest, follow (close :: rest))
    (hcomma : ∀ rest, follow (',' :: rest)) (hne : close ≠ ',') (items : List α)
    (hitem : ∀ a ∈ items, Reads item (write a) a follow) (bound : ℕ)
    (hbound : items.length < bound) :
    Reads (readItems close item bound) (writeItems close write items) items fun _ => True := by
  intro rest _
  induction items generalizing bound with
  | nil =>
    obtain ⟨bound, rfl⟩ := Nat.exists_eq_add_of_lt hbound
    simp [writeItems, readItems]
  | cons a items ih =>
    obtain ⟨bound, rfl⟩ : ∃ b, bound = b + 1 := ⟨bound - 1, by omega⟩
    have hread := hitem a List.mem_cons_self _
      (writeItems_follow write hclose hcomma items rest)
    have hrest := ih (fun b hb => hitem b (List.mem_cons_of_mem _ hb)) bound
      (by simpa using hbound)
    simp only [writeItems, List.cons_append, List.append_assoc, readItems, hne.symm, if_false,
      if_true, hread, Option.bind_eq_bind, Option.bind_some, hrest, Option.pure_def]

/-- A sequence is read back when each item is, in front of a comma and in front of the closing
character, and no item starts like the closing character. -/
theorem readSequence_reads (hclose : ∀ rest, follow (close :: rest))
    (hcomma : ∀ rest, follow (',' :: rest)) (hne : close ≠ ',') (items : List α)
    (hitem : ∀ a ∈ items, Reads item (write a) a follow)
    (hstart : ∀ a ∈ items, ∃ c text, write a = c :: text ∧ c ≠ close) :
    Reads (readSequence close item) (writeSequence close write items) items fun _ => True := by
  intro rest hrest
  cases items with
  | nil => simp [writeSequence, readSequence]
  | cons a items =>
    obtain ⟨c, text, hwrite, hc⟩ := hstart a List.mem_cons_self
    have hlength : items.length ≤ (writeItems close write items).length := by
      clear hitem hstart
      induction items with
      | nil => simp
      | cons b items ih => simp only [writeItems, List.length_cons, List.length_append]; omega
    have hread := readItems_reads hclose hcomma hne (a :: items) hitem
      ((text ++ writeItems close write items ++ rest).length + 2)
      (by simp only [List.length_cons, List.length_append]; omega) rest trivial
    simp only [writeItems, hwrite, List.cons_append, List.append_assoc] at hread
    simp only [writeSequence, hwrite, List.cons_append, List.append_assoc, readSequence, hc,
      if_false, hread]

end Sequences

end Mipsorcu
