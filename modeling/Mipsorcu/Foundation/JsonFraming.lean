import Mipsorcu.Foundation.Json
import Mathlib.Data.List.TakeWhile

/-!
# Where the text of a JSON object ends

A scanner that only follows strings and brackets tells where the text of an array or an object
ends. Every text that is read as an array or an object is framed: its first bracket is closed by
its last one (`Json.framed_of_parse`). A framed text with something else behind it is not framed.
-/

namespace Mipsorcu

namespace Json

/-! ### The scanner -/

/-- The white space between the tokens of a text. -/
def isSpace (c : Char) : Bool :=
  c == ' ' || c == '\t' || c == '\n' || c == '\r'

/-- It opens an array or an object. -/
def isOpening (c : Char) : Bool :=
  c == '[' || c == '{'

/-- It closes one. -/
def isClosing (c : Char) : Bool :=
  c == ']' || c == '}'

/-- Where in a text the scanner is: in front of a value or in the middle of a scalar, inside a
string, after a backslash there, or behind a string, an array or an object. -/
inductive ScanMode where
  | between
  | inString
  | escaped
  | after
  deriving DecidableEq

/-- The place and the number of open brackets. -/
structure Scan where
  mode : ScanMode
  depth : ℕ
  deriving DecidableEq

/-- Behind a value only a separator or a closing bracket may follow, and behind the last closing
bracket only white space. -/
def scanChar : Scan → Char → Option Scan
  | ⟨.inString, d⟩, c =>
    some ⟨if c = '"' then .after else if c = '\\' then .escaped else .inString, d⟩
  | ⟨.escaped, d⟩, _ => some ⟨.inString, d⟩
  | ⟨.between, 0⟩, c =>
    if isSpace c then some ⟨.between, 0⟩ else if isOpening c then some ⟨.between, 1⟩ else none
  -- the value is closed: only spaces may follow
  | ⟨.after, 0⟩, c => if isSpace c then some ⟨.after, 0⟩ else none
  | ⟨.between, d + 1⟩, c =>
    if isClosing c then some ⟨.after, d⟩
    else if isOpening c then some ⟨.between, d + 2⟩
    else if c = '"' then some ⟨.inString, d + 1⟩
    else some ⟨.between, d + 1⟩
  | ⟨.after, d + 1⟩, c =>
    if isClosing c then some ⟨.after, d⟩
    else if isSpace c then some ⟨.after, d + 1⟩
    else if c = ',' ∨ c = ':' then some ⟨.between, d + 1⟩
    else none

/-- The scan of a text, from a state. -/
def scan (s : Scan) (text : List Char) : Option Scan :=
  text.foldlM scanChar s

/-- The text is that of one array or object, up to white space around it. -/
def Framed (text : List Char) : Prop :=
  scan ⟨.between, 0⟩ text = some ⟨.after, 0⟩

@[simp]
theorem scan_nil (s : Scan) : scan s [] = some s :=
  rfl

theorem scan_cons (s : Scan) (c : Char) (text : List Char) :
    scan s (c :: text) = (scanChar s c).bind fun s => scan s text :=
  rfl

theorem scan_append (s : Scan) (xs ys : List Char) :
    scan s (xs ++ ys) = (scan s xs).bind fun s => scan s ys :=
  List.foldlM_append

/-- Scanning on from a state that was reached. -/
theorem scan_append_of_eq {s t : Scan} {xs : List Char} (h : scan s xs = some t)
    (ys : List Char) : scan s (xs ++ ys) = scan t ys := by
  rw [scan_append, h]
  rfl

theorem scan_cons_of_eq {s t : Scan} {c : Char} (h : scanChar s c = some t) (text : List Char) :
    scan s (c :: text) = scan t text := by
  rw [scan_cons, h]
  rfl

/-- Characters that leave the state as it is. -/
theorem scan_of_forall {s : Scan} {text : List Char}
    (h : ∀ c ∈ text, scanChar s c = some s) : scan s text = some s := by
  induction text with
  | nil => rfl
  | cons c text ih =>
    obtain ⟨hc, htext⟩ := List.forall_mem_cons.mp h
    rw [scan_cons_of_eq hc, ih htext]

/-! ### Everything that is read is framed -/

section Reading

/-- The scanner is behind a value: it may not have noticed the end of a scalar. -/
def Scan.AtEnd (d : ℕ) (s : Scan) : Prop :=
  s = ⟨.between, d⟩ ∨ s = ⟨.after, d⟩

/-- What the reader takes leaves the scanner inside the same brackets. -/
def ScansInside {α : Type*} (r : Reader α) : Prop :=
  ∀ text a rest, r text = some (a, rest) → ∃ used, text = used ++ rest ∧
    ∀ d, ∃ s, Scan.AtEnd (d + 1) s ∧ scan ⟨.between, d + 1⟩ used = some s

/-- What the reader takes closes one bracket. -/
def ScansOut {α : Type*} (r : Reader α) : Prop :=
  ∀ text a rest, r text = some (a, rest) → ∃ used, text = used ++ rest ∧
    ∀ d s, Scan.AtEnd (d + 1) s → scan s used = some ⟨.after, d⟩

variable {d : ℕ}

theorem scanChar_comma {s : Scan} (h : s.AtEnd (d + 1)) :
    scanChar s ',' = some ⟨.between, d + 1⟩ := by
  rcases h with rfl | rfl <;> rfl

variable {c : Char}

theorem scanChar_closing {s : Scan} (h : s.AtEnd (d + 1)) (hc : isClosing c = true) :
    scanChar s c = some ⟨.after, d⟩ := by
  rcases h with rfl | rfl <;> simp only [scanChar, hc, if_true]

theorem scanChar_opening (hc : isOpening c = true) :
    scanChar ⟨.between, d⟩ c = some ⟨.between, d + 1⟩ := by
  simp only [isOpening, Bool.or_eq_true, beq_iff_eq] at hc
  rcases hc with rfl | rfl <;> cases d <;> rfl

private theorem scanChar_inString (hquote : c ≠ '"') (hescape : c ≠ '\\') :
    scanChar ⟨.inString, d⟩ c = some ⟨.inString, d⟩ := by
  rw [scanChar, if_neg hquote, if_neg hescape]

private theorem scanChar_hex {n : ℕ} (h : hexValue c = some n) :
    scanChar ⟨.inString, d⟩ c = some ⟨.inString, d⟩ := by
  refine scanChar_inString ?_ ?_
  · rintro rfl
    exact absurd h (by decide +revert)
  · rintro rfl
    exact absurd h (by decide +revert)

/-- The string that the scanner is in ends in front of the rest. -/
def EndsString (text rest : List Char) : Prop :=
  ∃ used, text = used ++ rest ∧ ∀ d, scan ⟨.inString, d⟩ used = some ⟨.after, d⟩

variable {text rest : List Char}

private theorem EndsString.append (head : List Char)
    (hhead : ∀ d, scan ⟨.inString, d⟩ head = some ⟨.inString, d⟩) (h : EndsString text rest) :
    EndsString (head ++ text) rest := by
  obtain ⟨used, rfl, hused⟩ := h
  refine ⟨head ++ used, (List.append_assoc ..).symm, fun d => ?_⟩
  rw [scan_append_of_eq (hhead d), hused]

private theorem eq_some_of_map_consChar {read : Option (List Char × List Char)}
    {cs rest : List Char} (h : read.map (consChar c) = some (cs, rest)) :
    ∃ cs', read = some (cs', rest) := by
  obtain ⟨⟨cs', rest'⟩, hread, heq⟩ := Option.map_eq_some_iff.mp h
  obtain rfl : rest' = rest := congrArg Prod.snd heq
  exact ⟨cs', hread⟩

theorem endsString_of_read {text cs rest : List Char}
    (h : readStringBody text = some (cs, rest)) : EndsString text rest := by
  fun_induction readStringBody text generalizing cs rest with
  | case1 => cases h
  | case2 text =>
    cases h
    exact ⟨['"'], rfl, fun _ => rfl⟩
  | case3 hi lo text _ _ hlo hhi ih =>
    obtain ⟨cs', hread⟩ := eq_some_of_map_consChar h
    refine EndsString.append ['\\', 'u', '0', '0', hi, lo] (fun d => ?_) (ih hread)
    have hdigits : scan ⟨.inString, d⟩ [hi, lo] = some ⟨.inString, d⟩ := by
      rw [scan_cons_of_eq (scanChar_hex hhi), scan_cons_of_eq (scanChar_hex hlo), scan_nil]
    exact hdigits
  | case4 => cases h
  | case5 e text _ _ _ ih =>
    obtain ⟨cs', hread⟩ := eq_some_of_map_consChar h
    exact EndsString.append ['\\', e] (fun _ => rfl) (ih hread)
  | case6 => cases h
  | case7 => cases h
  | case8 c text hquote _ hescape _ ih =>
    obtain ⟨cs', hread⟩ := eq_some_of_map_consChar h
    -- a backslash at the end of the text would leave nothing to read
    have hne : c ≠ '\\' := by
      rintro rfl
      cases text with
      | nil => cases hread
      | cons e text => exact hescape e text rfl rfl
    exact EndsString.append [c] (fun d => scanChar_inString hquote hne) (ih hread)

theorem scan_readString {s : String} (h : readString text = some (s, rest)) :
    ∃ used, text = used ++ rest ∧
      ∀ d, scan ⟨.between, d + 1⟩ used = some ⟨.after, d + 1⟩ := by
  unfold readString at h
  split at h
  · rename_i text
    obtain ⟨⟨cs, rest'⟩, hread, heq⟩ := Option.map_eq_some_iff.mp h
    obtain rfl : rest' = rest := congrArg Prod.snd heq
    obtain ⟨used, rfl, hused⟩ := endsString_of_read hread
    exact ⟨'"' :: used, rfl, fun d => hused (d + 1)⟩
  · cases h

/-- The characters of a number tell the scanner nothing. -/
private theorem scanChar_isNumberChar (h : isNumberChar c = true) :
    scanChar ⟨.between, d + 1⟩ c = some ⟨.between, d + 1⟩ := by
  have hne : ∀ e : Char, isNumberChar e = false → c ≠ e := by
    rintro e he rfl
    exact absurd (he.symm.trans h) (by decide)
  have hclosing : isClosing c = false := by
    simp only [isClosing, Bool.or_eq_false_iff, beq_eq_false_iff_ne]
    exact ⟨hne ']' rfl, hne '}' rfl⟩
  have hopening : isOpening c = false := by
    simp only [isOpening, Bool.or_eq_false_iff, beq_eq_false_iff_ne]
    exact ⟨hne '[' rfl, hne '{' rfl⟩
  simp only [scanChar, hclosing, hopening, hne '"' rfl, Bool.false_eq_true, if_false]

private theorem scan_readNumber {n : JsonNumber} (h : readNumber text = some (n, rest)) :
    ∃ used, text = used ++ rest ∧
      ∀ d, scan ⟨.between, d + 1⟩ used = some ⟨.between, d + 1⟩ := by
  simp only [readNumber, readWhile, Option.bind_eq_bind, Option.bind_some, Option.pure_def,
    Option.bind_eq_some_iff] at h
  obtain ⟨_, -, heq⟩ := h
  obtain rfl : text.dropWhile isNumberChar = rest := congrArg Prod.snd (Option.some.inj heq)
  refine ⟨text.takeWhile isNumberChar, List.takeWhile_append_dropWhile.symm, fun d => ?_⟩
  exact scan_of_forall fun c hc => scanChar_isNumberChar (List.mem_takeWhile_imp hc)

theorem scansInside_readScalar : ScansInside readScalar := by
  intro text v rest h
  unfold readScalar at h
  split at h
  · cases h
    exact ⟨['n', 'u', 'l', 'l'], rfl, fun _ => ⟨_, .inl rfl, rfl⟩⟩
  · cases h
    exact ⟨['t', 'r', 'u', 'e'], rfl, fun _ => ⟨_, .inl rfl, rfl⟩⟩
  · cases h
    exact ⟨['f', 'a', 'l', 's', 'e'], rfl, fun _ => ⟨_, .inl rfl, rfl⟩⟩
  · obtain ⟨⟨s, rest'⟩, hread, heq⟩ := Option.map_eq_some_iff.mp h
    obtain rfl : rest' = rest := congrArg Prod.snd heq
    obtain ⟨used, htext, hused⟩ := scan_readString hread
    exact ⟨used, htext, fun d => ⟨_, .inr rfl, hused d⟩⟩
  · obtain ⟨⟨n, rest'⟩, hread, heq⟩ := Option.map_eq_some_iff.mp h
    obtain rfl : rest' = rest := congrArg Prod.snd heq
    obtain ⟨used, htext, hused⟩ := scan_readNumber hread
    exact ⟨used, htext, fun d => ⟨_, .inl rfl, hused d⟩⟩

section Sequences

variable {α : Type*} {close : Char} {item : Reader α}

theorem scansOut_readItems (hclose : isClosing close = true) (hitem : ScansInside item)
    (bound : ℕ) : ScansOut (readItems close item bound) := by
  induction bound with
  | zero =>
    intro text items rest h
    cases h
  | succ bound ih =>
    intro text items rest h
    cases text with
    | nil => cases h
    | cons c text =>
      rw [readItems] at h
      split_ifs at h with hend hcomma
      · obtain rfl : text = rest := congrArg Prod.snd (Option.some.inj h)
        refine ⟨[c], rfl, fun d s hs => ?_⟩
        rw [scan_cons_of_eq (scanChar_closing hs (hend ▸ hclose)), scan_nil]
      -- the scan of an item ends inside the container again
      · simp only [Option.bind_eq_bind, Option.bind_eq_some_iff, Option.pure_def] at h
        obtain ⟨⟨a, text'⟩, hread, ⟨items', rest'⟩, hreads, heq⟩ := h
        obtain rfl : rest' = rest := congrArg Prod.snd (Option.some.inj heq)
        obtain ⟨used, rfl, hused⟩ := hitem _ _ _ hread
        obtain ⟨usedRest, rfl, husedRest⟩ := ih _ _ _ hreads
        refine ⟨c :: used ++ usedRest, by simp, fun d s hs => ?_⟩
        obtain ⟨s', hs', hscan⟩ := hused d
        rw [List.cons_append, scan_cons_of_eq (hcomma ▸ scanChar_comma hs),
          scan_append_of_eq hscan, husedRest d s' hs']

/-- A sequence, from behind its opening bracket. -/
theorem scan_readSequence (hclose : isClosing close = true) (hitem : ScansInside item)
    {text rest : List Char} {items : List α}
    (h : readSequence close item text = some (items, rest)) :
    ∃ used, text = used ++ rest ∧ ∀ d, scan ⟨.between, d + 1⟩ used = some ⟨.after, d⟩ := by
  cases text with
  | nil => cases h
  | cons c text =>
    rw [readSequence] at h
    split_ifs at h with hend
    · obtain rfl : text = rest := congrArg Prod.snd (Option.some.inj h)
      refine ⟨[c], rfl, fun d => ?_⟩
      rw [scan_cons_of_eq (scanChar_closing (.inl rfl) (hend ▸ hclose)), scan_nil]
    · -- the items are read with a comma in front of the first one
      obtain ⟨used, htext, hused⟩ := scansOut_readItems hclose hitem _ _ _ _ h
      cases used with
      | nil => exact absurd (hused 0 _ (.inl rfl)) (by decide)
      | cons comma used =>
        obtain ⟨rfl, hrest⟩ : ',' = comma ∧ c :: text = used ++ rest := List.cons.inj htext
        exact ⟨used, hrest, fun d => hused d _ (.inl rfl)⟩

theorem scan_opened {c : Char} (hopen : isOpening c = true) (hclose : isClosing close = true)
    (hitem : ScansInside item) {text rest : List Char} {items : List α}
    (h : readSequence close item text = some (items, rest)) :
    ∃ used, c :: text = used ++ rest ∧ ∀ d, scan ⟨.between, d⟩ used = some ⟨.after, d⟩ := by
  obtain ⟨used, rfl, hused⟩ := scan_readSequence hclose hitem h
  refine ⟨c :: used, rfl, fun d => ?_⟩
  rw [scan_cons_of_eq (scanChar_opening hopen), hused]

end Sequences

/-- What a member is read from. -/
theorem readMember_eq_some {value : Reader Json} {m : String × Json}
    (h : readMember value text = some (m, rest)) :
    ∃ text', readString text = some (m.1, ':' :: text') ∧ value text' = some (m.2, rest) := by
  simp only [readMember, Option.bind_eq_bind, Option.bind_eq_some_iff] at h
  obtain ⟨⟨key, text'⟩, hkey, h⟩ := h
  split at h
  · rename_i htext
    obtain rfl : text' = _ := htext
    simp only [Option.bind_eq_some_iff, Option.pure_def] at h
    obtain ⟨⟨v, rest'⟩, hread, heq⟩ := h
    obtain ⟨rfl, rfl⟩ := Prod.mk.inj (Option.some.inj heq)
    exact ⟨_, hkey, hread⟩
  · cases h

variable {v : Json} {limit : ℕ}

/-- What a value is read from. -/
theorem readValue_succ_eq_some (h : readValue (limit + 1) text = some (v, rest)) :
    (∃ text' items, text = '[' :: text' ∧ v = array items ∧
      readSequence ']' (readValue limit) text' = some (items, rest)) ∨
    (∃ text' members, text = '{' :: text' ∧ v = object members ∧
      readSequence '}' (readMember (readValue limit)) text' = some (members, rest)) ∨
    readScalar text = some (v, rest) := by
  unfold readValue at h
  split at h
  · rename_i heq
    cases heq
  · rename_i heq
    obtain rfl := Nat.succ.inj heq
    obtain ⟨⟨items, rest'⟩, hread, heq⟩ := Option.map_eq_some_iff.mp h
    obtain ⟨rfl, rfl⟩ := Prod.mk.inj heq
    exact .inl ⟨_, _, rfl, rfl, hread⟩
  · rename_i heq
    obtain rfl := Nat.succ.inj heq
    obtain ⟨⟨members, rest'⟩, hread, heq⟩ := Option.map_eq_some_iff.mp h
    obtain ⟨rfl, rfl⟩ := Prod.mk.inj heq
    exact .inr (.inl ⟨_, _, rfl, rfl, hread⟩)
  · exact .inr (.inr h)

theorem scansInside_readMember {value : Reader Json} (hvalue : ScansInside value) :
    ScansInside (readMember value) := by
  intro text m rest h
  obtain ⟨text', hkey, hread⟩ := readMember_eq_some h
  obtain ⟨usedKey, rfl, husedKey⟩ := scan_readString hkey
  obtain ⟨used, rfl, hused⟩ := hvalue _ _ _ hread
  refine ⟨usedKey ++ ':' :: used, by simp, fun d => ?_⟩
  rw [scan_append_of_eq (husedKey d)]
  exact hused d

/-- An array or an object closes the bracket it opens. -/
theorem scan_readValue (limit : ℕ) (h : readValue limit text = some (v, rest)) :
    readScalar text = some (v, rest) ∨
      ∃ used, text = used ++ rest ∧ ∀ d, scan ⟨.between, d⟩ used = some ⟨.after, d⟩ := by
  induction limit generalizing text v rest with
  | zero => exact .inl h
  | succ limit ih =>
    have hinside : ScansInside (readValue limit) := by
      intro text v rest h
      obtain hscalar | ⟨used, htext, hused⟩ := ih h
      · exact scansInside_readScalar _ _ _ hscalar
      · exact ⟨used, htext, fun d => ⟨_, .inr rfl, hused (d + 1)⟩⟩
    obtain ⟨_, _, rfl, rfl, hread⟩ | ⟨_, _, rfl, rfl, hread⟩ | h := readValue_succ_eq_some h
    · exact .inr (scan_opened (c := '[') rfl rfl hinside hread)
    · exact .inr (scan_opened (c := '{') rfl rfl (scansInside_readMember hinside) hread)
    · exact .inl h

private theorem depth_of_readScalar (h : readScalar text = some (v, rest)) : v.depth = 0 := by
  unfold readScalar at h
  split at h
  · cases h; rfl
  · cases h; rfl
  · cases h; rfl
  · obtain ⟨_, -, heq⟩ := Option.map_eq_some_iff.mp h
    obtain rfl : _ = v := congrArg Prod.fst heq
    rfl
  · obtain ⟨_, -, heq⟩ := Option.map_eq_some_iff.mp h
    obtain rfl : _ = v := congrArg Prod.fst heq
    rfl

theorem readValue_of_parse {text : List Char} (h : parse limit text = some v) :
    readValue limit text = some (v, []) := by
  unfold parse at h
  split at h
  · rename_i heq
    cases h
    exact heq
  · cases h

/-- **What is read as an array or an object is framed.** -/
theorem framed_of_parse {text : List Char} (h : parse limit text = some v) (hdepth : v.depth ≠ 0) :
    Framed text := by
  have hread := readValue_of_parse h
  obtain hread | ⟨used, htext, hused⟩ := scan_readValue limit hread
  · exact absurd (depth_of_readScalar hread) hdepth
  · rw [htext, List.append_nil]
    exact hused 0

end Reading

/-! ### Nesting -/

variable {text rest : List Char}

theorem forall_mem_readItems {α : Type*} {close : Char} {item : Reader α} {p : α → Prop}
    (hitem : ∀ text a rest, item text = some (a, rest) → p a) {bound : ℕ} {items : List α}
    (h : readItems close item bound text = some (items, rest)) : ∀ a ∈ items, p a := by
  induction bound generalizing text items with
  | zero => cases h
  | succ bound ih =>
    cases text with
    | nil => cases h
    | cons c text =>
      rw [readItems] at h
      split_ifs at h
      · obtain rfl : [] = items := congrArg Prod.fst (Option.some.inj h)
        exact List.forall_mem_nil _
      · simp only [Option.bind_eq_bind, Option.bind_eq_some_iff, Option.pure_def] at h
        obtain ⟨⟨a, text'⟩, hread, ⟨items', rest'⟩, hreads, heq⟩ := h
        obtain ⟨rfl, rfl⟩ := Prod.mk.inj (Option.some.inj heq)
        exact List.forall_mem_cons.mpr ⟨hitem _ _ _ hread, ih hreads⟩

theorem forall_mem_readSequence {α : Type*} {close : Char} {item : Reader α} {p : α → Prop}
    (hitem : ∀ text a rest, item text = some (a, rest) → p a) {items : List α}
    (h : readSequence close item text = some (items, rest)) : ∀ a ∈ items, p a := by
  cases text with
  | nil => cases h
  | cons c text =>
    rw [readSequence] at h
    split_ifs at h
    · obtain rfl : [] = items := congrArg Prod.fst (Option.some.inj h)
      exact List.forall_mem_nil _
    · exact forall_mem_readItems hitem h

theorem depthItems_le {items : List Json} {n : ℕ} (h : ∀ v ∈ items, v.depth ≤ n) :
    depthItems items ≤ n := by
  induction items with
  | nil => exact Nat.zero_le n
  | cons v items ih =>
    obtain ⟨hv, hitems⟩ := List.forall_mem_cons.mp h
    exact Nat.max_le.mpr ⟨hv, ih hitems⟩

/-- The reader descends no deeper than its limit. -/
theorem depth_le_of_readValue {limit : ℕ} {v : Json} (h : readValue limit text = some (v, rest)) :
    v.depth ≤ limit := by
  induction limit generalizing text v rest with
  | zero => exact (depth_of_readScalar h).le
  | succ limit ih =>
    obtain ⟨_, _, -, rfl, hread⟩ | ⟨_, _, -, rfl, hread⟩ | h := readValue_succ_eq_some h
    · exact Nat.succ_le_succ (depthItems_le (forall_mem_readSequence (fun _ _ _ => ih) hread))
    · refine Nat.succ_le_succ (depthMembers_le (forall_mem_readSequence ?_ hread))
      intro text m rest hmember
      obtain ⟨_, -, hvalue⟩ := readMember_eq_some hmember
      exact ih hvalue
    · rw [depth_of_readScalar h]
      exact Nat.zero_le _

theorem depth_le_of_parse {limit : ℕ} {text : List Char} {v : Json}
    (h : parse limit text = some v) : v.depth ≤ limit :=
  depth_le_of_readValue (readValue_of_parse h)

/-! ### What follows a framed text -/

theorem framed_spaces_append {spaces : List Char} (h : ∀ c ∈ spaces, isSpace c = true)
    (text : List Char) : Framed (spaces ++ text) ↔ Framed text := by
  have hscan : scan ⟨.between, 0⟩ spaces = some ⟨.between, 0⟩ :=
    scan_of_forall fun c hc => by rw [scanChar, if_pos (h c hc)]
  rw [Framed, scan_append_of_eq hscan]
  rfl

/-- Outside of the brackets there is only white space. -/
theorem head_of_framed {c : Char} {text : List Char} (h : Framed (c :: text)) :
    isSpace c = true ∨ isOpening c = true := by
  rw [Framed, scan_cons, Option.bind_eq_some_iff] at h
  obtain ⟨s, hs, -⟩ := h
  rw [scanChar] at hs
  split_ifs at hs with hspace hopening
  · exact .inl hspace
  · exact .inr hopening

/-- A text in front of the first bracket is white space. -/
theorem isSpace_of_framed_append (h : Framed (text ++ rest))
    (hopening : ∀ c ∈ text, isOpening c = false) : ∀ c ∈ text, isSpace c = true := by
  induction text with
  | nil => exact fun c hc => nomatch hc
  | cons c text ih =>
    obtain ⟨hc, htext⟩ := List.forall_mem_cons.mp hopening
    have hspace : isSpace c = true := (head_of_framed h).resolve_right (by rw [hc]; decide)
    have hspaces : ∀ d ∈ [c], isSpace d = true := by simpa using hspace
    have hrest : Framed (text ++ rest) := (framed_spaces_append hspaces _).mp h
    exact List.forall_mem_cons.mpr ⟨hspace, ih hrest htext⟩

private theorem isSpace_of_scan_after {text : List Char} {s : Scan}
    (h : scan ⟨.after, 0⟩ text = some s) : ∀ c ∈ text, isSpace c = true := by
  induction text with
  | nil => exact fun c hc => nomatch hc
  | cons c text ih =>
    rw [scan_cons, scanChar] at h
    split_ifs at h with hspace
    · exact List.forall_mem_cons.mpr ⟨hspace, ih h⟩
    · cases h

/-- **Only white space follows a framed text.** -/
theorem isSpace_of_framed_prefix (htext : Framed text) (h : Framed (text ++ rest)) :
    ∀ c ∈ rest, isSpace c = true := by
  rw [Framed, scan_append_of_eq htext] at h
  exact isSpace_of_scan_after h

end Json

end Mipsorcu
