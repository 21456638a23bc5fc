import Mipsorcu.Foundation.Json
import Mipsorcu.Foundation.Result
import Mathlib.Data.List.DropRight

/-!
# Files of JSON lines

A file of JSON lines holds one value on each line. `JsonLines.render` is the text after a sequence
of values has been written, each followed by a line break; `JsonLines.read` splits a text at the
line breaks, skips blank lines and parses each of the others. Since the compact text of a value has
no line break of its own, reading gives the values back (`JsonLines.read_render`).

A log of records is such a file with an object for each record. `RecordFormat` says how a record is
written and read; the records of a log are read back if each one can be read back alone
(`RecordFormat.readLog_render`).
-/

namespace Mipsorcu

namespace Json

/-- No control character. -/
def isPrintable (c : Char) : Bool :=
  32 ≤ c.toNat

private theorem isPrintable_hexDigit {n : ℕ} (h : n < 16) : isPrintable (hexDigit n) = true := by
  have hall : ∀ m < 16, isPrintable (hexDigit m) = true := by decide
  exact hall n h

private theorem isPrintable_of_isNumberChar {c : Char} (h : isNumberChar c = true) :
    isPrintable c = true := by
  simp only [isNumberChar, Bool.or_eq_true, beq_iff_eq] at h
  rcases h with ((((h | rfl) | rfl) | rfl) | rfl) | rfl
  · simp only [Char.isDigit, Bool.and_eq_true, decide_eq_true_eq] at h
    have hlow := UInt32.le_iff_toNat_le.mp h.1
    have hzero : ('0'.val).toNat = 48 := rfl
    simp only [isPrintable, decide_eq_true_eq]
    exact Nat.le_trans (by decide) hlow
  all_goals rfl

theorem isPrintable_escapeChar (c : Char) : ∀ d ∈ escapeChar c, isPrintable d = true := by
  unfold escapeChar
  split_ifs with h1 h2 h3 h4 h5 h6 h7 hcontrol
  · exact List.all_eq_true.mp rfl
  · exact List.all_eq_true.mp rfl
  · exact List.all_eq_true.mp rfl
  · exact List.all_eq_true.mp rfl
  · exact List.all_eq_true.mp rfl
  · exact List.all_eq_true.mp rfl
  · exact List.all_eq_true.mp rfl
  · have hhi := isPrintable_hexDigit (n := c.toNat / 16) (by omega)
    have hlo := isPrintable_hexDigit (n := c.toNat % 16) (by omega)
    have hhead : ∀ d ∈ ['\\', 'u', '0', '0'], isPrintable d = true := List.all_eq_true.mp rfl
    simp only [List.forall_mem_cons] at hhead ⊢
    exact ⟨hhead.1, hhead.2.1, hhead.2.2.1, hhead.2.2.2.1, hhi, hlo, by simp⟩
  · simp only [List.mem_singleton, forall_eq, isPrintable, decide_eq_true_eq]
    omega

theorem isPrintable_writeString (s : String) : ∀ c ∈ writeString s, isPrintable c = true := by
  intro c hc
  simp only [writeString, List.mem_cons, List.mem_append, List.mem_flatMap, List.not_mem_nil,
    or_false] at hc
  rcases hc with rfl | ⟨d, -, hd⟩ | rfl
  · rfl
  · exact isPrintable_escapeChar d c hd
  · rfl

mutual

theorem isPrintable_write : ∀ v : Json, ∀ c ∈ v.write, isPrintable c = true
  | .null => by rw [write]; exact List.all_eq_true.mp rfl
  | .bool true => by rw [write]; exact List.all_eq_true.mp rfl
  | .bool false => by rw [write]; exact List.all_eq_true.mp rfl
  | .number n => fun c hc => isPrintable_of_isNumberChar (writeNumber_isNumberChar n c (by
      rwa [write] at hc))
  | .string s => fun c hc => isPrintable_writeString s c (by rwa [write] at hc)
  | .array [] => by rw [write]; exact List.all_eq_true.mp rfl
  | .array (a :: as) => by
    rw [write]
    simp only [List.forall_mem_cons, List.forall_mem_append]
    exact ⟨rfl, isPrintable_write a, isPrintable_writeMore as⟩
  | .object [] => by rw [write]; exact List.all_eq_true.mp rfl
  | .object (m :: ms) => by
    rw [write]
    simp only [List.forall_mem_cons, List.forall_mem_append]
    exact ⟨rfl, isPrintable_writeMember m, isPrintable_writeMoreMembers ms⟩

theorem isPrintable_writeMore : ∀ items : List Json, ∀ c ∈ writeMore items, isPrintable c = true
  | [] => by rw [writeMore]; exact List.all_eq_true.mp rfl
  | a :: as => by
    rw [writeMore]
    simp only [List.forall_mem_cons, List.forall_mem_append]
    exact ⟨rfl, isPrintable_write a, isPrintable_writeMore as⟩

theorem isPrintable_writeMoreMembers : ∀ members : List (String × Json),
    ∀ c ∈ writeMoreMembers members, isPrintable c = true
  | [] => by rw [writeMoreMembers]; exact List.all_eq_true.mp rfl
  | m :: ms => by
    rw [writeMoreMembers]
    simp only [List.forall_mem_cons, List.forall_mem_append]
    exact ⟨rfl, isPrintable_writeMember m, isPrintable_writeMoreMembers ms⟩

theorem isPrintable_writeMember : ∀ m : String × Json,
    ∀ c ∈ writeMember m, isPrintable c = true
  | (k, v) => by
    rw [writeMember]
    simp only [List.forall_mem_cons, List.forall_mem_append]
    exact ⟨isPrintable_writeString k, rfl, isPrintable_write v⟩

end

end Json

/-! ### Lines -/

namespace JsonLines

/-- A line that ended in a line break, without the carriage return before it. -/
def endLine (reversed : List Char) : List Char :=
  match reversed with
  | '\r' :: rest => rest.reverse
  | _ => reversed.reverse

/-- The lines of a text; `reversed` is what has been read of the current one. A last line without
a line break counts if it is not empty. -/
def linesFrom (reversed : List Char) : List Char → List (List Char)
  | [] => if reversed = [] then [] else [reversed.reverse]
  | c :: text => if c = '\n' then endLine reversed :: linesFrom [] text
    else linesFrom (c :: reversed) text

/-- The lines of a text. -/
def lines (text : List Char) : List (List Char) :=
  linesFrom [] text

/-- The text of a sequence of values, each on a line of its own. -/
def render (values : List Json) : List Char :=
  values.flatMap fun v => v.write ++ ['\n']

/-- What is read from the lines that are not blank, or nothing where a line is no value. -/
def read (isBlank : Char → Bool) (limit : ℕ) (text : List Char) : List (Option Json) :=
  ((lines text).filter fun line => !line.all isBlank).map fun line =>
    (Json.parse limit line).map Json.normalize

variable {line : List Char}

theorem linesFrom_append (reversed rest : List Char) (h : ∀ c ∈ line, c ≠ '\n') :
    linesFrom reversed (line ++ rest) = linesFrom (line.reverse ++ reversed) rest := by
  induction line generalizing reversed with
  | nil => rfl
  | cons c line ih =>
    obtain ⟨hc, hline⟩ := List.forall_mem_cons.mp h
    rw [List.cons_append, linesFrom, if_neg hc, ih (c :: reversed) hline, List.reverse_cons,
      List.append_assoc, List.singleton_append]

theorem ne_of_isPrintable {c d : Char} (h : Json.isPrintable c = true) (hd : d.toNat < 32) :
    c ≠ d := by
  rintro rfl
  simp only [Json.isPrintable, decide_eq_true_eq] at h
  omega

/-- A line in front of a text. -/
theorem lines_append_newline (rest : List Char) (hline : ∀ c ∈ line, c ≠ '\n')
    (hend : line.getLast? ≠ some '\r') : lines (line ++ '\n' :: rest) = line :: lines rest := by
  have hend : endLine line.reverse = line := by
    unfold endLine
    split
    · rename_i reversed hreversed
      refine absurd ?_ hend
      rw [← List.head?_reverse, hreversed]
      rfl
    · exact List.reverse_reverse line
  rw [lines, linesFrom_append [] _ hline, List.append_nil, linesFrom, if_pos rfl, hend]
  rfl

/-- A line of printable characters is read as it is. -/
theorem lines_append_line (rest : List Char) (h : ∀ c ∈ line, Json.isPrintable c = true) :
    lines (line ++ '\n' :: rest) = line :: lines rest := by
  refine lines_append_newline rest (fun c hc => ne_of_isPrintable (h c hc) (by decide)) ?_
  intro hlast
  exact ne_of_isPrintable (h _ (List.mem_of_getLast? hlast)) (by decide) rfl

/-- A last line that is not ended counts unless it is empty. -/
theorem lines_of_no_newline (h : ∀ c ∈ line, c ≠ '\n') :
    lines line = if line = [] then [] else [line] := by
  have happend := linesFrom_append [] [] h
  rw [List.append_nil, List.append_nil, linesFrom, List.reverse_reverse] at happend
  simpa only [lines, List.reverse_eq_nil_iff] using happend

/-- The text is empty or ends in a line break. -/
def Closed (text : List Char) : Prop :=
  ∀ c ∈ text.getLast?, c = '\n'

private theorem linesFrom_append_of_getLast? {closed : List Char}
    (h : closed.getLast? = some '\n') (reversed rest : List Char) :
    linesFrom reversed (closed ++ rest) = linesFrom reversed closed ++ linesFrom [] rest := by
  induction closed generalizing reversed with
  | nil => cases h
  | cons c closed ih =>
    rw [List.cons_append, linesFrom, linesFrom]
    cases closed with
    | nil =>
      obtain rfl : c = '\n' := Option.some.inj h
      rfl
    | cons d closed =>
      have hlast : (d :: closed).getLast? = some '\n' := by
        rwa [List.getLast?_cons_cons] at h
      split_ifs
      · rw [ih hlast, List.cons_append]
      · exact ih hlast _

theorem lines_append_of_closed {closed : List Char} (h : Closed closed) (rest : List Char) :
    lines (closed ++ rest) = lines closed ++ lines rest := by
  cases hlast : closed.getLast? with
  | none => rw [List.getLast?_eq_none_iff.mp hlast]; rfl
  | some c =>
    obtain rfl := h c (by rw [hlast]; rfl)
    exact linesFrom_append_of_getLast? hlast [] rest

/-- What stands behind the last line break. -/
def openEnd (text : List Char) : List Char :=
  text.rtakeWhile fun c => c ≠ '\n'

theorem ne_newline_of_mem_openEnd {text : List Char} : ∀ c ∈ openEnd text, c ≠ '\n' := by
  intro c hc
  simpa using List.mem_rtakeWhile_imp hc

/-- A text is its ended lines and what stands behind them. -/
theorem exists_closed_append_openEnd (text : List Char) :
    ∃ closed, Closed closed ∧ closed ++ openEnd text = text := by
  refine ⟨text.rdropWhile fun c => c ≠ '\n', fun c hc => ?_, List.rdropWhile_append_rtakeWhile⟩
  obtain ⟨hne, rfl⟩ := List.mem_getLast?_eq_getLast hc
  simpa using List.rdropWhile_last_not (fun c => decide (c ≠ '\n')) text hne

/-- **A line that is written behind a text continues what was not ended.** -/
theorem exists_ended_lines (text : List Char) :
    ∃ ended, lines text = ended ++ (if openEnd text = [] then [] else [openEnd text]) ∧
      ∀ line rest, line ≠ [] → (∀ c ∈ line, Json.isPrintable c = true) →
        lines (text ++ (line ++ '\n' :: rest)) = ended ++ (openEnd text ++ line) :: lines rest := by
  obtain ⟨closed, hclosed, htext⟩ := exists_closed_append_openEnd text
  refine ⟨lines closed, ?_, fun line rest hline hprintable => ?_⟩
  · rw [← lines_of_no_newline ne_newline_of_mem_openEnd, ← lines_append_of_closed hclosed, htext]
  · have hnewline : ∀ c ∈ openEnd text ++ line, c ≠ '\n' := by
      intro c hc
      rcases List.mem_append.mp hc with hc | hc
      · exact ne_newline_of_mem_openEnd c hc
      · exact ne_of_isPrintable (hprintable c hc) (by decide)
    have hend : (openEnd text ++ line).getLast? ≠ some '\r' := by
      rw [List.getLast?_append_of_ne_nil _ hline]
      intro hlast
      exact ne_of_isPrintable (hprintable _ (List.mem_of_getLast? hlast)) (by decide) rfl
    calc lines (text ++ (line ++ '\n' :: rest))
        = lines (closed ++ ((openEnd text ++ line) ++ '\n' :: rest)) := by
          nth_rewrite 1 [← htext]
          simp only [List.append_assoc]
      _ = lines closed ++ (openEnd text ++ line) :: lines rest := by
          rw [lines_append_of_closed hclosed, lines_append_newline rest hnewline hend]

/-- Behind a line that was ended nothing is open. -/
theorem openEnd_append_newline (text : List Char) : openEnd (text ++ ['\n']) = [] :=
  List.rtakeWhile_concat_neg _ _ _ (by decide)

section

variable {isBlank : Char → Bool} {limit : ℕ}

/-- A line with a value on it, in front of a text. -/
theorem read_append_line {v : Json} (rest : List Char) (hblank : v.write.all isBlank = false)
    (hdepth : v.depth ≤ limit) :
    read isBlank limit (v.write ++ '\n' :: rest) =
      some v.normalize :: read isBlank limit rest := by
  rw [read, lines_append_line rest (Json.isPrintable_write v), List.filter_cons,
    if_pos (by rw [hblank]; rfl), List.map_cons, Json.parse_write hdepth]
  rfl

/-- **Reading gives the values back.** -/
theorem read_render_append {values : List Json} (rest : List Char)
    (hblank : ∀ v ∈ values, v.write.all isBlank = false) (hdepth : ∀ v ∈ values, v.depth ≤ limit) :
    read isBlank limit (render values ++ rest) =
      values.map (fun v => some v.normalize) ++ read isBlank limit rest := by
  induction values with
  | nil => rfl
  | cons v values ih =>
    obtain ⟨hv, hvalues⟩ := List.forall_mem_cons.mp hblank
    obtain ⟨hvdepth, hdepths⟩ := List.forall_mem_cons.mp hdepth
    have htext : render (v :: values) ++ rest = v.write ++ '\n' :: (render values ++ rest) := by
      simp [render]
    rw [htext, read_append_line _ hv hvdepth, ih hvalues hdepths]
    rfl

theorem read_render {values : List Json} (hblank : ∀ v ∈ values, v.write.all isBlank = false)
    (hdepth : ∀ v ∈ values, v.depth ≤ limit) :
    read isBlank limit (render values) = values.map fun v => some v.normalize := by
  have happend := read_render_append [] hblank hdepth
  rwa [List.append_nil, show read isBlank limit [] = [] from rfl, List.append_nil] at happend

end

end JsonLines

/-! ### Records -/

/-- How the records of a log are written as objects, and read from parsed values. -/
structure RecordFormat (ρ : Type) where
  members : ρ → List (String × Json)
  read? : Json → Option ρ

namespace RecordFormat

variable {ρ ε : Type} (format : RecordFormat ρ) {isBlank : Char → Bool} {limit : ℕ}

/-- The value of a record. -/
def toJson (r : ρ) : Json :=
  .object (format.members r)

/-- The text of a log. -/
def render (log : List ρ) : List Char :=
  JsonLines.render (log.map format.toJson)

/-- The records of a text; a line that is no record is an error. -/
def readLog (isBlank : Char → Bool) (limit : ℕ) (error : ε) (text : List Char) :
    Except ε (List ρ) :=
  Result.traverse (fun line => Result.ofOption error (line.bind format.read?))
    (JsonLines.read isBlank limit text)

/-- The record can be read back. -/
structure Readable (limit : ℕ) (r : ρ) : Prop where
  depth : (format.toJson r).depth ≤ limit
  read : format.read? (format.toJson r).normalize = some r

variable {format}

/-- **The records of a log are read back.** -/
theorem readLog_render (hblank : isBlank '{' = false) {log : List ρ} (error : ε)
    (h : ∀ r ∈ log, format.Readable limit r) :
    format.readLog isBlank limit error (format.render log) = .ok log := by
  have hread : JsonLines.read isBlank limit (format.render log) =
      log.map fun r => some (format.toJson r).normalize := by
    rw [render, JsonLines.read_render, List.map_map]
    · rfl
    · rintro v hv
      obtain ⟨r, -, rfl⟩ := List.mem_map.mp hv
      rw [toJson, Json.write_object, List.all_cons, hblank, Bool.false_and]
    · rintro v hv
      obtain ⟨r, hr, rfl⟩ := List.mem_map.mp hv
      exact (h r hr).depth
  rw [readLog, hread, Result.traverse_eq_ok, List.forall₂_map_left_iff]
  refine List.forall₂_same.mpr fun r hr => ?_
  rw [Option.bind_some, (h r hr).read]
  rfl

end RecordFormat

end Mipsorcu
