import Mipsorcu.Foundation.JsonLines
import Mipsorcu.Foundation.ReplayLog
import Mipsorcu.Ledger.Payload

/-!
# Local delivery logs

What could not be delivered is kept in a local file: a record that it is pending, and after a later
delivery a record that it was sent. The audit fallback, the SIEM buffer and the archive queue all
write such files, one JSON object on each line, and replay them by the last record of each key.
-/

namespace Mipsorcu

inductive DeliveryStatus where
  | pending
  | sent
  deriving DecidableEq

namespace DeliveryStatus

def asStr : DeliveryStatus → String
  | pending => "pending"
  | sent => "sent"

def parse? (text : String) : Option DeliveryStatus :=
  if text = "pending" then some .pending else if text = "sent" then some .sent else none

@[simp]
theorem parse?_asStr (s : DeliveryStatus) : parse? s.asStr = some s := by
  cases s <;> rfl

end DeliveryStatus

/-- The nesting `serde_json` reads. -/
def serdeMaxDepth : ℕ := 127

/-- The records of a log file; blank lines are skipped, and any other line that is no record makes
the whole file unreadable. -/
def readLogFile {ρ ε : Type} (format : RecordFormat ρ) (error : ε) (file : List Char) :
    Except ε (List ρ) :=
  format.readLog isWhiteSpace serdeMaxDepth error file

theorem readLogFile_render {ρ ε : Type} {format : RecordFormat ρ} {log : List ρ} (error : ε)
    (h : ∀ r ∈ log, format.Readable serdeMaxDepth r) :
    readLogFile format error (format.render log) = .ok log :=
  RecordFormat.readLog_render (by decide) error h

/-! ### Fields of a record -/

/-- A field that holds a text. -/
def textField (object : List (String × Json)) (key : String) : Option String :=
  (SortedMap.get? object key).bind Json.asStr

theorem textField_eq {object : List (String × Json)} {key text : String}
    (h : SortedMap.get? object key = some (.string text)) : textField object key = some text := by
  rw [textField, h]
  rfl

/-- A number that fits `u32`. -/
def Json.asU32 (value : Json) : Option UInt32 :=
  value.asU64.bind fun n => if h : n < 4294967296 then some (UInt32.ofNatLT n h) else none

/-- The value of a `u32`. -/
def Json.u32 (n : UInt32) : Json :=
  .nat n.toNat

@[simp]
theorem Json.asU32_u32 (n : UInt32) : (Json.u32 n).asU32 = some n := by
  have hlt : n.toNat < 4294967296 := n.toNat_lt
  simp [Json.asU32, Json.u32, Json.nat, Json.asU64, hlt]

@[simp]
theorem Json.depth_orNull_string (x : Option String) : (orNull .string x).depth = 0 :=
  depth_orNull (fun _ => rfl) x

@[simp]
theorem Json.depth_orNull_u32 (x : Option UInt32) : (orNull .u32 x).depth = 0 :=
  depth_orNull (fun _ => rfl) x

@[simp]
theorem Json.normalize_orNull_string (x : Option String) :
    (orNull .string x).normalize = orNull .string x :=
  normalize_of_depth_eq_zero (depth_orNull_string x)

@[simp]
theorem Json.normalize_orNull_u32 (x : Option UInt32) :
    (orNull .u32 x).normalize = orNull .u32 x :=
  normalize_of_depth_eq_zero (depth_orNull_u32 x)

/-- A field of an optional type: it may be missing or null. -/
def optionalField {α : Type} (read : Json → Option α) (object : List (String × Json))
    (key : String) : Option (Option α) :=
  match SortedMap.get? object key with
  | none => some none
  | some .null => some none
  | some value => (read value).map some

/-- **An optional field is read back**, if its reader does not take `null` for a value. -/
theorem optionalField_orNull {α : Type} {toJson : α → Json} {read : Json → Option α}
    (hread : ∀ a, read (toJson a) = some a) (hnull : read .null = none)
    {object : List (String × Json)} {key : String} {x : Option α}
    (hfield : SortedMap.get? object key = some (.orNull toJson x)) :
    optionalField read object key = some x := by
  rw [optionalField, hfield]
  cases x with
  | none => rfl
  | some a =>
    have hvalue : toJson a ≠ .null := fun h => by
      rw [← h, hread] at hnull
      cases hnull
    simp only [Json.orNull, hread, Option.map_some]

theorem optionalField_text {object : List (String × Json)} {key : String} {text : Option String}
    (h : SortedMap.get? object key = some (.orNull .string text)) :
    optionalField Json.asStr object key = some text :=
  have hread (s : String) : Json.asStr (.string s) = some s := rfl
  optionalField_orNull hread rfl h

theorem optionalField_u32 {object : List (String × Json)} {key : String} {n : Option UInt32}
    (h : SortedMap.get? object key = some (.orNull .u32 n)) :
    optionalField Json.asU32 object key = some n :=
  optionalField_orNull Json.asU32_u32 rfl h

end Mipsorcu
