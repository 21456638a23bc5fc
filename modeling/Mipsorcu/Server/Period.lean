import Mipsorcu.Foundation.Result
import Mipsorcu.Foundation.TimestampOrder
import Mipsorcu.Types

/-!
# Period bounds

The audit report command and the audit pages take a period as two timestamps, and refuse it unless
the first is before the second. Both compare the texts: `period_accepted_iff_before` says for which
bounds that is the order of the instants.
-/

namespace Mipsorcu

/-! ### The instant of a timestamp -/

namespace SourceEventAt

/-- What a timestamp text is taken apart into. -/
theorem exists_fields (t : SourceEventAt) :
    ∃ fields, splitTimestamp t.text.toList = some fields ∧ fields.IsUtc := by
  have hvalid := t.valid
  unfold isUtcTimestamp at hvalid
  split at hvalid
  · cases hvalid
  · rename_i fields hfields
    obtain ⟨-, hyear, hfraction⟩ := splitTimestamp_eq_some hfields
    refine ⟨fields, hfields, ?_⟩
    simp only [Bool.and_eq_true, Bool.or_eq_true, decide_eq_true_eq, beq_iff_eq,
      TimestampFields.inRange, TimestampFields.isLeapSecond] at hvalid
    rcases hvalid.2 with hrange | ⟨hleap, hrange⟩
    · exact ⟨hyear, ⟨by tauto, by tauto, by tauto, by tauto⟩, by tauto, by tauto, by tauto,
        hfraction⟩
    · exact ⟨hyear, ⟨by tauto, by tauto, by tauto, by tauto⟩, by tauto, by tauto, by tauto,
        hfraction⟩

/-- The fields of an accepted timestamp. -/
def fields (t : SourceEventAt) : TimestampFields :=
  (splitTimestamp t.text.toList).get (by
    obtain ⟨fields, hfields, -⟩ := t.exists_fields
    rw [hfields]
    rfl)

/-- The instant that the text denotes, to the last of its digits. -/
def instant (t : SourceEventAt) : UtcInstant :=
  t.fields.instant

theorem splitTimestamp_text (t : SourceEventAt) : splitTimestamp t.text.toList = some t.fields :=
  (Option.some_get _).symm

theorem isUtc_fields (t : SourceEventAt) : t.fields.IsUtc := by
  obtain ⟨fields, hfields, hutc⟩ := t.exists_fields
  rw [splitTimestamp_text] at hfields
  exact Option.some.inj hfields ▸ hutc

theorem text_lt_text_iff {s e : SourceEventAt} :
    s.text < e.text ↔ s.fields.chars < e.fields.chars := by
  rw [String.lt_iff, ← (splitTimestamp_eq_some s.splitTimestamp_text).1,
    ← (splitTimestamp_eq_some e.splitTimestamp_text).1]

end SourceEventAt

/-! ### The two checks -/

/-- The text of an error of the authenticated data. -/
def AadError.display : AadError → String
  | .expectedJsonObject => "aad_context must be a JSON object"
  | .missingField field => "required field is missing: " ++ field
  | .unexpectedField field => "unexpected field in aad_context: " ++ field
  | .invalidFieldType field expected => "field " ++ field ++ " must be " ++ expected
  | .unsupportedAadVersion value => "unsupported aad_version: " ++ value
  | .invalidUuid field value => "field " ++ field ++ " must be a canonicalizable UUID: " ++ value
  | .invalidUuidVersion field value expected =>
    "field " ++ field ++ " must be a " ++ expected ++ " UUID: " ++ value
  | .invalidPositiveInteger field value =>
    "field " ++ field ++ " must be a positive integer: " ++ value
  | .invalidClassification => "classification must not be empty or whitespace only"
  | .invalidTimestamp field value =>
    "field " ++ field ++ " must be a UTC RFC3339 timestamp: " ++ value

/-- Two bounds are parsed and compared; the checks differ in the texts of their errors. -/
def checkPeriod (invalidStart invalidEnd : AadError → String) (notBefore : String)
    (periodStart periodEnd : String) : Except String (SourceEventAt × SourceEventAt) := do
  let start ← (SourceEventAt.parse periodStart).mapError invalidStart
  let stop ← (SourceEventAt.parse periodEnd).mapError invalidEnd
  Result.require (decide (start.text < stop.text)) notBefore
  pure (start, stop)

/-- The check of the `audit-report` command; an error is the text of a usage error. -/
def auditReportPeriod : String → String → Except String (SourceEventAt × SourceEventAt) :=
  checkPeriod (fun error => "invalid --from: " ++ error.display)
    (fun error => "invalid --to: " ++ error.display) "--from must be earlier than --to"

/-- `parse_required_period` of the audit pages; an error is the text of a bad request. -/
def parseRequiredPeriod : String → String → Except String (SourceEventAt × SourceEventAt) :=
  checkPeriod (fun _ => "invalid period_start") (fun _ => "invalid period_end")
    "period_start must be before period_end"

theorem checkPeriod_eq_ok {invalidStart invalidEnd : AadError → String} {notBefore : String}
    {s e : SourceEventAt} :
    (∃ period, checkPeriod invalidStart invalidEnd notBefore s.text e.text = .ok period) ↔
      s.text < e.text := by
  simp only [checkPeriod, SourceEventAt.parse_text, Result.mapError_ok, Result.ok_bind,
    Result.bind_eq_ok, Result.require_eq_ok, decide_eq_true_eq, Result.pure_eq_ok]
  refine ⟨?_, fun hlt => ⟨_, (), hlt, rfl⟩⟩
  rintro ⟨_, _, hlt, _⟩
  exact hlt

/-- **When the period checks compare instants.** For all timestamps that `SourceEventAt::parse`
accepts: both checks accept the pair exactly when the first instant is before the second, if and
only if the texts are not misordered. -/
theorem period_accepted_iff_before (s e : SourceEventAt) :
    (((∃ period, auditReportPeriod s.text e.text = .ok period) ↔ s.instant < e.instant) ∧
      ((∃ period, parseRequiredPeriod s.text e.text = .ok period) ↔ s.instant < e.instant)) ↔
      ¬s.fields.Misordered e.fields := by
  rw [auditReportPeriod, parseRequiredPeriod, checkPeriod_eq_ok, checkPeriod_eq_ok, and_self_iff,
    SourceEventAt.text_lt_text_iff, SourceEventAt.instant, SourceEventAt.instant,
    TimestampFields.chars_lt_iff_iff s.isUtc_fields e.isUtc_fields]

/-! ### A period that ends before it begins -/

/-- Half a second after midnight. -/
def afterMidnight : SourceEventAt where
  text := "2026-04-01T00:00:00.5Z"
  valid := by decide

/-- The same second without a fraction. -/
def midnight : SourceEventAt where
  text := "2026-04-01T00:00:00Z"
  valid := by decide

/-- A period that ends half a second before it begins is accepted, since the decimal point is below
`Z`; and the period the other way round is refused. -/
theorem reversed_period_accepted :
    midnight.instant < afterMidnight.instant ∧
    auditReportPeriod "2026-04-01T00:00:00.5Z" "2026-04-01T00:00:00Z" =
      .ok (afterMidnight, midnight) ∧
    parseRequiredPeriod "2026-04-01T00:00:00.5Z" "2026-04-01T00:00:00Z" =
      .ok (afterMidnight, midnight) ∧
    parseRequiredPeriod "2026-04-01T00:00:00Z" "2026-04-01T00:00:00.5Z" =
      .error "period_start must be before period_end" := by
  decide +kernel

end Mipsorcu
