import CoverageTracker.LanguageServer
import CoverageTracker.Proofs.Wire.Format
import CoverageTracker.Proofs.Wire.Respelling
set_option autoImplicit false

/-!
# Which replies are accepted

A reply is accepted if it is `null` or writes a response (`Wire.WritesResponse`), and nothing else
is (`coverage_accepts`).  The format says nothing of the numbers themselves: that they are never NaN,
so that each response has a result, is due to their being JSON (`Wire.WritesNumber.isFinite`).
-/

namespace CoverageTracker

namespace Wire

open CoverageTracker.Data

variable {v : Value} {r : Response}

theorem not_writesResponse_null : ¬ WritesResponse .null r := by
  rintro ⟨_, ⟨⟩, _⟩

/-! ## Replies that may be `null` -/

theorem decodeOptional_of_reordered {w : Value} (h : Reordered v w) :
    Unnoticed Response.decodeOptional v w := by
  have hdecode := decodeResponse_of_reordered v w h
  cases h with
  | same => rfl
  | array => exact Decoded.told_map some hdecode
  | table => exact Decoded.told_map some hdecode

theorem decodeOptional_known (v : Value) : Unnoticed Response.decodeOptional v (knownResponse v) := by
  have hdecode := unnoticed_knownResponse v
  cases v with
  | null => rfl
  | _ => exact Decoded.told_map some hdecode

end Wire

namespace LanguageServer

open CoverageTracker.Data

variable {v w : Value}

/-- A reply that is not `null` is decoded. -/
theorem coverage_of_ne_null (hnull : v ≠ .null) :
    (Reply.value v).coverage =
      match Wire.Response.decode v with
      | .ok r => .ok r.result?
      | .error e => .error (.undecodable (e.message .json)) := by
  rw [Reply.coverage, Wire.Response.decodeOptional_of_ne_null hnull]
  cases Wire.Response.decode v <;> rfl

theorem coverage_of_unnoticed (h : Unnoticed Wire.Response.decodeOptional v w) :
    (Reply.value w).coverage.mapError ServerError.message =
      (Reply.value v).coverage.mapError ServerError.message := by
  have htold (v : Value) : (Reply.value v).coverage.mapError ServerError.message =
      ((Wire.Response.decodeOptional v).told.mapError ("deserialization failed: " ++ ·)).map
        (·.bind Wire.Response.result?) := by
    rw [Reply.coverage]
    cases Wire.Response.decodeOptional v <;> rfl
  rw [htold, htold, h]

/-- A client accepts exactly the replies of the wire format.  For a JSON value there is nothing to
report exactly if it is `null`; there is a result, the one that the reply writes, exactly if the
value writes a reply; and otherwise the value does not decode.  Neither the order of entries nor
fields that are not known change the answer, not even the text of an error. -/
theorem coverage_accepts (hv : v.isJson = true) :
    ((Reply.value v).coverage = .ok none ↔ v = .null) ∧
    (∀ c, (Reply.value v).coverage = .ok (some c) ↔ ∃ r, Wire.WritesResponse v r ∧
      c.percent = r.percent.clampPercent ∧
      c.uncovered = r.uncovered.map fun u => ⟨u.range, u.message <|> r.defaultMessage⟩) ∧
    ((∃ e : DecodeError, (Reply.value v).coverage = .error (.undecodable (e.message .json))) ↔
      v ≠ .null ∧ ∀ r, ¬ Wire.WritesResponse v r) ∧
    (∀ w, Reordered v w → (Reply.value w).coverage.mapError ServerError.message =
      (Reply.value v).coverage.mapError ServerError.message) ∧
    (Reply.value (Wire.knownResponse v)).coverage.mapError ServerError.message =
      (Reply.value v).coverage.mapError ServerError.message := by
  have hreordered (w : Value) (h : Reordered v w) :=
    coverage_of_unnoticed (Wire.decodeOptional_of_reordered h)
  have hknown := coverage_of_unnoticed (Wire.decodeOptional_known v)
  rw [← and_assoc, ← and_assoc]
  refine ⟨?_, hreordered, hknown⟩
  by_cases hnull : v = .null
  · subst hnull
    simp [Reply.coverage, Wire.Response.decodeOptional, Value.asOptional,
      Wire.not_writesResponse_null]
  · rw [coverage_of_ne_null hnull]
    cases hdecode : Wire.Response.decode v with
    | ok r =>
      have hwrites := Wire.Response.decode_eq_ok.1 hdecode
      have honly (r' : Wire.Response) : Wire.WritesResponse v r' ↔ r' = r := by
        rw [← Wire.Response.decode_eq_ok, hdecode, Except.ok.injEq, eq_comm]
      obtain ⟨c, hresult, hpercent, huncovered⟩ := hwrites.result? hv
      have hreported (c' : Coverage) : c = c' ↔ c'.percent = r.percent.clampPercent ∧
          c'.uncovered = r.uncovered.map fun u => ⟨u.range, u.message <|> r.defaultMessage⟩ := by
        rw [eq_comm, Coverage.ext_iff, hpercent, huncovered]
      simp [hresult, honly, hnull, hreported]
    | error e =>
      have hnone (r : Wire.Response) : ¬ Wire.WritesResponse v r := by
        rw [← Wire.Response.decode_eq_ok, hdecode]
        exact nofun
      simp [hnone, hnull]

/-- A reply with a field that is not known, a range that is written as an array, and a message that
is `null`. -/
theorem coverage_accepts_of_unknown_field :
    let v : Value := .table [("coveredPercent", .float Binary64.hundred),
      ("uncoveredRanges", .array [.table [("message", .null),
        ("range", .array [.array [.integer 1, .integer 2], .array [.integer 3, .integer 4]])]]),
      ("version", .integer 1)]
    v.isJson = true ∧ (Reply.value v).coverage =
      .ok (some ⟨.hundred, [.ofRange ⟨⟨1, 2⟩, ⟨3, 4⟩⟩], Binary64.isPercent_hundred⟩) := by
  intro v
  have hv : v.isJson = true := by decide +kernel
  have hwrites : Wire.WritesResponse v ⟨.hundred, [.ofRange ⟨⟨1, 2⟩, ⟨3, 4⟩⟩], none⟩ :=
    Wire.Response.decode_eq_ok.1 rfl
  exact ⟨hv, ((coverage_accepts hv).2.1 _).2 ⟨_, hwrites, by decide +kernel, rfl⟩⟩

end LanguageServer

end CoverageTracker
