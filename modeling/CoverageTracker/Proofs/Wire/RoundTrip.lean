import CoverageTracker.Proofs.Wire.Format
set_option autoImplicit false

/-!
# Round trips

An encoder writes what it encodes, so decoding gives it back: for a response if its percentage is
finite, which it is for every response that was decoded from JSON, and for parameters always.  What
is decoded from JSON, however it was spelled there, therefore has one encoding that stands for it.
-/

namespace CoverageTracker.Wire

open CoverageTracker.Data Decoded

/-! ## Encoders write what they encode -/

theorem writesPosition_encode (p : Position) : WritesPosition (encodePosition p) p :=
  ⟨_, .table _, ⟨_, rfl, rfl⟩, ⟨_, rfl, rfl⟩⟩

theorem writesRange_encode (r : Range) : WritesRange (encodeRange r) r :=
  ⟨_, .table _, ⟨_, rfl, writesPosition_encode r.start⟩, ⟨_, rfl, writesPosition_encode r.stop⟩⟩

theorem writesUncovered_encode (u : UncoveredRange) : WritesUncovered (encodeUncovered u) u := by
  obtain ⟨range, message⟩ := u
  refine ⟨_, .table _, ?_, ?_⟩
  · cases message <;> exact ⟨_, rfl, writesRange_encode range⟩
  · cases message with
    | none => exact .absent
    | some s => exact .text s

theorem writesResponse_encode {r : Response} (hfinite : r.percent.isFinite = true) :
    WritesResponse r.encode r := by
  obtain ⟨percent, uncovered, message⟩ := r
  have hitems : List.Forall₂ WritesUncovered (uncovered.map encodeUncovered) uncovered := by
    rw [List.forall₂_map_left_iff, List.forall₂_same]
    exact fun u _ => writesUncovered_encode u
  refine ⟨_, .table _, ⟨_, rfl, ?_⟩, ?_, ?_⟩
  · rw [Response.encodePercent, if_pos hfinite]
    exact .float percent
  · cases message <;> exact .items hitems
  · cases message with
    | none => exact .absent
    | some s => exact .text s

theorem writesParams_encode (p : Params) : WritesParams p.encode p :=
  ⟨_, .table _, ⟨_, rfl, _, .table _, _, rfl, rfl⟩⟩

theorem Response.decode_encode_iff (r : Response) :
    Response.decode r.encode = .ok r ↔ r.percent.isFinite = true := by
  refine ⟨fun h => ?_, fun h => Response.decode_eq_ok.2 (writesResponse_encode h)⟩
  obtain ⟨_, ⟨⟩, ⟨u, hfield, hnumber⟩, -⟩ := Response.decode_eq_ok.1 h
  cases hfield
  by_contra hfinite
  rw [encodePercent, if_neg hfinite] at hnumber
  cases hnumber

/-! ## Encoders make JSON -/

theorem fitsWord_toNat (n : UInt32) : fitsWord n.toNat = true := by
  have hlt := n.toNat_lt
  simp only [fitsWord, Bool.and_eq_true, decide_eq_true_eq]
  omega

theorem isJson_encodePosition (p : Position) : (encodePosition p).isJson = true := by
  simp [encodePosition, Value.isJson, Value.entriesAreJson, fitsWord_toNat]

theorem isJson_encodeRange (r : Range) : (encodeRange r).isJson = true := by
  simp [encodeRange, Value.isJson, Value.entriesAreJson, isJson_encodePosition]

theorem isJson_encodeUncovered (u : UncoveredRange) : (encodeUncovered u).isJson = true := by
  obtain ⟨range, message⟩ := u
  cases message <;>
    simp [encodeUncovered, optionalEntry, Value.isJson, Value.entriesAreJson, isJson_encodeRange]

theorem Response.isJson_encode {r : Response} (hfinite : r.percent.isFinite = true) :
    r.encode.isJson = true := by
  obtain ⟨percent, uncovered, message⟩ := r
  have huncovered : Value.areJson (uncovered.map encodeUncovered) = true := by
    simp [Value.areJson_iff, isJson_encodeUncovered]
  cases message <;>
    simp_all [encode, encodePercent, optionalEntry, Value.isJson, Value.entriesAreJson]

theorem Params.isJson_encode (p : Params) : p.encode.isJson = true := by
  simp [encode, Value.isJson, Value.entriesAreJson]

theorem Params.decode_encode (p : Params) : Params.decode p.encode = .ok p :=
  Params.decode_eq_ok.2 (writesParams_encode p)

/-! ## Round trips -/

/-- A reply that was decoded from JSON is encoded as JSON that decodes to the same. -/
theorem Response.encodeOptional_of_decode {v : Value} {o : Option Response} (hv : v.isJson = true)
    (h : decodeOptional v = .ok o) :
    (encodeOptional o).isJson = true ∧ decodeOptional (encodeOptional o) = .ok o := by
  cases o with
  | none => exact ⟨rfl, rfl⟩
  | some r =>
    have hnull : v ≠ .null := by
      rintro rfl
      cases h
    rw [decodeOptional_of_ne_null hnull, map_eq_ok] at h
    obtain ⟨_, hdecode, ⟨⟩⟩ := h
    have hfinite := (decode_eq_ok.1 hdecode).isFinite hv
    refine ⟨isJson_encode hfinite, ?_⟩
    exact map_eq_ok.2 ⟨r, (decode_encode_iff r).2 hfinite, rfl⟩

/-- Decoding gives back what was encoded: every response whose percentage is finite, and only these,
and all parameters.  What any JSON value decodes to is encoded as a JSON value that decodes to the
same, so that it reports the same result and is encoded as itself. -/
theorem round_trip :
    (∀ r : Response, Response.decode r.encode = .ok r ↔ r.percent.isFinite = true) ∧
    (∀ (v : Value) (o : Option Response), v.isJson = true → Response.decodeOptional v = .ok o →
      let canonical := Response.encodeOptional o
      canonical.isJson = true ∧
      Response.decodeOptional canonical = .ok o ∧
      (Response.decodeOptional canonical).map Response.encodeOptional = .ok canonical ∧
      (Response.decodeOptional canonical).map (·.bind Response.result?) =
        (Response.decodeOptional v).map (·.bind Response.result?)) ∧
    (∀ p : Params, Params.decode p.encode = .ok p) ∧
    ∀ (v : Value) (p : Params), Params.decode v = .ok p →
      let canonical := p.encode
      canonical.isJson = true ∧
      Params.decode canonical = .ok p ∧
      (Params.decode canonical).map Params.encode = .ok canonical := by
  refine ⟨Response.decode_encode_iff, fun v o hv h => ?_, Params.decode_encode, fun v p h => ?_⟩
  · obtain ⟨hjson, hdecode⟩ := Response.encodeOptional_of_decode hv h
    refine ⟨hjson, hdecode, ?_, ?_⟩
    · rw [hdecode]
      rfl
    · rw [hdecode, h]
  · refine ⟨p.isJson_encode, p.decode_encode, ?_⟩
    rw [p.decode_encode]
    rfl

/-- A reply with a message that is `null` and a field that is not known, and parameters that are
written as arrays. -/
theorem round_trip_of_null_message :
    let v : Value := .table [("coveredPercent", .float Binary64.hundred), ("defaultMessage", .null),
      ("version", .integer 1)]
    let r : Response := ⟨.hundred, [], none⟩
    let w : Value := .array [.array [.string "file:///a.js"]]
    let p : Params := ⟨⟨"file:///a.js", rfl⟩⟩
    (v.isJson = true ∧ Response.decodeOptional v = .ok (some r) ∧
      Response.decodeOptional r.encode = .ok (some r)) ∧
    Params.decode w = .ok p ∧ Params.decode p.encode = .ok p := by
  intro v r w p
  have hv : v.isJson = true := by decide +kernel
  have hdecode : Response.decodeOptional v = .ok (some r) := rfl
  have hw : Params.decode w = .ok p :=
    Params.decode_eq_ok.2 ⟨_, .array _ (by decide), _, rfl, _, .array _ (by decide), _, rfl, rfl⟩
  obtain ⟨-, hresponse, -, hparams⟩ := round_trip
  exact ⟨⟨hv, hdecode, (hresponse v (some r) hv hdecode).2.1⟩, hw, (hparams w p hw).2.1⟩

end CoverageTracker.Wire
