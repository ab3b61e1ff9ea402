import CoverageTracker.Proofs.LanguageServer.Acceptance
import CoverageTracker.Proofs.Session.Reporting
set_option autoImplicit false

/-!
# Uncovered ranges reach the diagnostics unchanged

A range goes through two defaults on its way from the wire to a diagnostic: a reply gives its message
to the ranges that have none, and a diagnostic without a message gets that of the tracker.  In between
it is part of a result, which the controller keeps as long as moves stay with its document.  None of
these reorders, drops or overrides anything, so each diagnostic is the marker of its range
(`marker`).
-/

namespace CoverageTracker.LanguageServer

open CoverageTracker.Data

variable {v : Value} {w : Wire.Response}

/-- What is told of a range: its own message, or else that of the reply, or else that of the
tracker. -/
def marker (w : Wire.Response) (u : UncoveredRange) : Diagnostic where
  range := u.range
  severity := .information
  source := Diagnostic.sourceName
  message :=
    match u.message, w.defaultMessage with
    | some own, _ => own
    | none, some shared => shared
    | none, none => UncoveredRange.defaultMessage

/-- The outcome of a reply is the result that it reports. -/
theorem outcome_of_writes (hv : v.isJson = true) (hw : Wire.WritesResponse v w) :
    ∃ r, Outcome.coverage (meaning.outcome (.value v)) = some r ∧
      r.uncovered = w.uncovered.map fun u => ⟨u.range, u.message <|> w.defaultMessage⟩ := by
  have hnull : v ≠ .null := by
    rintro rfl
    exact Wire.not_writesResponse_null hw
  have hcoverage : (Reply.value v).coverage = .ok w.result? := by
    rw [coverage_of_ne_null hnull, Wire.Response.decode_eq_ok.2 hw]
  obtain ⟨r, hresult, -, huncovered⟩ := hw.result? hv
  refine ⟨r, ?_, huncovered⟩
  show Outcome.coverage (Reply.value v).outcome = _
  rw [Reply.outcome, hcoverage, hresult]
  rfl

/-- The two defaults come to the marker. -/
theorem diagnostic_of_filled (w : Wire.Response) :
    (w.uncovered.map fun u => ⟨u.range, u.message <|> w.defaultMessage⟩).map
      UncoveredRange.diagnostic = w.uncovered.map (marker w) := by
  rw [List.map_map]
  refine List.map_congr_left fun u _ => ?_
  obtain ⟨range, message⟩ := u
  cases message <;> cases hshared : w.defaultMessage <;>
    simp [marker, UncoveredRange.diagnostic, hshared]

/-- Uncovered ranges reach the diagnostics unchanged.  Let a request be pending, and a reply on the
wire be the one that its call takes.  Once the completion of the request was applied, and as long as
moves stay with the tracked document, that is until an activation, a save, a disconnect or the end of
the controller, its document is tracked.  While uncovered ranges are shown, the store of diagnostics
holds the markers of the ranges of the reply, in their order, for the URI of that document and no
other; it holds none while they are not shown, or if the reply has none.  In all that time, and since
the request was pending, no other diagnostics were published. -/
theorem annotations_of_reply (settings : Settings) (showUncovered : Bool)
    (before after : List (Move Reply)) (q : Request) (v : Value) (w : Wire.Response) :
    let s := (Session.create showUncovered).playAll settings meaning before
    let t := s.playAll settings meaning after
    v.isJson = true → Wire.WritesResponse v w →
    s.controller.state.pending = some q → (∀ move ∈ after, move.stays = true) →
    (∃ a ∈ t.controller.pool.arrivals, a.request = q ∧ a.reply = .value v) →
    (∃ x ∈ t.controller.applied, x.request = q) →
    t.controller.state.active = some q.document ∧
    Recorder.published t.controller.sinks =
      (if t.controller.state.showUncovered && !w.uncovered.isEmpty then
        [(q.document.uri.text, w.uncovered.map (marker w))] else []) ∧
    ∃ told, t.controller.sinks = s.controller.sinks ++ told ∧
      ∀ uri ds, .publish uri ds ∈ told →
        uri = q.document.uri ∧ ds = w.uncovered.map (marker w) ∧ w.uncovered ≠ [] := by
  intro s t hv hw hpending hstays ⟨a, ha, harequest, hareply⟩ ⟨x, hx, hxq⟩
  have ht : t = (Session.create showUncovered).playAll settings meaning (before ++ after) :=
    (Session.playAll_append settings meaning before after _).symm
  have hstart := Session.concerns_of_pending
    (Session.sound_playAll settings meaning showUncovered before)
    (Session.consistent_playAll settings meaning showUncovered before) hpending
  obtain ⟨hconcerns, told, htold, hpublishes⟩ :=
    Session.concerns_playAll settings meaning showUncovered before hstays hstart
  obtain ⟨r, hr, huncovered⟩ := outcome_of_writes hv hw
  -- every completion of the request has the result of its one reply
  have hresult (y : Completion) (hy : y ∈ t.controller.applied) (hyq : y.request = q) :
      y.result = some r := by
    rw [← hr, ← hareply]
    rw [ht] at hy ha
    exact Session.result_of_arrival settings meaning showUncovered _ ha hy
      (hyq.trans harequest.symm)
  have hconsistent := Session.consistent_playAll settings meaning showUncovered (before ++ after)
  have htraced := Session.traced_playAll settings meaning showUncovered (before ++ after)
  have hreported := Session.reported_playAll settings meaning showUncovered (before ++ after)
  have hcurrent := Session.current_playAll settings meaning showUncovered (before ++ after)
  rw [← ht] at hconcerns htold hpublishes hconsistent htraced hreported hcurrent
  obtain ⟨hidle, hcoverage⟩ := hconcerns.coverage hconsistent htraced hreported hx hxq
  refine ⟨hconcerns.active, ?_, told, htold, fun uri ds hmem => ?_⟩
  · rw [hresult x hx hxq] at hcoverage
    rw [(hcurrent hconcerns.kept hconcerns.used).2,
      State.diagnostics_of_result hidle hconcerns.active hcoverage, huncovered,
      diagnostic_of_filled, List.isEmpty_map]
    split <;> rfl
  · obtain ⟨y, hy, hyq, huri, r', hr', hranges, hds⟩ := hpublishes uri ds hmem
    rw [hresult y hy hyq, Option.some.injEq] at hr'
    rw [← hr', huncovered, diagnostic_of_filled] at hds
    refine ⟨huri, hds, fun hnone => hranges ?_⟩
    rw [← hr', huncovered, hnone]
    rfl

/-- Two ranges, one of them with an empty message, are shown after a toggle and a second
notification that the server is connected. -/
theorem annotations_of_reply_of_toggle :
    let d : Document := ⟨⟨"file:///a.js", rfl⟩, "javascript", none⟩
    let settings : Settings := ⟨fun _ => true, .clear⟩
    let range (n : Nat) : Value := .array [.array [.integer n, .integer 0],
      .array [.integer n, .integer 9]]
    let v : Value := .table [("coveredPercent", .float Binary64.hundred),
      ("defaultMessage", .string "not typed"),
      ("uncoveredRanges", .array [.array [range 4, .string ""], .array [range 2]])]
    let s := (Session.create false).playAll settings meaning [.connection true, .activate (some d)]
    let t := s.playAll settings meaning [.progress 0, .answer 0 (.value v), .progress 0, .poll,
      .toggle, .connection true]
    Recorder.published t.controller.sinks = [("file:///a.js",
      [⟨⟨⟨4, 0⟩, ⟨4, 9⟩⟩, .information, Diagnostic.sourceName, ""⟩,
        ⟨⟨⟨2, 0⟩, ⟨2, 9⟩⟩, .information, Diagnostic.sourceName, "not typed"⟩])] := by
  intro d settings range v
  let w : Wire.Response := ⟨.hundred, [⟨⟨⟨4, 0⟩, ⟨4, 9⟩⟩, some ""⟩, ⟨⟨⟨2, 0⟩, ⟨2, 9⟩⟩, none⟩],
    some "not typed"⟩
  have hw : Wire.WritesResponse v w := Wire.Response.decode_eq_ok.1 rfl
  -- which reply is taken does not depend on what it says
  have harrivals (v : Value) : (((Session.create false).playAll settings meaning
      [.connection true, .activate (some d)]).playAll settings meaning [.progress 0,
      .answer 0 (.value v), .progress 0, .poll, .toggle, .connection true]).controller.pool.arrivals =
      [⟨⟨0, ⟨1⟩, d⟩, .value v, false⟩] := by
    subst d settings
    rfl
  obtain ⟨_, hpublished, _⟩ := annotations_of_reply settings false
    [.connection true, .activate (some d)]
    [.progress 0, .answer 0 (.value v), .progress 0, .poll, .toggle, .connection true]
    ⟨0, ⟨1⟩, d⟩ v w (by decide +kernel) hw (by decide +kernel) (by decide)
    ⟨_, by rw [harrivals]; exact .head _, rfl, rfl⟩ (by decide +kernel)
  exact hpublished.trans (by decide +kernel)

end CoverageTracker.LanguageServer
