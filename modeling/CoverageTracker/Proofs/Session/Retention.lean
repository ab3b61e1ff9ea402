import CoverageTracker.Proofs.Session.Consistent
import CoverageTracker.Proofs.Session.Handovers
import CoverageTracker.Proofs.Session.Views
set_option autoImplicit false

/-!
# The last result is kept while it is computed anew

A result is of the tracked document, and a new computation of the same document leaves it
(`Controller.track_kept`).  So moves that go on with one document (`Move.keeps`) leave its result as
it is, as long as no completion of the newest request comes to be applied (`Unrenewed`): a completion
of an older request is not applied anyway.  Any other transition drops the result in the same step
(`coverage_of_leaving`).
-/

namespace CoverageTracker

variable {ρ : Type} {m : Meaning ρ} {settings : Settings} {uri : Uri}

/-- Whether a move goes on with the document of a URI: it does not end the use of the controller, is
no disconnect, and activates or saves nothing but eligible documents with that URI. -/
def Move.keeps (settings : Settings) (uri : Uri) : Move ρ → Bool
  | .connection connected => connected
  | .activate d => d.any fun d => settings.eligible d && d.uri == uri
  | .save d => settings.eligible d && d.uri == uri
  | .dispose | .drop => false
  | _ => true

namespace Controller

variable {c c' : Controller ρ} {d : Document} {r : Coverage}

/-- The document of a URI is tracked, and this is its result. -/
structure Knows (uri : Uri) (r : Coverage) (c : Controller ρ) : Prop where
  used : c.disposed = false
  active : ∃ d, c.state.active = some d ∧ d.uri = uri
  coverage : c.state.coverage = some r

theorem Knows.congr (h : c.Knows uri r) (hdisposed : c'.disposed = c.disposed)
    (hactive : c'.state.active = c.state.active) (hcoverage : c'.state.coverage = c.state.coverage) :
    c'.Knows uri r where
  used := hdisposed.trans h.used
  active := by
    rw [hactive]
    exact h.active
  coverage := hcoverage.trans h.coverage

/-- Whether the result of a document is kept is a matter of URIs alone. -/
theorem same_of_active (hactive : ∃ e, c.state.active = some e ∧ e.uri = uri) :
    c.state.active.any (Document.same · d) = (d.uri == uri) := by
  obtain ⟨e, he, rfl⟩ := hactive
  rw [he, Option.any_some, Document.same, Bool.beq_comm]

theorem Knows.activated (h : c.Knows uri r) (hconnected : c.state.connected = true)
    (heligible : settings.eligible d = true) (huri : d.uri = uri) :
    (c.activated settings (some d)).Knows uri r := by
  have hsame : c.state.active.any (Document.same · d) = true := by
    rw [same_of_active h.active, huri, beq_self_eq_true]
  rw [activated_of_used h.used, activate, if_pos (by rw [hconnected, heligible]; rfl), track_eq,
    hsame]
  exact ⟨h.used, ⟨d, rfl, huri⟩, h.coverage⟩

/-- Nothing is known of a document that was not tracked before. -/
theorem coverage_activated (hused : c.disposed = false)
    (hactive : ∃ e, c.state.active = some e ∧ e.uri = uri)
    (hother : (settings.eligible d && d.uri == uri) = false) :
    (c.activated settings (some d)).state.coverage = none := by
  rw [activated_of_used hused, activate]
  split
  · rename_i htracked
    rw [Bool.and_eq_true] at htracked
    rw [htracked.2, Bool.true_and] at hother
    rw [track_eq, same_of_active hactive, hother]
    rfl
  · rw [untrack_eq]
    rfl

theorem coverage_of_none (hused : c.disposed = false) :
    (c.activated settings none).state.coverage = none := by
  rw [activated_of_used hused, activate, untrack_eq]
  rfl

end Controller

namespace Session

variable {s s' : Session ρ} {move : Move ρ} {answer : Answer} {r : Coverage}

/-- No move applies the completion of the request that is the newest one at that time. -/
def Unrenewed (settings : Settings) (m : Meaning ρ) : List (Move ρ) → Session ρ → Prop
  | [], _ => True
  | move :: moves, s =>
    (∀ h ∈ s.handovers m move, h.1.request.id.number = h.2.issued → (h.2.computed h.1).1 = false) ∧
      Unrenewed settings m moves (s.after settings m move)

/-- What is not the completion of the newest request is not applied. -/
theorem applied_of_unrenewed (hsound : s.holding.Sound) (hconsistent : s.controller.Consistent)
    (hnewest : ∀ h ∈ s.handovers m move,
      h.1.request.id.number = h.2.issued → (h.2.computed h.1).1 = false)
    (hplay : s.play settings m move = some (answer, s')) :
    s'.controller.applied = s.controller.applied := by
  have hstep : ∀ a b, Holding.Step settings m a b → a.Sound ∧ a.controller.Consistent →
      b.Sound ∧ b.controller.Consistent :=
    fun _ _ hstep h => ⟨h.1.step hstep, h.1.consistent_step h.2 hstep⟩
  have hignored : ∀ h ∈ s.handovers m move, (h.2.computed h.1).1 = false := by
    intro h hmem
    cases happlied : (h.2.computed h.1).1 with
    | false => rfl
    | true =>
      obtain ⟨held, hheld, hsound, hconsistent⟩ :=
        handovers_induction hstep ⟨hsound, hconsistent⟩ hmem
      have hpending := pending_of_computed hsound hheld happlied
      rw [hnewest h hmem (hconsistent.pending _ hpending).2] at happlied
      cases happlied
  have hnone : ((s.handovers m move).flatMap fun h =>
      if (h.2.computed h.1).1 then [h.1] else []) = [] := by
    rw [List.flatMap_eq_nil_iff]
    intro h hmem
    rw [hignored h hmem]
    rfl
  rw [applied_play hplay, hnone, List.append_nil]

/-- Completions that are not applied change nothing. -/
theorem knows_handover (hkind : move.kind = .handover)
    (hplay : s.play settings m move = some (answer, s'))
    (happlied : s'.controller.applied = s.controller.applied)
    (h : s.controller.Knows uri r) : s'.controller.Knows uri r := by
  have hlog : s.controller.applied.length < s'.controller.applied.length ∨
      s'.controller.Knows uri r ∧
        s'.controller.applied.length = s.controller.applied.length := by
    refine handover_induction (P := fun c => s.controller.applied.length < c.applied.length ∨
      c.Knows uri r ∧ c.applied.length = s.controller.applied.length) ?_ ?_ hkind hplay
      fun _ => Or.inr ⟨h, rfl⟩
    · intro c pool hc
      exact hc.imp_right fun hc => ⟨hc.1.congr rfl rfl rfl, hc.2⟩
    · intro x c hc
      rcases c.fresh_or_stale x with ⟨hdisposed, hfresh⟩ | hstale
      · left
        have hlength : (c.computed x).2.applied.length = c.applied.length + 1 := by
          rw [c.computed_of_fresh hdisposed hfresh]
          exact List.length_append
        rw [hlength]
        rcases hc with hmore | ⟨_, hsame⟩
        · omega
        · omega
      · rw [c.computed_of_stale hstale]
        exact hc
  rcases hlog with hmore | ⟨hknows, _⟩
  · rw [happlied] at hmore
    exact absurd hmore (Nat.lt_irrefl _)
  · exact hknows

theorem knows_play (hmove : move.keeps settings uri = true) (hsound : s.holding.Sound)
    (hconsistent : s.controller.Consistent)
    (hnewest : ∀ h ∈ s.handovers m move,
      h.1.request.id.number = h.2.issued → (h.2.computed h.1).1 = false)
    (hplay : s.play settings m move = some (answer, s')) (h : s.controller.Knows uri r) :
    s'.controller.Knows uri r := by
  cases hkind : move.kind with
  | quiet =>
    have halike := alike_of_quiet hkind hplay
    exact h.congr halike.disposed (by rw [halike.state]) (by rw [halike.state])
  | handover =>
    exact knows_handover hkind hplay (applied_of_unrenewed hsound hconsistent hnewest hplay) h
  | ending =>
    cases move with
    | dispose => cases hmove
    | drop => cases hmove
    | _ => cases hkind
  | transition =>
    obtain ⟨e, he, _⟩ := h.active
    have hconnected := hconsistent.connected e he
    unfold play at hplay
    cases move with
    | connection connected =>
      have hstill : connected = true := hmove
      obtain ⟨_, _, rfl⟩ := operate_eq_some hplay
      subst hstill
      show (s.controller.connection settings true s.focus).Knows uri r
      rw [Controller.connection_still s.focus h.used hconnected]
      exact h.congr rfl rfl rfl
    | activate d =>
      obtain ⟨_, _, rfl⟩ := operate_eq_some hplay
      obtain ⟨d, rfl, hd⟩ := (Option.any_eq_true _ _).mp hmove
      rw [Bool.and_eq_true, beq_iff_eq] at hd
      exact h.activated hconnected hd.1 hd.2
    | save d =>
      obtain ⟨_, _, rfl⟩ := operate_eq_some hplay
      have hd : (settings.eligible d && d.uri == uri) = true := hmove
      rw [Bool.and_eq_true, beq_iff_eq] at hd
      exact h.activated hconnected hd.1 hd.2
    | toggle =>
      obtain ⟨_, _, rfl⟩ := operate_eq_some hplay
      unfold Controller.toggle
      split
      · exact h
      · exact h.congr rfl rfl rfl
    | _ => cases hkind

/-! ## Moves that leave the document -/

/-- Every transition that does not go on with the document drops its result in the same step. -/
theorem coverage_of_leaving (hkind : move.kind = .transition)
    (hleaves : move.keeps settings uri = false) (hdropped : s.dropped = false)
    (h : s.controller.Knows uri r) :
    ∃ s', s.play settings m move = some (.nothing, s') ∧
      s'.controller.state.coverage = none := by
  have hplay : ∀ f : Controller ρ → Controller ρ,
      s.operate (fun c => (.nothing, f c)) =
        some (.nothing, { s with controller := f s.controller }) := by
    intro f
    simp [operate, hdropped]
  cases move with
  | connection connected =>
    have hlost : connected = false := hleaves
    subst hlost
    refine ⟨_, hplay fun c => c.connection settings false s.focus, ?_⟩
    show (s.controller.connection settings false s.focus).state.coverage = none
    rw [Controller.connection_lost s.focus h.used, Controller.untrack_eq]
    rfl
  | activate d =>
    refine ⟨_, hplay fun c => c.activated settings d, ?_⟩
    cases d with
    | none => exact Controller.coverage_of_none h.used
    | some d => exact Controller.coverage_activated h.used h.active hleaves
  | save d =>
    exact ⟨_, hplay fun c => c.saved settings d,
      Controller.coverage_activated h.used h.active hleaves⟩
  | toggle => cases hleaves
  | _ => cases hkind

/-! ## Whole sessions -/

instance decidableUnrenewed (settings : Settings) (m : Meaning ρ) :
    ∀ (moves : List (Move ρ)) (s : Session ρ), Decidable (s.Unrenewed settings m moves)
  | [], _ => .isTrue trivial
  | move :: moves, s =>
    @instDecidableAnd _ _ inferInstance
      (decidableUnrenewed settings m moves (s.after settings m move))

/-- What is known of the document is known as long as every move goes on with it. -/
theorem knows_playAll (settings : Settings) (m : Meaning ρ) (showUncovered : Bool)
    (before after : List (Move ρ)) (hkeeps : ∀ move ∈ after, move.keeps settings uri = true)
    (hunrenewed : Unrenewed settings m after ((create showUncovered).playAll settings m before))
    (hdropped : ((create showUncovered).playAll settings m before).dropped = false)
    (h : ((create showUncovered).playAll settings m before).controller.Knows uri r) :
    ((create showUncovered).playAll settings m (before ++ after)).dropped = false ∧
      ((create showUncovered).playAll settings m (before ++ after)).controller.Knows uri r := by
  induction after generalizing before with
  | nil =>
    rw [List.append_nil]
    exact ⟨hdropped, h⟩
  | cons move after ih =>
    have hmove := hkeeps move List.mem_cons_self
    have hnext : ((create showUncovered).playAll settings m (before ++ [move])).dropped = false ∧
        ((create showUncovered).playAll settings m (before ++ [move])).controller.Knows uri r := by
      rw [playAll_concat]
      cases hplay : ((create showUncovered).playAll settings m before).play settings m move with
      | none =>
        rw [after_of_none hplay]
        exact ⟨hdropped, h⟩
      | some result =>
        rw [after_of_play hplay]
        have hgoes : move ≠ .drop := by
          rintro rfl
          cases hmove
        exact ⟨(dropped_play hgoes hplay).trans hdropped,
          knows_play hmove (sound_playAll settings m showUncovered before)
            (consistent_playAll settings m showUncovered before) hunrenewed.1 hplay h⟩
    rw [List.append_cons]
    refine ih (before ++ [move]) (fun other hother => hkeeps other (.tail move hother)) ?_ hnext.1
      hnext.2
    rw [playAll_concat]
    exact hunrenewed.2

/-- The last known percentage is kept while it is computed anew.  From a state in which a document is
tracked and its result is known, let any moves go on with that document, so that no completion of the
request that is the newest one at the time is applied.  Then the result is still exactly the same, a
document with the same URI is tracked, and the status shows the percentage of the result, as being
computed anew exactly if a request is pending.  From there every transition that does not go on with
the document, that is an activation of none, an activation or a save of one that is not eligible or
has another URI, or a disconnect, drops the result in the same step. -/
theorem percent_kept_while_recomputing (settings : Settings) (m : Meaning ρ) (showUncovered : Bool)
    (before after : List (Move ρ)) (d : Document) (r : Coverage) :
    let s := (create showUncovered).playAll settings m before
    let t := s.playAll settings m after
    s.dropped = false → s.controller.disposed = false →
    s.controller.state.active = some d → s.controller.state.coverage = some r →
    (∀ move ∈ after, move.keeps settings d.uri = true) → s.Unrenewed settings m after →
    t.controller.state.coverage = some r ∧
    (∃ e, t.controller.state.active = some e ∧ e.uri = d.uri) ∧
    Recorder.lastStatus t.controller.sinks =
      some ⟨t.controller.state.pending.isSome, some r.percent, t.controller.state.showUncovered⟩ ∧
    ∀ move, move.kind = .transition → move.keeps settings d.uri = false →
      ∃ t', t.play settings m move = some (.nothing, t') ∧
        t'.controller.state.coverage = none := by
  intro s t hdropped hused hactive hcoverage hkeeps hunrenewed
  have ht : t = (create showUncovered).playAll settings m (before ++ after) :=
    (playAll_append settings m before after _).symm
  have hknows : s.controller.Knows d.uri r := ⟨hused, ⟨d, hactive, rfl⟩, hcoverage⟩
  obtain ⟨hstays, hknown⟩ := knows_playAll settings m showUncovered before after hkeeps hunrenewed
    hdropped hknows
  rw [← ht] at hstays hknown
  obtain ⟨e, he, _⟩ := hknown.active
  have hconnected : t.controller.state.connected = true := by
    have hconsistent := consistent_playAll settings m showUncovered (before ++ after)
    rw [← ht] at hconsistent
    exact hconsistent.connected e he
  have hshown : Recorder.lastStatus t.controller.sinks = t.controller.state.status := by
    have hcurrent := current_playAll settings m showUncovered (before ++ after)
    rw [← ht] at hcurrent
    exact (hcurrent hstays hknown.used).1
  refine ⟨hknown.coverage, hknown.active, ?_, fun move hkind hleaves =>
    coverage_of_leaving hkind hleaves hstays hknown⟩
  rw [hshown]
  simp [State.status, he, hconnected, hknown.coverage]

/-- Two saves, under another language the second time, with the completion of the first one handed
over too late: the first percentage stays.  The disconnect after that drops it. -/
theorem percent_kept_while_recomputing_of_saves :
    let d : Document := ⟨⟨"file:///a.js", rfl⟩, "javascript", none⟩
    let e : Document := ⟨⟨"file:///a.js", rfl⟩, "javascriptreact", some "/a.js"⟩
    let r : Coverage := ⟨.hundred, [], Binary64.isPercent_hundred⟩
    let late : Coverage := ⟨.zero, [], Binary64.isPercent_zero⟩
    let settings : Settings := ⟨fun _ => true, .clear⟩
    let s := (create true).playAll settings Meaning.direct [.connection true, .activate (some d),
      .resolve "file:///a.js" (.ok (some r)), .settle]
    let t := s.playAll settings .direct [.save d, .run,
      .resolve "file:///a.js" (.ok (some late)), .run, .save e, .poll, .connection true,
      .toggle]
    Recorder.lastStatus t.controller.sinks = some ⟨true, some Binary64.hundred, false⟩ ∧
      ∃ t', t.play settings .direct (.connection false) = some (.nothing, t') ∧
        t'.controller.state.coverage = none := by
  intro d e r late settings
  obtain ⟨_, _, hstatus, hleaves⟩ := percent_kept_while_recomputing settings .direct true
    [.connection true, .activate (some d),
      .resolve "file:///a.js" (.ok (some r)), .settle]
    [.save d, .run, .resolve "file:///a.js" (.ok (some late)), .run, .save e, .poll,
      .connection true, .toggle] d r (by decide +kernel) (by decide +kernel)
    (by decide +kernel) (by decide +kernel) (by simp [Move.keeps, settings, d, e])
    (by decide +kernel)
  exact ⟨hstatus.trans (by decide +kernel), hleaves (.connection false) rfl rfl⟩

end Session

end CoverageTracker
