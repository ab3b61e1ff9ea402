import CoverageTracker.Proofs.Session.Failures
import CoverageTracker.Proofs.Session.Handovers
import CoverageTracker.Proofs.Session.Provenance
import CoverageTracker.Proofs.Session.Views
import Mathlib.Data.List.Induction
set_option autoImplicit false

/-!
# What the reply to the newest request shows

A request stays the newest one, and the tracked document the one that it is about, as long as moves
stay with them (`Move.stays`, `Concerns`).  Once its completion was applied nothing is pending and
its result is what is known (`Concerns.coverage`), whatever else happens meanwhile.  So all that the
store of diagnostics is told from the moment at which the request is pending is the result of this
one completion (`concerns_playAll`), which is what the reply to the request comes to
(`result_of_arrival`).
-/

namespace CoverageTracker

variable {ρ : Type} {m : Meaning ρ} {settings : Settings}

/-- Whether a move tracks what was tracked before, and computes nothing anew: it is no activation,
no save, no disconnect, and does not end the use of the controller. -/
def Move.stays : Move ρ → Bool
  | .connection connected => connected
  | .activate _ | .save _ | .dispose | .drop => false
  | _ => true

theorem Move.not_ending_of_stays {move : Move ρ} (hmove : move.stays = true) :
    move.kind ≠ .ending := by
  intro hkind
  cases move with
  | dispose => cases hmove
  | drop => cases hmove
  | _ => cases hkind

/-! ## Diagnostics of a state -/

namespace State

variable {state : State} {d : Document} {r : Coverage} {uri : Uri} {ds : List Diagnostic}

/-- While nothing is pending, the diagnostics are those of the result of the tracked document. -/
theorem diagnostics_of_result (hpending : state.pending = none) (hactive : state.active = some d)
    (hcoverage : state.coverage = some r) :
    state.diagnostics = if state.showUncovered && !r.uncovered.isEmpty then
      some (d.uri, r.uncovered.map UncoveredRange.diagnostic) else none := by
  cases hshow : state.showUncovered <;> cases hranges : r.uncovered.isEmpty <;>
    simp [diagnostics, hshow, hpending, hactive, hcoverage, hranges]

/-- If there are diagnostics, they are of such a result. -/
theorem diagnostics_eq_some (h : state.diagnostics = some (uri, ds)) :
    state.pending = none ∧ ∃ d r, state.active = some d ∧ state.coverage = some r ∧
      r.uncovered ≠ [] ∧ uri = d.uri ∧ ds = r.uncovered.map UncoveredRange.diagnostic := by
  have hpending : state.pending = none := by
    by_contra hpending
    simp [diagnostics, Option.isSome_iff_ne_none.mpr hpending] at h
  cases hactive : state.active with
  | none => simp [diagnostics, hactive] at h
  | some d =>
    cases hcoverage : state.coverage with
    | none => simp [diagnostics, hactive, hcoverage] at h
    | some r =>
      rw [diagnostics_of_result hpending hactive hcoverage] at h
      split at h
      · rename_i hshown
        rw [Option.some.injEq, Prod.mk.injEq] at h
        refine ⟨hpending, d, r, rfl, rfl, ?_, h.1.symm, h.2.symm⟩
        rintro hnone
        simp [hnone] at hshown
      · cases h

end State

/-! ## The result of the newest request -/

/-- While a document is tracked, the result of the newest request is known once its completion was
applied. -/
def Controller.Reported (c : Controller ρ) : Prop :=
  c.state.active ≠ none → ∀ x ∈ c.applied, x.number = c.issued → c.state.coverage = x.result

theorem Controller.reported_of_no_active {c : Controller ρ} (h : c.state.active = none) :
    c.Reported := fun hactive => absurd h hactive

/-- The same document is tracked and no request was issued meanwhile; nobody disposed of the
controller. -/
structure Controller.Unmoved (c c' : Controller ρ) : Prop where
  active : c'.state.active = c.state.active
  issued : c'.issued = c.issued
  disposed : c'.disposed = c.disposed

theorem Controller.Unmoved.computed {c c' : Controller ρ} (h : c.Unmoved c') (x : Completion) :
    c.Unmoved (c'.computed x).2 := by
  rcases c'.fresh_or_stale x with ⟨hdisposed, hfresh⟩ | hstale
  · rw [c'.computed_of_fresh hdisposed hfresh]
    exact ⟨h.active, h.issued, h.disposed⟩
  · rw [c'.computed_of_stale hstale]
    exact h

namespace Holding

variable {a b : Holding ρ}

theorem Traced.reported_step (h : Traced m a) (hsound : Sound a)
    (hconsistent : a.controller.Consistent) (hreported : a.controller.Reported)
    (hstep : Step settings m a b) : b.controller.Reported := by
  cases hstep with
  | progress t c dropped held => exact hreported
  | resolve uri reply c dropped held => exact hreported
  | answer t reply c dropped held => exact hreported
  | display _ _ c held => exact hreported
  | connect c held _ => exact hreported
  | disconnect c held _ =>
    rw [Controller.untrack_eq]
    exact Controller.reported_of_no_active rfl
  | untrack c held _ =>
    rw [Controller.untrack_eq]
    exact Controller.reported_of_no_active rfl
  | track d c held _ _ _ =>
    -- nothing was applied yet of the request that is issued now
    rw [Controller.track_eq]
    intro _ x hx hnumber
    have hissued : x.number ≤ c.issued := (h.applied x hx).2
    have hnumber : x.number = c.issued + 1 := hnumber
    omega
  | receive x rest c held _ => exact hreported
  | accept x c before after _ hfresh =>
    have hpending := hsound.pending_of_fresh (by simp) hfresh
    have hnewest : x.number = c.issued := (hconsistent.pending _ hpending).2
    intro _ y hy hnumber
    have hnumber : y.number = c.issued := hnumber
    rcases List.mem_append.mp hy with hy | hy
    · have hearlier : y.number < x.number := h.newer _ hpending y hy
      omega
    · rw [List.mem_singleton] at hy
      rw [hy]
      rfl
  | ignore x c before after _ => exact hreported
  | dispose c held _ =>
    rw [Controller.cancelPending_eq]
    exact hreported
  | drop c held =>
    unfold Controller.drop
    rw [Controller.cancelPending_eq]
    exact hreported

theorem reported_disturb (h : a.controller.Reported) (hdisturbance : Disturbance a b) :
    b.controller.Reported := by
  cases hdisturbance with
  | cancel r c held _ => exact h
  | forget x c dropped before after => exact h

end Holding

namespace Session

open Holding

variable {s s' : Session ρ} {move : Move ρ} {answer : Answer} {q : Request} {x : Completion}

theorem reported_playAll (settings : Settings) (m : Meaning ρ) (showUncovered : Bool)
    (moves : List (Move ρ)) :
    ((create showUncovered).playAll settings m moves).controller.Reported :=
  (playAll_keeps_of_consistent (P := fun a => Traced m a ∧ a.controller.Reported) moves
    (sound_create showUncovered) (.create showUncovered)
    (fun _ _ hsound hconsistent hstep h =>
      ⟨h.1.step hsound hconsistent hstep, h.1.reported_step hsound hconsistent h.2 hstep⟩)
    (fun _ _ hdisturbance h => ⟨h.1.disturb hdisturbance, reported_disturb h.2 hdisturbance⟩)
    ⟨traced_create showUncovered, Controller.reported_of_no_active rfl⟩).2.2

/-! ## Moves that stay -/

theorem unmoved_play (hmove : move.stays = true) (hconnected : s.controller.state.connected = true)
    (hused : s.controller.disposed = false) (hplay : s.play settings m move = some (answer, s')) :
    s.controller.Unmoved s'.controller := by
  cases hkind : move.kind with
  | quiet =>
    have halike := alike_of_quiet hkind hplay
    exact ⟨by rw [halike.state], halike.issued, halike.disposed⟩
  | handover =>
    exact handover_induction (P := s.controller.Unmoved)
      (fun _ _ hc => ⟨hc.active, hc.issued, hc.disposed⟩) (fun x _ hc => hc.computed x) hkind hplay
      fun _ => ⟨rfl, rfl, rfl⟩
  | ending => exact absurd hkind (Move.not_ending_of_stays hmove)
  | transition =>
    unfold play at hplay
    cases move with
    | connection connected =>
      have hstill : connected = true := hmove
      subst hstill
      obtain ⟨_, _, rfl⟩ := operate_eq_some hplay
      show s.controller.Unmoved (s.controller.connection settings true s.focus)
      rw [Controller.connection_still s.focus hused hconnected]
      exact ⟨rfl, rfl, rfl⟩
    | toggle =>
      obtain ⟨_, _, rfl⟩ := operate_eq_some hplay
      show s.controller.Unmoved s.controller.toggle
      unfold Controller.toggle
      split <;> exact ⟨rfl, rfl, rfl⟩
    | activate d => cases hmove
    | save d => cases hmove
    | _ => cases hkind

/-- Whatever completions keep as they are handed over holds whenever one is. -/
theorem handovers_keep {P : Controller ρ → Prop}
    (hpool : ∀ (c : Controller ρ) (pool : Pool ρ), P c → P { c with pool })
    (hcomputed : ∀ x c, P c → P (c.computed x).2) (hs : P s.controller) :
    ∀ h ∈ s.handovers m move, P h.2 := by
  have hhanded : ∀ (queue : List Completion) (c : Controller ρ), P c →
      ∀ h ∈ Controller.handed queue c, P h.2 := by
    intro queue
    induction queue with
    | nil =>
      intro c _ h hmem
      cases hmem
    | cons x rest ih =>
      intro c hc h hmem
      have hrest : P (c.requeue rest) := hpool c _ hc
      rcases List.mem_cons.mp hmem with rfl | hmem
      · exact hrest
      · exact ih _ (hcomputed x _ hrest) h hmem
  intro h hmem
  unfold handovers at hmem
  split at hmem
  · cases hmem
  · split at hmem
    · obtain ⟨x, _, rfl⟩ := List.mem_map.mp hmem
      exact hs
    · exact hhanded _ _ hs h hmem
    · exact hhanded _ _ (hpool _ _ hs) h hmem
    · cases hmem

/-- A request is the newest one of a controller in use, and about the document that is tracked. -/
structure Concerns (q : Request) (s : Session ρ) : Prop where
  known : ∃ a, s.controller.pool.tasks[q.ticket]? = some a ∧ q = a.request q.ticket
  newest : q.id.number = s.controller.issued
  active : s.controller.state.active = some q.document
  used : s.controller.disposed = false
  kept : s.dropped = false

theorem concerns_of_pending (hsound : s.holding.Sound) (hconsistent : s.controller.Consistent)
    (hpending : s.controller.state.pending = some q) : Concerns q s := by
  have hended : ¬ (s.controller.disposed = true ∨ s.dropped = true) := by
    intro hunused
    have hnone := hsound.ended hunused
    rw [show s.holding.controller = s.controller from rfl, hpending] at hnone
    cases hnone
  rw [not_or, Bool.not_eq_true, Bool.not_eq_true] at hended
  obtain ⟨hactive, hnewest⟩ := hconsistent.pending q hpending
  exact ⟨hsound.exclusive.known q hpending, hnewest, hactive, hended.1, hended.2⟩

theorem Concerns.play (h : Concerns q s) (hmove : move.stays = true) (hsound : s.holding.Sound)
    (hconsistent : s.controller.Consistent) (hplay : s.play settings m move = some (answer, s')) :
    Concerns q s' := by
  obtain ⟨hactive, hissued, hdisposed⟩ :=
    unmoved_play hmove (hconsistent.connected _ h.active) h.used hplay
  have hgrows : s.controller.pool.Grows (s.playAll settings m [move]).controller.pool :=
    grows_playAll hsound [move]
  rw [playAll_cons, after_of_play hplay] at hgrows
  refine ⟨?_, h.newest.trans hissued.symm, hactive.trans h.active, hdisposed.trans h.used, ?_⟩
  · obtain ⟨a, ha, hq⟩ := h.known
    obtain ⟨b, hb, hab⟩ := hgrows _ a ha
    exact ⟨b, hb, by rw [hab.request]; exact hq⟩
  · have hgoes : move ≠ .drop := by
      rintro rfl
      cases hmove
    exact (dropped_play hgoes hplay).trans h.kept

/-- A completion with the number of the newest request is the one of that request. -/
theorem Concerns.request_eq (h : Concerns q s) (hconsistent : s.controller.Consistent)
    (hx : Pool.Answered m s.controller.pool x) (hnumber : x.number = s.controller.issued) :
    x.request = q := by
  obtain ⟨a, ha, hrequest⟩ := hx.task
  obtain ⟨b, hb, hq⟩ := h.known
  have hticket : x.ticket = q.ticket := by
    have hxid : x.number = a.id.number := congrArg (fun r => r.id.number) hrequest
    have hqid : q.id.number = b.id.number := congrArg (fun r => r.id.number) hq
    refine Nat.succ.inj ?_
    calc x.ticket + 1 = x.number := (hxid.trans (hconsistent.numbered _ a ha)).symm
      _ = q.id.number := hnumber.trans h.newest.symm
      _ = q.ticket + 1 := hqid.trans (hconsistent.numbered _ b hb)
  rw [hticket, hb, Option.some.injEq] at ha
  rw [hrequest, hq, ha, hticket]

/-! ## What is shown -/

/-- Once the completion of the newest request was applied, nothing is pending and its result is
known. -/
theorem Concerns.coverage (h : Concerns q s) (hconsistent : s.controller.Consistent)
    (htraced : Traced m s.holding) (hreported : s.controller.Reported)
    (hx : x ∈ s.controller.applied) (hxq : x.request = q) :
    s.controller.state.pending = none ∧ s.controller.state.coverage = x.result := by
  have hnumber : x.number = s.controller.issued := by rw [Completion.number, hxq, h.newest]
  refine ⟨Option.eq_none_iff_forall_ne_some.mpr fun r hr => ?_, ?_⟩
  · have hlater : x.number < r.id.number := htraced.newer r hr x hx
    have hnewest := (hconsistent.pending r hr).2
    omega
  · refine hreported ?_ x hx hnumber
    rw [h.active]
    exact Option.some_ne_none _

/-- The result of the completion of a request is told to the store of diagnostics, as that of the
document of the request. -/
def Publishes (q : Request) (s : Session ρ) (uri : Uri) (ds : List Diagnostic) : Prop :=
  ∃ x ∈ s.controller.applied, x.request = q ∧ uri = q.document.uri ∧
    ∃ r, x.result = some r ∧ r.uncovered ≠ [] ∧ ds = r.uncovered.map UncoveredRange.diagnostic

/-- A controller in use renders the result of its newest request or none. -/
theorem Concerns.publishes_of_render (h : Concerns q s) (hconsistent : s.controller.Consistent)
    (htraced : Traced m s.holding) {uri : Uri} {ds : List Diagnostic}
    (hrender : s.controller.state.diagnostics = some (uri, ds)) : Publishes q s uri ds := by
  obtain ⟨hpending, d, r, hactive, hcoverage, hranges, rfl, rfl⟩ :=
    State.diagnostics_eq_some hrender
  obtain ⟨_, x, _, hlast, hresult, _, _, hnewest⟩ := htraced.shown r hcoverage
  have hx : x ∈ s.controller.applied := List.mem_of_getLast? hlast
  have hxq := h.request_eq hconsistent (htraced.applied x hx).1 (hnewest hpending h.used h.kept)
  rw [h.active, Option.some.injEq] at hactive
  exact ⟨x, hx, hxq, by rw [hactive], r, hresult, hranges, rfl⟩

/-- A completion that is applied renders the result of the newest request or none. -/
theorem Concerns.publishes_of_handover (h : Concerns q s) (h' : Concerns q s')
    (hsound : s.holding.Sound) (hconsistent : s.controller.Consistent)
    (hconsistent' : s'.controller.Consistent) (htraced' : Traced m s'.holding)
    (hplay : s.play settings m move = some (answer, s'))
    {handed : Completion × Controller ρ} (hmem : handed ∈ s.handovers m move) {state : State}
    (hstate : Controller.appliedState handed = some state) {uri : Uri} {ds : List Diagnostic}
    (hrender : state.diagnostics = some (uri, ds)) : Publishes q s' uri ds := by
  obtain ⟨x, c⟩ := handed
  have hcomputed : (c.computed x).1 = true ∧ (c.computed x).2.state = state := by
    simpa [Controller.appliedState] using hstate
  have hstep : ∀ a b, Holding.Step settings m a b → a.Sound ∧ a.controller.Consistent →
      b.Sound ∧ b.controller.Consistent :=
    fun _ _ hstep h => ⟨h.1.step hstep, h.1.consistent_step h.2 hstep⟩
  obtain ⟨held, hheld, hcsound, hcconsistent⟩ :=
    handovers_induction hstep ⟨hsound, hconsistent⟩ hmem
  have hunmoved : s.controller.Unmoved c :=
    handovers_keep (fun _ _ hc => ⟨hc.active, hc.issued, hc.disposed⟩)
      (fun x _ hc => hc.computed x) ⟨rfl, rfl, rfl⟩ _ hmem
  have hpending := pending_of_computed hcsound hheld hcomputed.1
  have hx : x ∈ s'.controller.applied := by
    rw [applied_play hplay]
    refine List.mem_append_right _ (List.mem_flatMap.mpr ⟨_, hmem, ?_⟩)
    simp [hcomputed.1]
  have hnumber : x.number = s'.controller.issued := by
    rw [← h'.newest, h.newest, ← hunmoved.issued]
    exact (hcconsistent.pending _ hpending).2
  have hxq := h'.request_eq hconsistent' (htraced'.applied x hx).1 hnumber
  obtain ⟨-, d, r, hactive, hcoverage, hranges, rfl, rfl⟩ := State.diagnostics_eq_some hrender
  rw [← hcomputed.2, (state_computed hcomputed.1).1] at hactive hcoverage
  have hdocument : d = q.document := by
    have hactive : c.state.active = some d := hactive
    rw [hunmoved.active, h.active, Option.some.injEq] at hactive
    exact hactive.symm
  exact ⟨x, hx, hxq, by rw [hdocument], r, hcoverage, hranges, rfl⟩

/-- A move that stays tells the store of diagnostics the result of the newest request or none. -/
theorem Concerns.publishes_play (h : Concerns q s) (hmove : move.stays = true)
    (hsound : s.holding.Sound) (hconsistent : s.controller.Consistent)
    (hplay : s.play settings m move = some (answer, s')) (hconsistent' : s'.controller.Consistent)
    (htraced' : Traced m s'.holding) :
    ∃ told, s'.controller.sinks = s.controller.sinks ++ told ∧
      ∀ uri ds, .publish uri ds ∈ told → Publishes q s' uri ds := by
  have h' := h.play hmove hsound hconsistent hplay
  have hending := Move.not_ending_of_stays hmove
  have hsinks := sinks_play hplay
  rw [released_of_not_ending hending, List.append_nil] at hsinks
  refine ⟨_, hsinks, fun uri ds hmem => ?_⟩
  obtain ⟨state, hstate, hmem⟩ := List.mem_flatMap.mp hmem
  have hrender : state.diagnostics = some (uri, ds) := by
    rw [state.render_eq] at hmem
    cases hdiagnostics : state.diagnostics <;> simp [hdiagnostics] at hmem
    rw [hmem.1, hmem.2]
  cases hkind : move.kind with
  | quiet => simp [rendered, hkind] at hstate
  | ending => exact absurd hkind hending
  | transition =>
    simp only [rendered, hkind, h.used, Bool.false_eq_true, if_false, List.mem_singleton] at hstate
    rw [hstate] at hrender
    exact h'.publishes_of_render hconsistent' htraced' hrender
  | handover =>
    simp only [rendered, hkind, List.mem_filterMap] at hstate
    obtain ⟨handed, hhanded, happlied⟩ := hstate
    exact h.publishes_of_handover h' hsound hconsistent hconsistent' htraced' hplay hhanded happlied
      hrender

/-! ## Whole sessions -/

theorem Publishes.play {uri : Uri} {ds : List Diagnostic} (h : Publishes q s uri ds)
    (hplay : s.play settings m move = some (answer, s')) : Publishes q s' uri ds := by
  obtain ⟨x, hx, htold⟩ := h
  refine ⟨x, ?_, htold⟩
  rw [applied_play hplay]
  exact List.mem_append_left _ hx

/-- While moves stay, a request stays the newest one, and the store of diagnostics is told its
result or none. -/
theorem concerns_playAll (settings : Settings) (m : Meaning ρ) (showUncovered : Bool)
    (before : List (Move ρ)) {after : List (Move ρ)} (hstays : ∀ move ∈ after, move.stays = true)
    (h : Concerns q ((create showUncovered).playAll settings m before)) :
    Concerns q ((create showUncovered).playAll settings m (before ++ after)) ∧
      ∃ told, ((create showUncovered).playAll settings m (before ++ after)).controller.sinks =
          ((create showUncovered).playAll settings m before).controller.sinks ++ told ∧
        ∀ uri ds, .publish uri ds ∈ told →
          Publishes q ((create showUncovered).playAll settings m (before ++ after)) uri ds := by
  induction after using List.reverseRecOn with
  | nil =>
    rw [List.append_nil]
    exact ⟨h, [], by simp, by simp⟩
  | append_singleton after move ih =>
    obtain ⟨hconcerns, told, htold, hpublishes⟩ :=
      ih fun move hmem => hstays move (List.mem_append_left _ hmem)
    have hmove : move.stays = true :=
      hstays move (List.mem_append_right _ (List.mem_singleton_self move))
    have hsound := sound_playAll settings m showUncovered (before ++ after)
    have hconsistent := consistent_playAll settings m showUncovered (before ++ after)
    have hconsistent' := consistent_playAll settings m showUncovered (before ++ after ++ [move])
    have htraced' := traced_playAll settings m showUncovered (before ++ after ++ [move])
    rw [← List.append_assoc, playAll_concat]
    rw [playAll_concat] at hconsistent' htraced'
    cases hplay : ((create showUncovered).playAll settings m (before ++ after)).play settings m
        move with
    | none =>
      rw [after_of_none hplay]
      exact ⟨hconcerns, told, htold, hpublishes⟩
    | some result =>
      rw [after_of_play hplay] at hconsistent' htraced' ⊢
      obtain ⟨new, hnew, hpublishes'⟩ :=
        hconcerns.publishes_play hmove hsound hconsistent hplay hconsistent' htraced'
      refine ⟨hconcerns.play hmove hsound hconsistent hplay, told ++ new, ?_, fun uri ds hmem => ?_⟩
      · rw [hnew, htold, List.append_assoc]
      · rcases List.mem_append.mp hmem with hmem | hmem
        · exact (hpublishes uri ds hmem).play hplay
        · exact hpublishes' uri ds hmem

/-- The completion of a request has what the reply to the request comes to. -/
theorem result_of_arrival (settings : Settings) (m : Meaning ρ) (showUncovered : Bool)
    (moves : List (Move ρ)) {a : Arrival ρ}
    (ha : a ∈ ((create showUncovered).playAll settings m moves).controller.pool.arrivals)
    (hx : x ∈ ((create showUncovered).playAll settings m moves).controller.applied)
    (hrequest : x.request = a.request) : x.result = Outcome.coverage (m.outcome a.reply) := by
  have htraced := traced_playAll settings m showUncovered moves
  have hrecorded := recorded_playAll settings m showUncovered moves
  obtain ⟨b, hb, hbrequest, -, hresult⟩ := (htraced.applied x hx).1.arrival
  have hsame : b = a := by
    refine List.inj_on_of_nodup_map hrecorded.distinct hb ha ?_
    rw [hbrequest, hrequest]
  rw [← hresult, hsame]

end Session

end CoverageTracker
