import CoverageTracker.Proofs.Session.Moves
import CoverageTracker.Proofs.Session.Sound
set_option autoImplicit false

/-!
# Stale completions

Whatever every step keeps holds at each moment at which a completion is handed over
(`handovers_induction`).  So a controller is sound then, and a completion that it applies is the
one of the pending request (`pending_of_computed`): no stale completion is ever applied.
-/

namespace CoverageTracker

variable {ρ : Type} {m : Meaning ρ} {settings : Settings}

namespace Holding

/-- Whatever every step keeps holds whenever a poll hands a completion over. -/
theorem handed_induction {P : Holding ρ → Prop} (hstep : ∀ a b, Step settings m a b → P a → P b)
    {held : List Completion} : ∀ (queue : List Completion) (c : Controller ρ),
      c.pool.completions = queue → P ⟨c, false, held⟩ →
        ∀ h ∈ Controller.handed queue c, P ⟨h.2, false, held ++ [h.1]⟩ := by
  intro queue
  induction queue with
  | nil =>
    intro c _ _ h hmem
    cases hmem
  | cons x rest ih =>
    intro c hqueue hP h hmem
    have hreceive : P ⟨c.requeue rest, false, held ++ [x]⟩ :=
      hstep _ _ (.receive x rest c held hqueue) hP
    rcases List.mem_cons.mp hmem with rfl | hmem
    · exact hreceive
    · have hcomputed : P ⟨((c.requeue rest).computed x).2, false, held ++ []⟩ :=
        (steps_computed (c.requeue rest) x held []).induction hstep hreceive
      rw [List.append_nil] at hcomputed
      exact ih _ (Controller.completions_computed x _) hcomputed h hmem

end Holding

namespace Session

variable {s : Session ρ} {move : Move ρ}

/-- Whatever every step keeps holds whenever a completion is handed over; it is held until then. -/
theorem handovers_induction {P : Holding ρ → Prop}
    (hstep : ∀ a b, Holding.Step settings m a b → P a → P b) (hs : P s.holding)
    {h : Completion × Controller ρ} (hmem : h ∈ s.handovers m move) :
    ∃ held, h.1 ∈ held ∧ P ⟨h.2, false, held⟩ := by
  unfold handovers at hmem
  split at hmem
  · cases hmem
  · rename_i hdropped
    have hdropped : s.dropped = false := by simpa using hdropped
    unfold holding at hs
    rw [hdropped] at hs
    split at hmem
    · rename_i slot
      obtain ⟨x, hx, rfl⟩ := List.mem_map.mp hmem
      obtain ⟨before, after, hcontents, _⟩ := Slots.contents_clear (Option.mem_toList.mp hx)
      exact ⟨s.held.contents, by simp [hcontents], hs⟩
    · exact ⟨_, List.mem_append_right _ (List.mem_singleton_self _),
        Holding.handed_induction hstep _ _ rfl hs h hmem⟩
    · have hrun : P ⟨s.controller.run m, false, s.held.contents⟩ :=
        (Holding.steps_run s.controller s.held.contents false).induction hstep hs
      exact ⟨_, List.mem_append_right _ (List.mem_singleton_self _),
        Holding.handed_induction hstep _ _ rfl hrun h hmem⟩
    · cases hmem

/-! ## Only the pending request -/

/-- A sound controller applies a completion only if it is the one of the pending request. -/
theorem pending_of_computed {c : Controller ρ} {held : List Completion} {x : Completion}
    (hsound : Holding.Sound ⟨c, false, held⟩) (hx : x ∈ held) (happlied : (c.computed x).1 = true) :
    c.state.pending = some x.request := by
  rcases c.fresh_or_stale x with ⟨_, hfresh⟩ | hstale
  · exact hsound.pending_of_fresh hx hfresh
  · rw [c.computed_of_stale hstale] at happlied
    cases happlied

/-- What an applied completion changes, apart from what the views are told. -/
theorem state_computed {c : Controller ρ} {x : Completion} (happlied : (c.computed x).1 = true) :
    (c.computed x).2.state = { c.state with pending := none, coverage := x.result } ∧
      (c.computed x).2.issued = c.issued ∧ (c.computed x).2.disposed = c.disposed ∧
      (c.computed x).2.pool = c.pool := by
  rcases c.fresh_or_stale x with ⟨hdisposed, hfresh⟩ | hstale
  · rw [c.computed_of_fresh hdisposed hfresh]
    exact ⟨rfl, rfl, rfl, rfl⟩
  · rw [c.computed_of_stale hstale] at happlied
    cases happlied

theorem eq_of_not_computed {c : Controller ρ} {x : Completion}
    (hignored : (c.computed x).1 = false) : (c.computed x).2 = c := by
  rcases c.fresh_or_stale x with ⟨hdisposed, hfresh⟩ | hstale
  · rw [c.computed_of_fresh hdisposed hfresh] at hignored
    cases hignored
  · rw [c.computed_of_stale hstale]

/-- No stale completion is ever applied.  Of all completions that are queued or held, at most one
was not cancelled, and it is the one of the pending request.  So a completion that is handed over
is applied only if its request is pending at that moment, and then takes its place; otherwise
nothing changes, and the views are told nothing.  Nothing else is ever applied. -/
theorem only_pending_applies (settings : Settings) (m : Meaning ρ) (showUncovered : Bool)
    (moves : List (Move ρ)) :
    let s := (create showUncovered).playAll settings m moves
    let fresh := (s.controller.pool.completions ++ s.held.contents).filter fun x =>
      !s.controller.pool.isCancelled x.ticket
    (fresh.length ≤ 1 ∧ (∀ x ∈ fresh, s.controller.state.pending = some x.request) ∧
      (s.controller.state.pending = none → fresh = [])) ∧
    (∀ move, ∀ h ∈ s.handovers m move,
      ((h.2.computed h.1).1 = true →
        h.2.state.pending = some h.1.request ∧
        (h.2.computed h.1).2.state = { h.2.state with pending := none, coverage := h.1.result } ∧
        (h.2.computed h.1).2.issued = h.2.issued ∧
        (h.2.computed h.1).2.disposed = h.2.disposed ∧
        (h.2.computed h.1).2.pool = h.2.pool) ∧
      ((h.2.computed h.1).1 = false → (h.2.computed h.1).2 = h.2)) ∧
    ∀ move answer s', s.play settings m move = some (answer, s') →
      s'.controller.applied = s.controller.applied ++
        (s.handovers m move).flatMap fun h => if (h.2.computed h.1).1 then [h.1] else [] := by
  intro s fresh
  have hsound := sound_playAll settings m showUncovered moves
  have hpending : ∀ x ∈ fresh, s.controller.state.pending = some x.request := by
    intro x hx
    rw [List.mem_filter, Bool.not_eq_true'] at hx
    exact hsound.exclusive.pending_eq hx.1 hx.2
  refine ⟨⟨hsound.exclusive.length_fresh_le, hpending, ?_⟩, ?_, ?_⟩
  · intro hnone
    refine List.eq_nil_iff_forall_not_mem.mpr fun x hx => ?_
    have hx := hpending x hx
    rw [hnone] at hx
    cases hx
  · intro move h hmem
    have hstep : ∀ a b, Holding.Step settings m a b → a.Sound → b.Sound :=
      fun _ _ hstep h => h.step hstep
    obtain ⟨held, hheld, hsound⟩ := handovers_induction hstep hsound hmem
    exact ⟨fun happlied => ⟨pending_of_computed hsound hheld happlied, state_computed happlied⟩,
      eq_of_not_computed⟩
  · intro move answer s' hplay
    exact applied_play hplay

end Session

end CoverageTracker
