import CoverageTracker.Proofs.Session.Moves
import CoverageTracker.Proofs.Session.Recast
import CoverageTracker.Proofs.Session.Sound
set_option autoImplicit false

/-!
# Failures go unnoticed

A failure of the backend comes to the same as its having nothing to report.  So of two sessions in
which replies differ in no more than that, each is recast to the same session
(`Meaning.recasts_effect`), and only the warnings can tell them apart.  Who is warned of what is
settled by the replies that were taken (`warnings_playAll`), which are those that calls returned
with (`arrivals_play`), one for each request at most (`recorded_playAll`).
-/

namespace CoverageTracker

variable {ρ : Type} {m : Meaning ρ} {settings : Settings}

/-! ## What a reply comes to -/

/-- What a reply comes to for everybody but who reads the log: its coverage, and whom it cancels. -/
def Meaning.effect (m : Meaning ρ) (reply : ρ) : Option Coverage × Option Ticket :=
  (Outcome.coverage (m.outcome reply), m.cancels reply)

/-- Replies that never fail. -/
def Meaning.plain : Meaning (Option Coverage × Option Ticket) := ⟨fun e => .ok e.1, Prod.snd⟩

theorem Meaning.recasts_effect (m : Meaning ρ) : m.Recasts m.effect plain :=
  ⟨fun _ => rfl, fun _ => rfl⟩

/-! ## Replies that were taken -/

namespace Holding

variable {a b : Holding ρ}

/-- Only a turn adds to the replies that were taken. -/
theorem Sound.recorded_step (hsound : Sound a) (h : a.controller.pool.Recorded)
    (hstep : Step settings m a b) : b.controller.pool.Recorded := by
  have hgrows := hsound.grows_step hstep
  rcases pool_step hstep with ⟨t, hpool⟩ | ⟨uri, reply, hpool⟩ | ⟨t, reply, hpool⟩ | hstill
  · rw [hpool]
    exact h.progress m t
  · exact h.grows hgrows (by rw [hpool, Pool.arrivals_resolve])
  · exact h.grows hgrows (by rw [hpool, Pool.arrivals_answer])
  · exact h.grows hgrows hstill.arrivals

theorem recorded_disturb (h : a.controller.pool.Recorded) (hdisturbance : Disturbance a b) :
    b.controller.pool.Recorded :=
  h.grows (grows_disturb hdisturbance) (still_disturb hdisturbance).arrivals

end Holding

/-- Whether tasks take turns in a move. -/
def Move.takesTurns : Move ρ → Bool
  | .progress _ | .run | .settle => true
  | _ => false

namespace Session

variable {s s' : Session ρ} {move : Move ρ} {answer : Answer}

/-- Replies are only taken in turns. -/
theorem arrivals_play (hmove : move.takesTurns = false)
    (h : s.play settings m move = some (answer, s')) :
    s'.controller.pool.arrivals = s.controller.pool.arrivals := by
  cases hstirs : move.stirs with
  | false => exact (still_play hstirs h).arrivals
  | true =>
    unfold play at h
    cases move with
    | resolve uri reply =>
      cases h
      exact Pool.arrivals_resolve uri reply s.controller.pool
    | answer t reply =>
      cases h
      exact Pool.arrivals_answer t reply s.controller.pool
    | progress t => cases hmove
    | run => cases hmove
    | settle => cases hmove
    | _ => cases hstirs

/-- When all tasks go on as far as they can, they take turns. -/
theorem run_eq_playAll (settings : Settings) (m : Meaning ρ) (s : Session ρ) :
    ∃ tickets : List Ticket, { s with controller := s.controller.run m } =
      s.playAll settings m (tickets.map .progress) := by
  refine Pool.run_induction (m := m) (P := fun p => ∃ tickets : List Ticket,
    { s with controller := { s.controller with pool := p } } =
      s.playAll settings m (tickets.map .progress)) (fun t p ⟨tickets, hp⟩ => ?_) ⟨[], rfl⟩
  refine ⟨tickets ++ [t], ?_⟩
  rw [List.map_append, List.map_singleton, playAll_concat, ← hp]
  rfl

theorem recorded_playAll (settings : Settings) (m : Meaning ρ) (showUncovered : Bool)
    (moves : List (Move ρ)) :
    ((create showUncovered).playAll settings m moves).controller.pool.Recorded :=
  (playAll_keeps_of_sound (s := create showUncovered)
    (P := fun a => a.controller.pool.Recorded) moves (Holding.sound_create showUncovered)
    (fun _ _ hsound hstep h => hsound.recorded_step h hstep)
    (fun _ _ hdisturbance h => Holding.recorded_disturb h hdisturbance) .empty).2

/-! ## Two sessions -/

/-- Failures go unnoticed, except by who reads the log.  If the replies of two sessions come to the
same, a failure to the same as nothing to report and as any other failure, the sessions are the
same but for their warnings, and every move answers the same in both.  In every session somebody is
warned exactly of the failures that calls returned with while their request was not cancelled: once
for each such request, with the request and the failure, and of nothing else.  The replies that are
taken are those that calls return with, one for each request at most, in the turns of their tasks. -/
theorem failures_unnoticed (settings : Settings) (m : Meaning ρ) (showUncovered : Bool)
    (moves : List (Move ρ)) :
    let s := (create showUncovered).playAll settings m moves
    let p := s.controller.pool
    (∀ moves' : List (Move ρ), moves'.map (Move.map m.effect) = moves.map (Move.map m.effect) →
      let s' := (create showUncovered).playAll settings m moves'
      s.Resembles s' ∧
        ∀ move move' : Move ρ, move'.map m.effect = move.map m.effect →
          (s'.play settings m move').map Prod.fst = (s.play settings m move).map Prod.fst) ∧
    (∀ w, w ∈ p.warnings ↔ ∃ a ∈ p.arrivals, a.cancelled = false ∧
      m.outcome a.reply = .error w.error ∧ a.request = w.request) ∧
    (p.warnings.map fun w => w.request.ticket).Nodup ∧
    (p.arrivals.map fun a => a.request.ticket).Nodup ∧
    (∀ t, (p.progress m t).arrivals = p.arrivals ++ p.returns m t) ∧
    (∃ tickets : List Ticket,
      let r := s.playAll settings m (tickets.map .progress)
      s.play settings m .run = some (.nothing, r) ∧
        s.play settings m .settle = r.play settings m .poll) ∧
    ∀ move answer s', move.takesTurns = false → s.play settings m move = some (answer, s') →
      s'.controller.pool.arrivals = p.arrivals := by
  intro s p
  have hrecast : ∀ moves : List (Move ρ), (create showUncovered).playAll settings .plain
      (moves.map (Move.map m.effect)) =
        ((create showUncovered).playAll settings m moves).recast m.effect Meaning.plain.outcome :=
    playAll_create_recast m.recasts_effect settings showUncovered
  have hwarnings : p.warnings = Pool.failures m.outcome p.arrivals :=
    warnings_playAll settings m showUncovered moves
  have hdistinct := (recorded_playAll settings m showUncovered moves).distinct
  refine ⟨?_, ?_, ?_, hdistinct, fun t => Pool.arrivals_progress m t p, ?_, ?_⟩
  · intro moves' hmoves s'
    -- both are recast to the session in which no reply fails
    have hsame : s'.recast m.effect Meaning.plain.outcome =
        s.recast m.effect Meaning.plain.outcome := by
      rw [← hrecast moves, ← hrecast moves', hmoves]
    have hs := resembles_recast m.effect Meaning.plain.outcome s
    have hs' := resembles_recast m.effect Meaning.plain.outcome s'
    rw [hsame] at hs'
    refine ⟨hs.trans hs'.symm, fun move move' hmove => ?_⟩
    rw [← answer_recast m.recasts_effect, ← answer_recast m.recasts_effect, hsame, hmove]
  · intro w
    rw [hwarnings]
    exact Pool.mem_failures
  · have hsublist := (Pool.failures_sublist m.outcome p.arrivals).map Request.ticket
    rw [← hwarnings, List.map_map, List.map_map] at hsublist
    exact hdistinct.sublist hsublist
  · obtain ⟨tickets, htickets⟩ := run_eq_playAll settings m s
    refine ⟨tickets, ?_, ?_⟩
    · rw [← htickets]
      rfl
    · rw [← htickets]
      rfl
  · exact fun move answer s' hmove hplay => arrivals_play hmove hplay

/-- A failure against nothing to report, in a session whose first request was superseded: one
warning, and otherwise the same. -/
theorem failures_unnoticed_of_save :
    let d : Document := ⟨⟨"file:///a.js", rfl⟩, "javascript", none⟩
    let settings : Settings := ⟨fun _ => true, .clear⟩
    let moves : Outcome → List (Move Outcome) := fun outcome =>
      [.connection true, .activate (some d), .run, .save d, .run, .resolve "file:///a.js" outcome,
        .settle]
    let failed := (create true).playAll settings .direct (moves (.error ⟨"down"⟩))
    let silent := (create true).playAll settings .direct (moves (.ok none))
    failed.Resembles silent ∧
      failed.controller.pool.warnings = [⟨⟨1, ⟨2⟩, d⟩, ⟨"down"⟩⟩] ∧
      silent.controller.pool.warnings = [] := by
  intro d settings moves failed silent
  have hsame : (moves (.ok none)).map (Move.map Meaning.direct.effect) =
      (moves (.error ⟨"down"⟩)).map (Move.map Meaning.direct.effect) := rfl
  obtain ⟨hother, _⟩ := failures_unnoticed settings .direct true (moves (.error ⟨"down"⟩))
  exact ⟨(hother _ hsame).1, by decide +kernel, by decide +kernel⟩

end Session

end CoverageTracker
