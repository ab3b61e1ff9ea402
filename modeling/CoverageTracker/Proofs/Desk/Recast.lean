import CoverageTracker.Proofs.Desk.Errands
import CoverageTracker.Proofs.Pool.Recast
set_option autoImplicit false

/-!
# Desks over other replies

Requests by name, with other replies that come to the same: every errand leaves the recast desk
(`perform_recast`).
-/

namespace CoverageTracker

variable {ρ σ : Type}

/-- Another reply that cancels the same name. -/
def Cued.map (f : ρ → σ) (c : Cued ρ) : Cued σ := ⟨f c.reply, c.cancels⟩

/-- The same errand with another reply. -/
def Errand.map (f : ρ → σ) : Errand ρ → Errand σ
  | .start name id document => .start name id document
  | .cancel name => .cancel name
  | .drop name => .drop name
  | .resolve uri reply => .resolve uri (reply.map f)
  | .answer t reply => .answer t (reply.map f)
  | .progress t => .progress t
  | .receive => .receive
  | .openHeld slot => .openHeld slot
  | .close => .close

namespace Desk

/-- A desk over a pool with other replies. -/
def recast (f : ρ → σ) (outcome : σ → Outcome) (d : Desk ρ) : Desk σ :=
  ⟨d.pool.recast (Cued.map f) (fun c => outcome c.reply), d.names, d.held⟩

variable {f : ρ → σ} {m : Meaning ρ} {m' : Meaning σ}

/-- The names stand for the same requests, so the same requests are cancelled. -/
theorem recasts_meaning (h : m.Recasts f m') (d : Desk ρ) :
    (d.meaning m).Recasts (Cued.map f) ((d.recast f m'.outcome).meaning m') :=
  ⟨fun c => h.coverage c.reply, fun _ => rfl⟩

theorem perform_recast (h : m.Recasts f m') (errand : Errand ρ) (d : Desk ρ) :
    (d.recast f m'.outcome).perform m' (errand.map f) =
      (d.perform m errand).recast f m'.outcome := by
  cases errand with
  | start name id document =>
    have hstart := Pool.start_recast (Cued.map f) (fun c => m'.outcome c.reply) d.pool id document
    simp only [perform, Errand.map, Desk.start, recast, hstart]
  | cancel name =>
    have hname : (d.recast f m'.outcome).named? name = d.named? name := rfl
    simp only [perform, Errand.map, Desk.cancel, hname]
    cases d.named? name with
    | none => rfl
    | some r => simp [recast, Pool.recast_cancel]
  | drop name => rfl
  | resolve uri reply =>
    have hresolve := Pool.resolve_recast (Cued.map f) (fun c => m'.outcome c.reply) d.pool uri reply
    simp only [perform, Errand.map, Desk.resolve, recast, hresolve]
    rfl
  | answer t reply =>
    have hanswer := Pool.answer_recast (Cued.map f) (fun c => m'.outcome c.reply) d.pool t reply
    simp only [perform, Errand.map, recast, hanswer]
    rfl
  | progress t =>
    have hprogress := Pool.recast_progress (recasts_meaning h d) t d.pool
    exact congrArg (fun pool => Desk.mk pool d.names d.held) hprogress.symm
  | receive =>
    have hreceive := Pool.receive_recast (Cued.map f) (fun c => m'.outcome c.reply) d.pool
    simp only [perform, Errand.map, Desk.receive, recast, hreceive]
    rcases d.pool.receive with ⟨found, pool⟩
    cases found <;> rfl
  | openHeld slot =>
    have hheld : (d.recast f m'.outcome).held = d.held := rfl
    simp only [perform, Errand.map, Desk.openHeld, hheld]
    cases d.held.get? slot <;> rfl
  | close => rfl

theorem performAll_recast (h : m.Recasts f m') (errands : List (Errand ρ)) (d : Desk ρ) :
    (d.recast f m'.outcome).performAll m' (errands.map (Errand.map f)) =
      (d.performAll m errands).recast f m'.outcome := by
  induction errands generalizing d with
  | nil => rfl
  | cons errand errands ih =>
    simp only [List.map_cons, performAll, List.foldl_cons] at ih ⊢
    rw [← ih, perform_recast h]

/-- Requests by name warned of the failures among the replies that were taken in time, and of
nothing else. -/
theorem warnings_performAll (m : Meaning ρ) (errands : List (Errand ρ)) :
    let p := ((empty : Desk ρ).performAll m errands).pool
    p.warnings = Pool.failures (fun c => m.outcome c.reply) p.arrivals := by
  intro p
  have hcued : Cued.map (id : ρ → ρ) = id := rfl
  have herrands : errands.map (Errand.map id) = errands := by
    have herrand : Errand.map (id : ρ → ρ) = id := by
      funext errand
      cases errand <;> rfl
    rw [herrand, List.map_id]
  have hrecast := performAll_recast m.recasts_id errands empty
  rw [herrands] at hrecast
  have hpool : p = p.recast (Cued.map id) fun c => m.outcome c.reply :=
    congrArg Desk.pool hrecast
  have hwarnings := congrArg Pool.warnings hpool
  rw [hcued, Pool.recast_id] at hwarnings
  exact hwarnings

/-- Replies under one meaning and what `f` makes of them under another come to the same runs:
whatever is done, the two desks have the same names and held completions, their pools are the same,
and they warn of the same. -/
def SameRuns (f : ρ → σ) (m : Meaning ρ) (m' : Meaning σ) : Prop :=
  ∀ errands : List (Errand ρ),
    let d := (empty : Desk ρ).performAll m errands
    let d' := (empty : Desk σ).performAll m' (errands.map (Errand.map f))
    d'.names = d.names ∧ d'.held = d.held ∧ d.pool.Resembles d'.pool ∧
      d'.pool.warnings = d.pool.warnings

theorem sameRuns_of_recasts (h : m.Recasts f m')
    (houtcome : ∀ reply, m'.outcome (f reply) = m.outcome reply) : SameRuns f m m' := by
  intro errands d d'
  have hrecast : d' = d.recast f m'.outcome := performAll_recast h errands empty
  have hwarnings : d.pool.warnings = Pool.failures (fun c => m.outcome c.reply) d.pool.arrivals :=
    warnings_performAll m errands
  rw [hrecast]
  refine ⟨rfl, rfl, Pool.resembles_recast _ _ d.pool, ?_⟩
  rw [hwarnings]
  show Pool.failures (fun c : Cued σ => m'.outcome c.reply) (d.pool.arrivals.map _) = _
  exact Pool.failures_map (Cued.map f) (fun c => houtcome c.reply) d.pool.arrivals

end Desk

end CoverageTracker
