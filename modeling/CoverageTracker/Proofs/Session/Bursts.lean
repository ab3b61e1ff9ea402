import CoverageTracker.Proofs.Session.Accounting
import CoverageTracker.Proofs.Session.Failures
import CoverageTracker.Proofs.Session.Tracking
set_option autoImplicit false

/-!
# Bursts of operations

Between two turns of the tasks a controller may be told any number of things.  Each of the requests
that it issues meanwhile is cancelled as soon as the next one replaces it, so at the end of the burst
all of them are but the pending one (`new_task`).  If no task could go on before the
burst they are poised then: when turns are taken again the pending request has the only call.
-/

namespace CoverageTracker

variable {ρ : Type} {m : Meaning ρ} {settings : Settings}

/-- Whether a move is an operation of those who use the controller: no task takes a turn or gets a
reply in it, and the pending request is left to the controller. -/
def Move.isOperation : Move ρ → Bool
  | .cancelPending => false
  | move => !move.stirs

theorem Move.stirs_of_isOperation {move : Move ρ} (h : move.isOperation = true) :
    move.stirs = false ∧ move ≠ .cancelPending := by
  cases move with
  | cancelPending => cases h
  | _ => exact ⟨by simpa [isOperation] using h, nofun⟩

/-! ## Requests that were issued since -/

/-- Replies with which nobody is cancelled. -/
def Meaning.harmless (m : Meaning ρ) : Meaning ρ := { m with cancels := fun _ => none }

/-- If requests were issued beyond the given number, the pending one is not cancelled. -/
def Controller.Renewed (issued : Nat) (c : Controller ρ) : Prop := c.issued ≠ issued → c.Unspoiled

namespace Holding

variable {a b : Holding ρ}

/-- A request is issued uncancelled. -/
theorem issued_step (hstep : Step settings m a b) :
    b.controller.issued = a.controller.issued ∨ b.controller.Unspoiled := by
  cases hstep with
  | track d c held _ _ _ => exact Or.inr (c.unspoiled_track d)
  | disconnect c held _ =>
    rw [Controller.untrack_eq]
    exact Or.inl rfl
  | untrack c held _ =>
    rw [Controller.untrack_eq]
    exact Or.inl rfl
  | dispose c held _ =>
    rw [Controller.cancelPending_eq]
    exact Or.inl rfl
  | drop c held =>
    rw [Controller.drop, Controller.cancelPending_eq]
    exact Or.inl rfl
  | _ => exact Or.inl rfl

theorem Sound.renewed_step {issued : Nat} (hsound : Sound a)
    (hcancels : ∀ reply, m.cancels reply = none) (hstep : Step settings m a b)
    (h : a.controller.Renewed issued) : b.controller.Renewed issued := by
  intro hissued
  rcases issued_step hstep with hsame | hunspoiled
  · rw [hsame] at hissued
    exact hsound.unspoiled_step hcancels (h hissued) hstep
  · exact hunspoiled

end Holding

namespace Session

variable {s s' : Session ρ} {move : Move ρ} {answer : Answer} {burst : List (Move ρ)}

/-- What replies mean is no matter while none is taken. -/
theorem play_harmless (hmove : move.stirs = false) (s : Session ρ) :
    s.play settings m.harmless move = s.play settings m move := by
  cases move with
  | _ => first | rfl | cases hmove

theorem playAll_harmless (hburst : ∀ move ∈ burst, move.stirs = false) (s : Session ρ) :
    s.playAll settings m.harmless burst = s.playAll settings m burst := by
  induction burst generalizing s with
  | nil => rfl
  | cons move burst ih =>
    have hmove : s.after settings m.harmless move = s.after settings m move := by
      rw [after, after, play_harmless (hburst move List.mem_cons_self)]
    rw [playAll_cons, playAll_cons, hmove]
    exact ih (fun other hother => hburst other (.tail move hother)) _

/-- A request that is issued in a burst and still pending after it is not cancelled. -/
theorem renewed_playAll (hburst : ∀ move ∈ burst, move.isOperation = true)
    (hsound : s.holding.Sound) :
    (s.playAll settings m burst).controller.Renewed s.controller.issued := by
  have hoperations : ∀ move ∈ burst, move.stirs = false ∧ move ≠ .cancelPending :=
    fun move hmove => Move.stirs_of_isOperation (hburst move hmove)
  rw [← playAll_harmless fun move hmove => (hoperations move hmove).1]
  exact playAll_keeps_of_spared (fun move hmove => (hoperations move hmove).2)
    (fun _ _ hsound hstep h => hsound.renewed_step (fun _ => rfl) hstep h) hsound
    fun hissued => absurd rfl hissued

theorem still_playAll (hburst : ∀ move ∈ burst, move.stirs = false) (s : Session ρ) :
    s.controller.pool.Still (s.playAll settings m burst).controller.pool :=
  playAll_induction (P := fun t => s.controller.pool.Still t.controller.pool) burst
    (fun _ _ move _ hmove hplay h => h.trans (still_play (hburst move hmove) hplay)) (.refl _)

/-! ## After a burst -/

/-- The pending request, if it was issued beyond the given number of requests. -/
def newest (issued : Nat) (s : Session ρ) : Option Request :=
  s.controller.state.pending.filter fun r => issued < r.id.number

theorem newest_eq_some {issued : Nat} {r : Request} :
    s.newest issued = some r ↔ s.controller.state.pending = some r ∧ issued < r.id.number := by
  simp [newest, Option.filter_eq_some_iff]

/-- Two moments of a session, at the first of which no task can go on, with nothing but operations in
between. -/
structure Burst (s t : Session ρ) : Prop where
  stuck : s.controller.pool.Stuck
  still : s.controller.pool.Still t.controller.pool
  before : s.controller.Consistent
  sound : t.holding.Sound
  consistent : t.controller.Consistent
  renewed : t.controller.Renewed s.controller.issued

namespace Burst

variable {t : Session ρ} {i : Ticket} {a : Task ρ}

/-- A request that was issued in the burst is of a task that was started in it. -/
theorem started (h : Burst s t) (ha : t.controller.pool.tasks[i]? = some a)
    (hissued : s.controller.issued < a.id.number) : s.controller.pool.tasks.length ≤ i := by
  have hnumber := h.consistent.numbered i a ha
  have hbefore := h.before.issued
  omega

/-- A task that was started in the burst has had no turn, and was cancelled unless it is the one of
the newest request. -/
theorem new_task (h : Burst s t) (ha : t.controller.pool.tasks[i]? = some a)
    (hi : s.controller.pool.tasks.length ≤ i) :
    a.phase = .queued ∧ (a.cancelled = true ∨ t.newest s.controller.issued = some (a.request i)) := by
  have hqueued : a.phase = .queued := by
    rcases h.still.phase i a ha with ⟨b, hb, _⟩ | ⟨_, hqueued⟩
    · exact absurd (List.getElem?_eq_some_iff.mp hb).1 (Nat.not_lt.mpr hi)
    · exact hqueued
  refine ⟨hqueued, ?_⟩
  cases hcancelled : a.cancelled with
  | true => exact Or.inl rfl
  | false =>
    rcases h.sound.exclusive.spent i a ha hcancelled with ⟨r, hr, rfl⟩ | ⟨hdone, _⟩
    · obtain ⟨b, hb, hrequest⟩ := h.sound.exclusive.known r hr
      have hab : some a = some b := ha.symm.trans hb
      cases hab
      have hnumber := h.consistent.numbered _ a ha
      have hbefore := h.before.issued
      have hid : r.id = a.id := congrArg Request.id hrequest
      refine Or.inr (newest_eq_some.mpr ⟨hr.trans (congrArg some hrequest), ?_⟩)
      show s.controller.issued < a.id.number
      omega
    · rw [hqueued] at hdone
      cases hdone

/-- After the burst the task of the newest request is to have its first turn, and nothing is to be
heard of the others. -/
theorem poised (h : Burst s t) :
    t.controller.pool.Poised (t.newest s.controller.issued) where
  first := by
    intro r hr
    obtain ⟨hpending, hissued⟩ := newest_eq_some.mp hr
    obtain ⟨a, ha, hrequest⟩ := h.sound.exclusive.known r hpending
    have hid : r.id = a.id := congrArg Request.id hrequest
    rw [hid] at hissued
    refine ⟨a, ha, (h.new_task ha (h.started ha hissued)).1, ?_, hrequest⟩
    have hlater : t.controller.issued ≠ s.controller.issued := by
      have hnumber := (h.consistent.pending r hpending).2
      rw [hid] at hnumber
      omega
    rw [← Pool.isCancelled_of_task ha]
    exact h.renewed hlater r hpending
  mute := by
    intro i a ha hother
    rcases h.still.phase i a ha with ⟨b, hb, hphase⟩ | ⟨hi, _⟩
    · -- a task that was there before the burst could not go on
      rcases h.stuck.phase hb with hdone | ⟨hwaiting, _⟩
      · exact Or.inl (hphase.trans hdone)
      · exact Or.inr (Or.inl (hphase.trans hwaiting))
    · rcases (h.new_task ha hi).2 with hcancelled | hnewest
      · exact Or.inr (Or.inr hcancelled)
      · exact absurd rfl (hother _ hnewest)

end Burst

/-! ## Requests that are not heard of -/

/-- The task of a request has ended: it did not call the backend, took no reply, left no completion
and was no reason for a warning. -/
structure Unheard (r : Request) (s : Session ρ) : Prop where
  ended : ∃ a, s.controller.pool.tasks[r.ticket]? = some a ∧ a.phase = .done
  calls : r ∉ s.controller.pool.calls
  arrivals : ∀ a ∈ s.controller.pool.arrivals, a.request ≠ r
  completions : ∀ x ∈ s.holding.outstanding, x.request ≠ r
  warnings : ∀ w ∈ s.controller.pool.warnings, w.request ≠ r

/-- A request of the burst that was superseded in it is not heard of in the turns after that. -/
theorem Burst.unheard {t u : Session ρ} {r : Request} {called : List Request} (h : Burst s t)
    (hasked : t.controller.pool.Asked) (hrecorded : t.controller.pool.Recorded)
    (hr : r ∈ t.controller.pool.requests) (hissued : s.controller.issued < r.id.number)
    (hother : t.newest s.controller.issued ≠ some r) (hcalled : r ∉ called)
    (hheard : Pool.Heard called t.controller.pool u.controller.pool)
    (hgrows : t.controller.pool.Grows u.controller.pool) (hheld : u.held = t.held)
    (hstuck : u.controller.pool.Stuck)
    (hwarnings : u.controller.pool.warnings =
      Pool.failures m.outcome u.controller.pool.arrivals) : u.Unheard r := by
  obtain ⟨i, hi⟩ := List.getElem?_of_mem hr
  rw [Pool.getElem?_requests, Option.map_eq_some_iff] at hi
  obtain ⟨a, ha, rfl⟩ := hi
  obtain ⟨hqueued, hsuperseded⟩ := h.new_task ha (h.started ha hissued)
  have hcancelled := hsuperseded.resolve_right hother
  have hunfinished : a.phase ≠ .done := by simp [hqueued]
  -- nothing was heard of the task before, and it is not among those that call now
  have harrivals : ∀ x ∈ u.controller.pool.arrivals, x.request ≠ a.request i := by
    intro x hx hrequest
    rcases hheard.arrivals x hx with hx | hx
    · exact hrecorded.ne_of_unfinished ha hunfinished x hx (congrArg Request.ticket hrequest)
    · rw [hrequest] at hx
      exact hcalled hx
  refine ⟨?_, ?_, harrivals, ?_, ?_⟩
  · obtain ⟨b, hb, hab⟩ := hgrows i a ha
    refine ⟨b, hb, ?_⟩
    rcases hstuck.phase hb with hdone | ⟨_, hlive⟩
    · exact hdone
    · rw [hab.cancelled hcancelled] at hlive
      cases hlive
  · intro hcall
    rw [hheard.calls, List.mem_append] at hcall
    rcases hcall with hcall | hcall
    · exact hasked.ne_of_queued ha hqueued _ hcall rfl
    · exact hcalled hcall
  · intro x hx hrequest
    have hqueue : x ∈ t.holding.outstanding ∨ x.request ∈ called := by
      rcases List.mem_append.mp hx with hx | hx
      · exact (hheard.completions x hx).imp_left (List.mem_append_left _)
      · have hx : x ∈ u.held.contents := hx
        rw [hheld] at hx
        exact Or.inl (List.mem_append_right _ hx)
    rcases hqueue with hx | hx
    · exact h.sound.exclusive.ne_of_unfinished ha hunfinished x hx
        (congrArg Request.ticket hrequest)
    · rw [hrequest] at hx
      exact hcalled hx
  · intro w hw hrequest
    rw [hwarnings] at hw
    obtain ⟨x, hx, _, _, hsame⟩ := Pool.mem_failures.mp hw
    exact harrivals x hx (hsame.trans hrequest)

/-! ## Whole sessions -/

/-- Turns of tasks change the pool only. -/
theorem playAll_turns (settings : Settings) (m : Meaning ρ) (tickets : List Ticket)
    (s : Session ρ) :
    s.playAll settings m (tickets.map .progress) =
      { s with controller := { s.controller with
          pool := tickets.foldl (fun p t => p.progress m t) s.controller.pool } } := by
  induction tickets generalizing s with
  | nil => rfl
  | cons t tickets ih => exact ih _

theorem burst_playAll (settings : Settings) (showUncovered : Bool) (before : List (Move ρ))
    (hburst : ∀ move ∈ burst, move.isOperation = true)
    (hstuck : ((create showUncovered).playAll settings m before).controller.pool.Stuck) :
    Burst ((create showUncovered).playAll settings m before)
      (((create showUncovered).playAll settings m before).playAll settings m burst) where
  stuck := hstuck
  still := still_playAll (fun move hmove => (Move.stirs_of_isOperation (hburst move hmove)).1) _
  before := consistent_playAll settings m showUncovered before
  sound := by
    rw [← playAll_append]
    exact sound_playAll settings m showUncovered _
  consistent := by
    rw [← playAll_append]
    exact consistent_playAll settings m showUncovered _
  renewed := renewed_playAll hburst (sound_playAll settings m showUncovered before)

/-- A burst of operations reaches the backend at most once.  Let no task be able to go on, and let any
operations of the controller follow without a turn in between.  Whatever turns are taken then, the
backend is called at most once, and only for the pending request, if it was issued in the burst.  Once
no task can go on any more it was called exactly for that one; every other request of the burst has
ended without a call, a reply, a completion or a warning.  Letting all tasks go on as far as they can
is such a sequence of turns. -/
theorem burst_calls_once (settings : Settings) (m : Meaning ρ) (showUncovered : Bool)
    (before burst : List (Move ρ)) :
    let s := (create showUncovered).playAll settings m before
    let t := s.playAll settings m burst
    s.controller.pool.Stuck → (∀ move ∈ burst, move.isOperation = true) →
    (∀ tickets : List Ticket,
      let u := t.playAll settings m (tickets.map .progress)
      (∃ called, called <+: (t.newest s.controller.issued).toList ∧
        u.controller.pool.calls = s.controller.pool.calls ++ called) ∧
      (u.controller.pool.Stuck →
        u.controller.pool.calls =
          s.controller.pool.calls ++ (t.newest s.controller.issued).toList ∧
        ∀ r ∈ t.controller.pool.requests, s.controller.issued < r.id.number →
          t.newest s.controller.issued ≠ some r → u.Unheard r)) ∧
    ∃ tickets : List Ticket,
      t.playAll settings m [.run] = t.playAll settings m (tickets.map .progress) ∧
        (t.playAll settings m [.run]).controller.pool.Stuck := by
  intro s t hstuck hburst
  have h : Burst s t := burst_playAll settings showUncovered before hburst hstuck
  have ht : t = (create showUncovered).playAll settings m (before ++ burst) :=
    (playAll_append settings m before burst _).symm
  refine ⟨?_, ?_⟩
  · intro tickets u
    have hu : u = (create showUncovered).playAll settings m
        (before ++ burst ++ tickets.map .progress) := by
      rw [playAll_append, ← ht]
    have hturns : u = _ := playAll_turns settings m tickets t
    have hpool : u.controller.pool =
        tickets.foldl (fun p t => p.progress m t) t.controller.pool := by rw [hturns]
    obtain ⟨called, left, hheard, hleft, hnewest⟩ := h.poised.turns m tickets
    rw [← hpool] at hheard hleft
    have hcalls : u.controller.pool.calls = s.controller.pool.calls ++ called := by
      rw [hheard.calls, h.still.calls]
    refine ⟨⟨called, ⟨left.toList, hnewest⟩, hcalls⟩, ?_⟩
    intro hend
    have hall : called = (t.newest s.controller.issued).toList := by
      rw [← hnewest, hleft.eq_none_of_stuck hend]
      exact (List.append_nil called).symm
    refine ⟨by rw [hcalls, hall], ?_⟩
    intro r hr hissued hother
    have hcalled : r ∉ called := by
      rw [hall, Option.mem_toList]
      exact hother
    have hasked : t.controller.pool.Asked := by
      rw [ht]
      exact asked_playAll settings m showUncovered _
    have hrecorded : t.controller.pool.Recorded := by
      rw [ht]
      exact recorded_playAll settings m showUncovered _
    have hwarnings : u.controller.pool.warnings =
        Pool.failures m.outcome u.controller.pool.arrivals := by
      rw [hu]
      exact warnings_playAll settings m showUncovered _
    exact h.unheard hasked hrecorded hr hissued hother hcalled hheard (grows_playAll h.sound _)
      (by rw [hturns]) hend hwarnings
  · obtain ⟨tickets, htickets⟩ := run_eq_playAll settings m t
    have hrest : Pool.AtRest m (t.playAll settings m [.run]).controller.pool :=
      Pool.atRest_run h.sound.scheduled
    exact ⟨tickets, htickets, hrest.stuck⟩

/-- Two activations, a disconnect, a reconnect and a save in one burst, while the answer to the
first activation is still to come: the backend is called for the save only. -/
theorem burst_calls_once_of_save :
    let a : Document := ⟨⟨"file:///a.js", rfl⟩, "javascript", none⟩
    let b : Document := ⟨⟨"file:///b.js", rfl⟩, "javascript", none⟩
    let settings : Settings := ⟨fun _ => true, .clear⟩
    let s := (create true).playAll settings Meaning.direct
      [.connection true, .focus (some a), .activate (some a), .run]
    let t := s.playAll settings .direct [.activate (some b), .activate (some a),
      .connection false, .connection true, .toggle, .poll, .save b]
    s.controller.pool.calls = [⟨0, ⟨1⟩, a⟩] ∧
      (t.playAll settings .direct [.run]).controller.pool.calls =
        [⟨0, ⟨1⟩, a⟩, ⟨4, ⟨5⟩, b⟩] := by
  intro a b settings s t
  have hrest : Pool.AtRest Meaning.direct s.controller.pool :=
    Pool.atRest_run (sound_playAll settings .direct true
      [.connection true, .focus (some a), .activate (some a)]).scheduled
  obtain ⟨hcalls, tickets, hrun, hend⟩ :=
    burst_calls_once settings Meaning.direct true
      [.connection true, .focus (some a), .activate (some a), .run]
      [.activate (some b), .activate (some a), .connection false, .connection true, .toggle, .poll,
        .save b] hrest.stuck (by simp [Move.isOperation, Move.stirs])
  have hnewest : t.newest s.controller.issued = some ⟨4, ⟨5⟩, b⟩ := by decide +kernel
  have hbefore : s.controller.pool.calls = [⟨0, ⟨1⟩, a⟩] := by decide +kernel
  refine ⟨hbefore, ?_⟩
  rw [hrun] at hend ⊢
  rw [((hcalls tickets).2 hend).1, hnewest, hbefore]
  rfl

end Session

end CoverageTracker
