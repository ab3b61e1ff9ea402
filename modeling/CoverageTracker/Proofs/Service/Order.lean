import CoverageTracker.Proofs.Pool.Delivery
import CoverageTracker.Proofs.Service.Runs
import CoverageTracker.Proofs.Session.Views
set_option autoImplicit false

/-!
# Order, completeness and end of a run

Whatever branches a service takes, it handles the events in the order in which they were sent and
skips none (`Unhandled`), hands over the completions in the order in which they were left and skips
none (`Pool.Accounted`), and once it has seen the last notification its controller has the last
connectivity (`Informed`).  It runs as long as its controller is in use, and the store of
diagnostics is released by the last thing that the views are told (`Released`).

Each of these relates the ledger of the run to the service as it is, and each is kept by whatever
can happen, so it holds throughout a run.
-/

namespace CoverageTracker

variable {ρ : Type} {settings : Settings} {m : Meaning ρ}

/-! ## What deeds do -/

namespace Controller

variable {c c' : Controller ρ} {deed : Deed ρ} {received : List Completion}

theorem perform_of_inside (settings : Settings) (m : Meaning ρ) (h : deed.isInside = true)
    (c : Controller ρ) : ∃ pool, c.perform settings m deed = { c with pool } := by
  cases deed with
  | progress t => exact ⟨_, rfl⟩
  | resolve uri reply => exact ⟨_, rfl⟩
  | answer t reply => exact ⟨_, rfl⟩
  | _ => cases h

/-! ### Connectivity -/

theorem connected_ofEvent (e : HostEvent) (c : Controller ρ) :
    (c.perform settings m (.ofEvent e)).state.connected = c.state.connected := by
  cases e with
  | active d => exact connected_activated d c
  | saved d => exact connected_activated (some d) c
  | toggle => exact connected_toggle c
  | shutdown => exact connected_dispose c

/-! ### What the views are told -/

/-- The views were told renderings only, and the release of the store once the controller was
disposed of, last of all. -/
def Released (settings : Settings) (c : Controller ρ) : Prop :=
  ∃ states : List State, c.sinks =
    states.flatMap State.render ++ if c.disposed then [settings.release] else []

theorem released_create (showUncovered : Bool) :
    Released settings (create showUncovered : Controller ρ) := ⟨[], rfl⟩

theorem Released.congr (h : c.Released settings) (hdisposed : c'.disposed = c.disposed)
    (hsinks : c'.sinks = c.sinks) : c'.Released settings := by
  unfold Released at h ⊢
  rw [hdisposed, hsinks]
  exact h

/-- Nothing is rendered once the controller is disposed of. -/
theorem Released.render (h : c.Released settings) (hdisposed : c.disposed = false)
    (hused : c'.disposed = false) (hsinks : c'.sinks = c.sinks) : c'.render.Released settings := by
  obtain ⟨states, hstates⟩ := h
  refine ⟨states ++ [c'.state], ?_⟩
  rw [hdisposed, if_neg (by simp), List.append_nil] at hstates
  simp [Controller.render, hsinks, hstates, hused]

theorem Released.renders (h : c.Released settings) (hrenders : c.Renders c') :
    c'.Released settings := by
  cases hrenders with
  | disposed _ => exact h
  | once changed hdisposed hused hsinks _ => exact h.render hdisposed hused hsinks

theorem Released.computed (h : c.Released settings) (x : Completion) :
    (c.computed x).2.Released settings := by
  rcases c.fresh_or_stale x with ⟨hdisposed, hfresh⟩ | hstale
  · rw [c.computed_of_fresh hdisposed hfresh]
    exact h.render hdisposed hdisposed rfl
  · rw [c.computed_of_stale hstale]
    exact h

theorem Released.dispose (h : c.Released settings) : (c.dispose settings).Released settings := by
  unfold Controller.dispose
  split
  · exact h
  · rename_i hdisposed
    obtain ⟨states, hstates⟩ := h
    rw [if_neg hdisposed, List.append_nil] at hstates
    refine ⟨states, ?_⟩
    simp [cancelPending_eq, hstates]

theorem Released.perform (h : c.Released settings) (deed : Deed ρ) :
    (c.perform settings m deed).Released settings := by
  cases deed with
  | connection connected focus => exact h.renders (renders_connection settings connected focus c)
  | activated d => exact h.renders (renders_activated settings d c)
  | saved d => exact h.renders (renders_activated settings (some d) c)
  | toggle => exact h.renders (renders_toggle c)
  | computed x =>
    have hnext : c.next.2.Released settings := h.congr rfl rfl
    exact hnext.computed x
  | dispose => exact h.dispose
  | progress t => exact h.congr rfl rfl
  | resolve uri reply => exact h.congr rfl rfl
  | answer t reply => exact h.congr rfl rfl

theorem Released.performAll (h : c.Released settings) (deeds : List (Deed ρ)) :
    (c.performAll settings m deeds).Released settings := by
  induction deeds generalizing c with
  | nil => exact h
  | cons deed deeds ih => exact ih (h.perform deed)

/-! ### Disposal -/

theorem disposed_ofEvent {e : HostEvent} (h : e ≠ .shutdown) (c : Controller ρ) :
    (c.perform settings m (.ofEvent e)).disposed = c.disposed := by
  cases e with
  | active d => exact (renders_activated settings d c).disposed_eq
  | saved d => exact (renders_activated settings (some d) c).disposed_eq
  | toggle => exact (renders_toggle c).disposed_eq
  | shutdown => exact absurd rfl h

/-! ### Completions -/

theorem accounted_activate (d : Option Document) (h : c.pool.Accounted m received) :
    (c.activate settings d).pool.Accounted m received := by
  unfold activate
  split
  · split
    · rw [track_eq]
      exact (h.cancelOf _).start _ _
    · rw [untrack_eq]
      exact h.cancelOf _
  · rw [untrack_eq]
    exact h.cancelOf _

theorem accounted_activated (d : Option Document) (h : c.pool.Accounted m received) :
    (c.activated settings d).pool.Accounted m received := by
  unfold activated
  split
  · exact h
  · exact accounted_activate d h

theorem accounted_connection (connected : Bool) (focus : Option Document)
    (h : c.pool.Accounted m received) :
    (c.connection settings connected focus).pool.Accounted m received := by
  unfold connection
  split
  · exact h
  · simp only [render]
    split
    · exact accounted_activate none h
    · split
      · exact accounted_activate focus h
      · exact h

theorem accounted_toggle (h : c.pool.Accounted m received) :
    c.toggle.pool.Accounted m received := by
  unfold toggle
  split <;> exact h

theorem accounted_dispose (h : c.pool.Accounted m received) :
    (c.dispose settings).pool.Accounted m received := by
  unfold dispose
  split
  · exact h
  · rw [cancelPending_eq]
    exact h.cancelOf _

theorem accounted_ofEvent (e : HostEvent) (h : c.pool.Accounted m received) :
    (c.perform settings m (.ofEvent e)).pool.Accounted m received := by
  cases e with
  | active d => exact accounted_activated d h
  | saved d => exact accounted_activated (some d) h
  | toggle => exact accounted_toggle h
  | shutdown => exact accounted_dispose h

end Controller

namespace Service

variable {l entry : Ledger ρ} {o : Occurrence ρ} {v v' : Service ρ}

/-! ## Events -/

/-- Of the events that were sent, those that a service has not handled: while it runs they are
queued; a shutdown is the first of them if it was ended by one, and none is left if it ended with
their queue. -/
def Remaining (v : Service ρ) (rest : List HostEvent) : Prop :=
  match v.ended with
  | none => rest = v.events
  | some .shutdown => rest.head? = some .shutdown
  | some .eventsClosed => rest = [] ∧ v.eventsOpen = false
  | some .connectionClosed => True

/-- The events that were handled come first among those that were sent. -/
def Unhandled (l : Ledger ρ) (v : Service ρ) : Prop :=
  ∃ rest, l.sent = l.deeds.filterMap Deed.event? ++ rest ∧ v.Remaining rest

theorem Remaining.closeEvents {rest : List HostEvent} (h : v.Remaining rest) :
    v.closeEvents.Remaining rest := by
  unfold Remaining at h ⊢
  simp only [Service.closeEvents]
  split at h
  · exact h
  · exact h
  · exact ⟨h.1, trivial⟩
  · trivial

theorem ended_of_running (h : v.isRunning = true) : v.ended = none :=
  Option.isNone_iff_eq_none.mp h

theorem Taken.unhandled {deeds : List (Deed ρ)} (hrunning : v.isRunning = true)
    (h : Taken settings m v deeds v') :
    ∃ rest, v.events = deeds.filterMap Deed.event? ++ rest ∧ v'.Remaining rest := by
  have hended : v.ended = none := ended_of_running hrunning
  cases h with
  | wait => exact ⟨v.events, rfl, by simp [Remaining, hended]⟩
  | handle e rest hevents hshutdown =>
    refine ⟨rest, ?_, by simp [Remaining, hended]⟩
    rw [hevents, List.filterMap_cons_some (Deed.event?_ofEvent hshutdown)]
    rfl
  | read _ => exact ⟨v.events, rfl, by simp [Remaining, readConnection, hended]⟩
  | compute x rest _ => exact ⟨v.events, rfl, by simp [Remaining, hended]⟩
  | stop why hwhy =>
    refine ⟨v.events, rfl, ?_⟩
    cases why with
    | shutdown => exact hwhy
    | eventsClosed => exact hwhy
    | connectionClosed => trivial

theorem Unhandled.step (h : Unhandled l v) (hstep : Happening settings m v o entry v') :
    Unhandled (l ++ entry) v' := by
  obtain ⟨rest, hsent, hrest⟩ := h
  unfold Unhandled
  simp only [Ledger.sent_append, Ledger.deeds_append, List.filterMap_append, hsent,
    List.append_assoc]
  cases hstep with
  | send e hrunning =>
    simp only [Remaining, ended_of_running hrunning] at hrest ⊢
    exact ⟨rest ++ [e], rfl, by rw [hrest]⟩
  | closeEvents => exact ⟨rest, by simp, hrest.closeEvents⟩
  | take _ deeds v' hrunning htaken =>
    obtain ⟨after, hevents, hafter⟩ := htaken.unhandled hrunning
    simp only [Remaining, ended_of_running hrunning] at hrest
    refine ⟨after, ?_, hafter⟩
    rw [hrest, hevents, List.append_nil]
  | inside _ deed hinside => exact ⟨rest, by simp [Deed.event?_of_inside hinside], hrest⟩
  | _ => exact ⟨rest, by simp, hrest⟩

/-! ## Completions -/

theorem Taken.accounted {deeds : List (Deed ρ)} {received : List Completion}
    (h : Taken settings m v deeds v') (hv : v.controller.pool.Accounted m received) :
    v'.controller.pool.Accounted m (received ++ deeds.filterMap Deed.completion?) := by
  cases h with
  | wait => simpa using hv
  | handle e rest _ _ =>
    have hnone : ([.ofEvent e] : List (Deed ρ)).filterMap Deed.completion? = [] :=
      List.filterMap_cons_none (Deed.completion?_ofEvent e)
    rw [hnone, List.append_nil]
    exact Controller.accounted_ofEvent e hv
  | read _ =>
    exact (List.append_nil received).symm ▸ Controller.accounted_connection _ _ hv
  | compute x rest hqueue =>
    rw [Controller.pool_computed]
    exact hv.receive hqueue
  | stop why _ => exact (List.append_nil received).symm ▸ Controller.accounted_dispose hv

theorem accounted_step (h : v.controller.pool.Accounted m (l.deeds.filterMap Deed.completion?))
    (hstep : Happening settings m v o entry v') :
    v'.controller.pool.Accounted m ((l ++ entry).deeds.filterMap Deed.completion?) := by
  rw [Ledger.deeds_append, List.filterMap_append]
  cases hstep with
  | take _ deeds v' _ htaken => exact htaken.accounted h
  | inside _ deed hinside =>
    cases deed with
    | progress t => exact (List.append_nil _).symm ▸ h.progress t
    | resolve uri reply => exact (List.append_nil _).symm ▸ h.resolve uri reply
    | answer t reply => exact (List.append_nil _).symm ▸ h.answer t reply
    | _ => cases hinside
  | _ => exact (List.append_nil _).symm ▸ h

/-! ## Disposal -/

theorem disposed_step (h : v.controller.disposed = !v.isRunning)
    (hstep : Happening settings m v o entry v') : v'.controller.disposed = !v'.isRunning := by
  cases hstep with
  | take _ deeds v' hrunning htaken =>
    cases htaken with
    | wait => exact h
    | handle e rest _ hshutdown => exact (Controller.disposed_ofEvent hshutdown _).trans h
    | read _ => exact (Controller.renders_connection settings _ _ _).disposed_eq.trans h
    | compute x rest _ => exact (Controller.computed_keeps x _).1.trans h
    | stop why _ => exact Controller.disposed_dispose _
  | inside _ deed hinside =>
    obtain ⟨pool, hperform⟩ := Controller.perform_of_inside settings m hinside v.controller
    simp only [hperform]
    exact h
  | _ => exact h

/-! ## Connectivity -/

/-- What a service knows of the connectivity, which was `initial` at the start. -/
structure Informed (initial : Bool) (l : Ledger ρ) (v : Service ρ) : Prop where
  latest : v.connection.value = l.published.getLast?.getD initial
  seen_le : v.seen ≤ v.connection.version
  /-- a service that has seen the last notification has applied the last value -/
  current : v.seen = v.connection.version → v.controller.state.connected = v.connection.value
  ended : v.ended = some .connectionClosed →
    v.seen = v.connection.version ∧ v.connectionOpen = false

/-- Nothing new is published. -/
theorem Informed.congr {initial : Bool} (h : Informed initial l v) (hentry : entry.published = [])
    (hconnection : v'.connection = v.connection) (hseen : v'.seen = v.seen)
    (hconnected : v'.controller.state.connected = v.controller.state.connected)
    (hended : v'.ended = some .connectionClosed →
      v.seen = v.connection.version ∧ v'.connectionOpen = false) :
    Informed initial (l ++ entry) v' where
  latest := by
    rw [Ledger.published_append, hentry, List.append_nil, hconnection]
    exact h.latest
  seen_le := by
    rw [hseen, hconnection]
    exact h.seen_le
  current := by
    rw [hseen, hconnection, hconnected]
    exact h.current
  ended := by
    rw [hseen, hconnection]
    exact hended

theorem Informed.taken {initial : Bool} {deeds : List (Deed ρ)} (h : Informed initial l v)
    (hrunning : v.isRunning = true) (hdisposed : v.controller.disposed = !v.isRunning)
    (htaken : Taken settings m v deeds v') : Informed initial (l ++ { deeds := deeds }) v' := by
  have hopen : v.ended ≠ some .connectionClosed := by simp [ended_of_running hrunning]
  cases htaken with
  | wait => exact h.congr rfl rfl rfl rfl (fun hclosed => absurd hclosed hopen)
  | handle e rest _ _ =>
    exact h.congr rfl rfl rfl (Controller.connected_ofEvent e _)
      (fun hclosed => absurd hclosed hopen)
  | compute x rest _ =>
    exact h.congr rfl rfl rfl (Controller.computed_keeps x _).2.1
      (fun hclosed => absurd hclosed hopen)
  | stop why hwhy =>
    refine h.congr rfl rfl rfl (Controller.connected_dispose _) ?_
    intro hclosed
    cases hclosed
    exact hwhy
  | read _ =>
    rw [hrunning] at hdisposed
    refine ⟨?_, Nat.le_refl _, fun _ => Controller.connected_connection hdisposed _ _,
      fun hclosed => absurd hclosed hopen⟩
    rw [Ledger.published_append, List.append_nil]
    exact h.latest

theorem Informed.step {initial : Bool} (h : Informed initial l v)
    (hdisposed : v.controller.disposed = !v.isRunning)
    (hstep : Happening settings m v o entry v') : Informed initial (l ++ entry) v' := by
  cases hstep with
  | take _ deeds v' hrunning htaken => exact h.taken hrunning hdisposed htaken
  | publish connected w hopen hvalue hversion =>
    refine ⟨?_, ?_, ?_, ?_⟩
    · rw [Ledger.published_append, List.getLast?_concat, hvalue]
      rfl
    · rcases hversion with rfl | hversion
      · exact h.seen_le
      · exact Nat.le_trans h.seen_le (by simp [hversion])
    · intro hseen
      rcases hversion with rfl | hversion
      · exact h.current hseen
      · -- a new notification cannot have been seen
        have hle := h.seen_le
        simp only at hseen
        omega
    · intro hclosed
      cases hopen.symm.trans (h.ended hclosed).2
  | inside _ deed hinside =>
    obtain ⟨pool, hperform⟩ := Controller.perform_of_inside settings m hinside v.controller
    exact h.congr rfl rfl rfl (by simp [hperform]) h.ended
  | closeConnection => exact h.congr rfl rfl rfl rfl fun hclosed => ⟨(h.ended hclosed).1, rfl⟩
  | _ => exact h.congr rfl rfl rfl rfl h.ended

/-! ## Runs -/

section Runs

variable (settings : Settings) (m : Meaning ρ) (link : Link) (connected : Bool)
  (focus : Option Document) (showUncovered : Bool) (run : List (Occurrence ρ))

theorem unhandled_run :
    let start := create settings link connected focus (Controller.create showUncovered)
    Unhandled (start.ledger settings m run) (start.playAll settings m run) :=
  run_induction (P := Unhandled) run (fun _ _ _ _ _ h hstep => h.step hstep) ⟨[], rfl, rfl⟩

theorem accounted_run :
    let start := create settings link connected focus (Controller.create showUncovered)
    (start.playAll settings m run).controller.pool.Accounted m
      ((start.ledger settings m run).deeds.filterMap Deed.completion?) :=
  run_induction
    (P := fun l v => v.controller.pool.Accounted m (l.deeds.filterMap Deed.completion?)) run
    (fun _ _ _ _ _ h hstep => accounted_step h hstep)
    (Controller.accounted_connection connected focus Pool.Accounted.empty)

/-- The controller is in use as long as the service runs. -/
theorem disposed_run :
    let start := create settings link connected focus (Controller.create showUncovered)
    (start.playAll settings m run).controller.disposed =
      !(start.playAll settings m run).isRunning :=
  run_induction (P := fun _ v => v.controller.disposed = !v.isRunning) run
    (fun _ _ _ _ _ h hstep => disposed_step h hstep)
    (Controller.renders_connection settings connected focus _).disposed_eq

theorem informed_run :
    let start := create settings link connected focus (Controller.create showUncovered)
    Informed connected (start.ledger settings m run) (start.playAll settings m run) := by
  have hstart : Informed connected ({} : Ledger ρ)
      (create settings link connected focus (Controller.create showUncovered)) :=
    ⟨rfl, Nat.le_refl _, fun _ => Controller.connected_connection rfl connected focus, nofun⟩
  refine (run_induction
    (P := fun l v => v.controller.disposed = (!v.isRunning) ∧ Informed connected l v) run
    (fun _ _ _ _ _ h hstep => ⟨disposed_step h.1 hstep, h.2.step h.1 hstep⟩) ⟨?_, hstart⟩).2
  exact (Controller.renders_connection settings connected focus _).disposed_eq

end Runs

/-- Events without a shutdown that come first come before the first shutdown. -/
theorem takeWhile_sent (handled rest : List HostEvent) (h : .shutdown ∉ handled) :
    (handled ++ rest).takeWhile (· ≠ .shutdown) =
      handled ++ rest.takeWhile (· ≠ .shutdown) := by
  refine List.takeWhile_append_of_pos ?_
  intro e he
  simp only [decide_eq_true_eq]
  rintro rfl
  exact h he

theorem shutdown_not_mem_handled (deeds : List (Deed ρ)) :
    HostEvent.shutdown ∉ deeds.filterMap Deed.event? := by
  intro h
  obtain ⟨deed, _, hdeed⟩ := List.mem_filterMap.mp h
  exact Deed.event?_ne_shutdown hdeed

/-- A service loses nothing, repeats nothing and changes no order, whatever branches it takes, and
ends cleanly.  Its controller is the one that results from the deeds of the run.  The events among
these are the first ones that were sent, up to the first shutdown at most: the others are queued
while the service runs, an end on a shutdown comes right at the first shutdown, and an end with the
queue of events leaves none.  Every completion that was left was handed over, once and in this
order, or is queued.  At an end with the connectivity the controller has the last one.  However the
service ends, the controller is disposed of, nothing is pending, and the release of the store is the
last thing that the views were told. -/
theorem run_in_order (settings : Settings) (m : Meaning ρ) (link : Link) (connected : Bool)
    (focus : Option Document) (showUncovered : Bool) (run : List (Occurrence ρ)) :
    let c : Controller ρ := Controller.create showUncovered
    let start := create settings link connected focus c
    let v := start.playAll settings m run
    let sent := (start.ledger settings m run).sent
    let published := (start.ledger settings m run).published
    let deeds := .connection connected focus :: (start.ledger settings m run).deeds
    let handled := deeds.filterMap Deed.event?
    v.controller = c.performAll settings m deeds ∧
    (handled <+: sent.takeWhile (· ≠ .shutdown) ∧
      (v.ended = none → sent = handled ++ v.events) ∧
      (v.ended = some .shutdown →
        .shutdown ∈ sent ∧ handled = sent.takeWhile (· ≠ .shutdown)) ∧
      (v.ended = some .eventsClosed → v.eventsOpen = false ∧ handled = sent)) ∧
    v.controller.pool.delivered m =
      deeds.filterMap Deed.completion? ++ v.controller.pool.completions ∧
    (v.ended = some .connectionClosed → v.connectionOpen = false ∧
      v.controller.state.connected = published.getLast?.getD connected) ∧
    (v.ended = none → v.controller.disposed = false) ∧
    (v.ended ≠ none → v.controller.disposed = true ∧ v.controller.state.pending = none ∧
      ∃ states : List State,
        v.controller.sinks = states.flatMap State.render ++ [settings.release]) := by
  intro c start v sent published deeds handled
  have hcontroller : v.controller = c.performAll settings m deeds := controller_playAll run start
  obtain ⟨rest, hsent, hrest⟩ : Unhandled (start.ledger settings m run) v :=
    unhandled_run settings m link connected focus showUncovered run
  have hsent : sent = handled ++ rest := hsent
  have hbefore : sent.takeWhile (· ≠ .shutdown) = handled ++ rest.takeWhile (· ≠ .shutdown) := by
    rw [hsent]
    exact takeWhile_sent handled rest (shutdown_not_mem_handled deeds)
  have haccounted := accounted_run settings m link connected focus showUncovered run
  have hinformed := informed_run settings m link connected focus showUncovered run
  have hdisposed : v.controller.disposed = !v.isRunning :=
    disposed_run settings m link connected focus showUncovered run
  have hsound : v.holding.Sound :=
    (sound_run settings m link connected focus showUncovered run).1
  have hreleased : v.controller.Released settings := by
    rw [hcontroller]
    exact (Controller.released_create showUncovered).performAll deeds
  refine ⟨hcontroller, ⟨⟨_, hbefore.symm⟩, ?_, ?_, ?_⟩, haccounted.delivered, ?_, ?_, ?_⟩
  · intro hended
    simp only [Remaining, hended] at hrest
    rw [hsent, hrest]
  · intro hended
    simp only [Remaining, hended] at hrest
    obtain ⟨after, rfl⟩ := List.head?_eq_some_iff.mp hrest
    refine ⟨?_, ?_⟩
    · rw [hsent]
      exact List.mem_append_right _ List.mem_cons_self
    · rw [hbefore]
      exact (List.append_nil handled).symm
  · intro hended
    simp only [Remaining, hended] at hrest
    exact ⟨hrest.2, by rw [hsent, hrest.1, List.append_nil]⟩
  · intro hended
    obtain ⟨hseen, hclosed⟩ := hinformed.ended hended
    exact ⟨hclosed, (hinformed.current hseen).trans hinformed.latest⟩
  · intro hended
    simpa [isRunning, hended] using hdisposed
  · intro hended
    obtain ⟨why, hwhy⟩ := Option.ne_none_iff_exists'.mp hended
    have hdisposed : v.controller.disposed = true := by simpa [isRunning, hwhy] using hdisposed
    obtain ⟨states, hstates⟩ := hreleased
    rw [hdisposed, if_pos rfl] at hstates
    exact ⟨hdisposed, hsound.ended (Or.inl hdisposed), states, hstates⟩

end Service

end CoverageTracker
