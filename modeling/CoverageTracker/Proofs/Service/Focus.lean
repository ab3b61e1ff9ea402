import CoverageTracker.Proofs.Service.Order
set_option autoImplicit false

/-!
# Keeping up with the focus

On a reconnect a service asks the host for the document in focus, and the host may be ahead of the
reports that are still queued: then they are replayed after a newer document was tracked.  They do
no harm, for the last of them names the document in focus.  The invariant is about the queue, not
about the document that is tracked at the moment: handling all that is queued leads from that
document to the one in focus (`FollowsFocus.tracked`), and so it does from the one in focus itself
(`FollowsFocus.focused`), which is where a reconnect starts.

Handling an event sets the tracked document or leaves it, whatever it was before (`follow`), so
what the rest of a queue comes to depends on where it starts only if nothing in it sets the document
(`foldl_follow`).
-/

namespace CoverageTracker

variable {ρ : Type} {settings : Settings} {m : Meaning ρ}

/-! ## What events come to -/

namespace Controller

/-- The document that is tracked after an event, while the backend is available. -/
def follow (settings : Settings) (active : Option Document) (e : HostEvent) : Option Document :=
  match e with
  | .active d => d.filter settings.eligible
  | .saved d => (some d).filter settings.eligible
  | .toggle => active
  | .shutdown => active

/-- A queue of events sets the tracked document, wherever it starts, or leaves it. -/
theorem foldl_follow (settings : Settings) (events : List HostEvent) :
    (∃ d, ∀ active, events.foldl (follow settings) active = d) ∨
      ∀ active, events.foldl (follow settings) active = active := by
  induction events using List.reverseRecOn with
  | nil => exact Or.inr fun _ => rfl
  | append_singleton events e ih =>
    simp only [List.foldl_append, List.foldl_cons, List.foldl_nil]
    cases e with
    | active d => exact Or.inl ⟨_, fun _ => rfl⟩
    | saved d => exact Or.inl ⟨_, fun _ => rfl⟩
    | toggle => exact ih
    | shutdown => exact ih

variable {c : Controller ρ}

theorem active_activate (d : Option Document) (hconnected : c.state.connected = true) :
    (c.activate settings d).state.active = d.filter settings.eligible := by
  cases d with
  | none =>
    simp only [activate, untrack_eq]
    rfl
  | some d =>
    simp only [activate, hconnected, Bool.true_and]
    split
    · rename_i heligible
      rw [track_eq]
      simp [Option.filter, heligible]
    · rename_i heligible
      rw [untrack_eq]
      simp [Option.filter, heligible]

theorem active_activated (d : Option Document) (hdisposed : c.disposed = false)
    (hconnected : c.state.connected = true) :
    (c.activated settings d).state.active = d.filter settings.eligible := by
  unfold activated
  rw [if_neg (by simp [hdisposed])]
  exact active_activate d hconnected

theorem active_ofEvent {e : HostEvent} (he : e ≠ .shutdown) (hdisposed : c.disposed = false)
    (hconnected : c.state.connected = true) :
    (c.perform settings m (.ofEvent e)).state.active = follow settings c.state.active e := by
  cases e with
  | active d => exact active_activated d hdisposed hconnected
  | saved d => exact active_activated (some d) hdisposed hconnected
  | toggle =>
    simp only [Deed.ofEvent, perform, toggle, hdisposed]
    rfl
  | shutdown => exact absurd rfl he

/-- A reconnect tracks the document in focus; while the backend stays available nothing changes. -/
theorem active_connection (settings : Settings) (focus : Option Document)
    (hdisposed : c.disposed = false) (hconsistent : c.Consistent) :
    (c.connection settings true focus).state.active =
      if c.state.connected then c.state.active else focus.filter settings.eligible := by
  unfold connection
  rw [if_neg (by simp [hdisposed])]
  simp only [Bool.not_true, Bool.false_eq_true, if_false, render]
  cases hconnected : c.state.connected with
  | true => rfl
  | false =>
    cases focus with
    | none => exact hconsistent.active_of_disconnected hconnected
    | some d => exact active_activate (some d) rfl

end Controller

namespace Service

open Controller

variable {entry : Ledger ρ} {o : Occurrence ρ} {v v' : Service ρ}

/-! ## What the host reports -/

/-- The document that is known to be in focus after an event is sent. -/
def report (focus : Option Document) (e : HostEvent) : Option Document :=
  match e with
  | .active d => d
  | .saved _ => focus
  | .toggle => focus
  | .shutdown => focus

/-- The document that was reported last; the one in focus at the start if none was. -/
def reported (focus : Option Document) (sent : List HostEvent) : Option Document :=
  sent.foldl report focus

/-! ## The invariant -/

/-- What is queued leads to the document in focus. -/
structure FollowsFocus (settings : Settings) (focus : Option Document) (v : Service ρ) : Prop where
  /-- from that document itself, where a reconnect starts -/
  focused : v.events.foldl (follow settings) (focus.filter settings.eligible) =
    focus.filter settings.eligible
  /-- from the document that is tracked -/
  tracked : v.controller.state.connected = true →
    v.events.foldl (follow settings) v.controller.state.active = focus.filter settings.eligible

namespace FollowsFocus

variable {focus : Option Document}

/-- The queue is the same, and so are the fields that matter. -/
theorem congr (h : FollowsFocus settings focus v) (hevents : v'.events = v.events)
    (hconnected : v'.controller.state.connected = v.controller.state.connected)
    (hactive : v'.controller.state.active = v.controller.state.active) :
    FollowsFocus settings focus v' where
  focused := by
    rw [hevents]
    exact h.focused
  tracked := by
    rw [hevents, hconnected, hactive]
    exact h.tracked

/-- An event that is sent leads from the document that was in focus to the one that is. -/
theorem send {e : HostEvent} (h : FollowsFocus settings focus v)
    (hsaved : ∀ d, e = .saved d → focus = some d) :
    FollowsFocus settings (report focus e) { v with events := v.events ++ [e] } := by
  have hlast : follow settings (focus.filter settings.eligible) e =
      (report focus e).filter settings.eligible := by
    cases e with
    | saved d => rw [hsaved d rfl, follow, report]
    | _ => rfl
  refine ⟨?_, fun hconnected => ?_⟩
  · have hfocused : (v.events ++ [e]).foldl (follow settings) (focus.filter settings.eligible) =
        (report focus e).filter settings.eligible := by
      rw [List.foldl_concat, h.focused, hlast]
    -- an event that moves the focus leads there from anywhere, the others leave the focus as it is
    cases e with
    | active d => exact List.foldl_concat ..
    | _ => exact hfocused
  · rw [List.foldl_concat, h.tracked hconnected, hlast]

/-- The rest of the queue leads there from the document that the first event leaves.  From the
document in focus it does so too: it sets the document, wherever it starts, or it leaves it. -/
theorem handle {e : HostEvent} {rest : List HostEvent} {c : Controller ρ}
    (h : FollowsFocus settings focus v) (hevents : v.events = e :: rest)
    (hconnected : c.state.connected = v.controller.state.connected)
    (hactive : v.controller.state.connected = true →
      c.state.active = follow settings v.controller.state.active e) :
    FollowsFocus settings focus { v with events := rest, controller := c } where
  focused := by
    have hfocused := h.focused
    rw [hevents, List.foldl_cons] at hfocused
    rcases foldl_follow settings rest with ⟨d, hsets⟩ | hleaves
    · exact (hsets _).trans ((hsets _).symm.trans hfocused)
    · exact hleaves _
  tracked := by
    intro hc
    have hc : v.controller.state.connected = true := hconnected.symm.trans hc
    have htracked := h.tracked hc
    rw [hevents, List.foldl_cons] at htracked
    rw [hactive hc]
    exact htracked

theorem read (h : FollowsFocus settings focus v) (hdisposed : v.controller.disposed = false)
    (hconsistent : v.controller.Consistent) (hfocus : v.focus = focus) :
    FollowsFocus settings focus (v.readConnection settings) := by
  refine ⟨h.focused, fun hconnected => ?_⟩
  have hvalue : v.connection.value = true :=
    (connected_connection hdisposed v.connection.value v.focus).symm.trans hconnected
  have hactive := active_connection settings v.focus hdisposed hconsistent
  rw [hfocus] at hactive
  simp only [readConnection, hvalue, hfocus, hactive]
  cases hbefore : v.controller.state.connected with
  | true => exact h.tracked hbefore
  | false => exact h.focused

/-- Whatever happens to a running service, as long as the reported document is the one in focus when
the service takes a step, and the one that is saved when a document is. -/
theorem step (h : FollowsFocus settings focus v) (hdisposed : v.controller.disposed = false)
    (hconsistent : v.controller.Consistent)
    (hstepping : ∀ b, o = .take b → v.focus = focus)
    (hsaving : ∀ d, o = .send (.saved d) → focus = some d)
    (hstep : Happening settings m v o entry v') (hrunning : v'.isRunning = true) :
    FollowsFocus settings (reported focus entry.sent) v' := by
  cases hstep with
  | send e _ =>
    refine h.send ?_
    rintro d rfl
    exact hsaving d rfl
  | inside _ deed hinside =>
    obtain ⟨pool, hperform⟩ := perform_of_inside settings m hinside v.controller
    exact h.congr rfl (by simp [hperform]) (by simp [hperform])
  | take b deeds v' _ htaken =>
    cases htaken with
    | wait => exact h
    | handle e rest hevents he =>
      exact h.handle hevents (connected_ofEvent e _) fun hconnected =>
        active_ofEvent he hdisposed hconnected
    | read _ => exact h.read hdisposed hconsistent (hstepping b rfl)
    | compute x rest _ =>
      obtain ⟨_, hconnected, hactive⟩ := computed_keeps x (v.controller.requeue rest)
      exact h.congr rfl hconnected hactive
    | stop why _ => cases hrunning
  | _ => exact h.congr rfl rfl rfl

end FollowsFocus

/-! ## Runs -/

/-- The host reports its focus truly: whenever the service takes a step, and now, the document in
focus is the one that was reported last, and so is every document that is saved. -/
structure Truthful (settings : Settings) (m : Meaning ρ) (focus : Option Document)
    (run : List (Occurrence ρ)) (start : Service ρ) : Prop where
  stepping : ∀ before b after, run = before ++ .take b :: after →
    (start.playAll settings m before).focus = reported focus (start.ledger settings m before).sent
  saving : ∀ before d after, run = before ++ .send (.saved d) :: after →
    reported focus (start.ledger settings m before).sent = some d
  now : (start.playAll settings m run).focus = reported focus (start.ledger settings m run).sent

theorem followsFocus_create (settings : Settings) (link : Link) (connected : Bool)
    (focus : Option Document) (showUncovered : Bool) :
    FollowsFocus settings focus
      (create settings link connected focus (Controller.create showUncovered : Controller ρ)) := by
  have hstart : FollowsFocus settings focus
      (⟨Controller.create showUncovered, [], true, link, Watch.create connected, 0, true, focus,
        none⟩ : Service ρ) := ⟨rfl, nofun⟩
  exact hstart.read rfl (.create showUncovered) rfl

theorem followsFocus_run (settings : Settings) (m : Meaning ρ) (link : Link) (connected : Bool)
    (focus : Option Document) (showUncovered : Bool) (run : List (Occurrence ρ))
    (hhost : Truthful settings m focus run
      (create settings link connected focus (Controller.create showUncovered))) :
    let start := create settings link connected focus (Controller.create showUncovered)
    let v := start.playAll settings m run
    v.isRunning = true →
      FollowsFocus settings (reported focus (start.ledger settings m run).sent) v := by
  intro start v
  refine run_induction_of_prefix
    (P := fun l v => v.isRunning = true → FollowsFocus settings (reported focus l.sent) v) run ?_
    fun _ => followsFocus_create settings link connected focus showUncovered
  intro before o after hrun h hrunning
  have hstep := happening_play settings m o (start.playAll settings m before)
  have hbefore : (start.playAll settings m before).isRunning = true := hstep.isRunning hrunning
  have hdisposed : (start.playAll settings m before).controller.disposed = false :=
    (disposed_run settings m link connected focus showUncovered before).trans (by rw [hbefore]; rfl)
  have hconsistent : (start.playAll settings m before).controller.Consistent :=
    (sound_run settings m link connected focus showUncovered before).2
  rw [Ledger.sent_append, reported, List.foldl_append]
  refine (h hbefore).step hdisposed hconsistent ?_ ?_ hstep hrunning
  · rintro b rfl
    exact hhost.stepping before b after hrun
  · rintro d rfl
    exact hhost.saving before d after hrun

/-- A service keeps up with the focus of a truthful host, whatever branches it takes and whenever
the backend comes and goes.  Once it has handled all events that were sent and has seen the last
notification, it tracks the document in focus if the backend is available and that document is
eligible, and otherwise none; while the backend is not available nothing is known and nothing is
pending either. -/
theorem active_is_focus (settings : Settings) (m : Meaning ρ) (link : Link) (connected : Bool)
    (focus : Option Document) (showUncovered : Bool) (run : List (Occurrence ρ))
    (hhost : Truthful settings m focus run
      (create settings link connected focus (Controller.create showUncovered))) :
    let v := (create settings link connected focus
      (Controller.create showUncovered)).playAll settings m run
    v.ended = none → v.events = [] → v.seen = v.connection.version →
      (v.connection.value = true →
        v.controller.state.active = v.focus.filter settings.eligible) ∧
      (v.connection.value = false →
        v.controller.state.active = none ∧ v.controller.state.coverage = none ∧
        v.controller.state.pending = none) := by
  intro v hended hevents hseen
  have hconnected : v.controller.state.connected = v.connection.value :=
    (informed_run settings m link connected focus showUncovered run).current hseen
  have hconsistent : v.controller.Consistent :=
    (sound_run settings m link connected focus showUncovered run).2
  refine ⟨fun hvalue => ?_, fun hvalue => ?_⟩
  · have hfollows := followsFocus_run settings m link connected focus showUncovered run hhost
      (Option.isNone_iff_eq_none.mpr hended)
    have htracked := hfollows.tracked (hconnected.trans hvalue)
    rw [hevents, ← hhost.now] at htracked
    exact htracked
  · have huntracked := hconsistent.active_of_disconnected (hconnected.trans hvalue)
    exact ⟨huntracked, hconsistent.idle_of_untracked huntracked⟩

/-- The host is ahead of its reports: a reconnect finds a document in focus whose report is queued,
and the reports that are handled afterwards lead to the same document. -/
theorem active_is_focus_of_reconnect :
    let a : Document := ⟨⟨"file:///a.js", rfl⟩, "javascript", some "/a.js"⟩
    let b : Document := ⟨⟨"file:///b.js", rfl⟩, "javascript", some "/b.js"⟩
    let run : List (Occurrence Outcome) :=
      [.focus (some b), .send (.active (some b)), .send (.saved b), .publish false,
        .take .connection, .publish true, .take .connection, .take .event, .take .event]
    let settings : Settings := ⟨fun d => d.path.isSome, .clear⟩
    let start := create settings .raw true (some a) (Controller.create true)
    let v := start.playAll settings Meaning.direct run
    Truthful settings Meaning.direct (some a) run start ∧ v.ended = none ∧ v.events = [] ∧
      v.seen = v.connection.version ∧ v.connection.value = true ∧
      v.controller.state.active = some b := by
  intro a b run settings start v
  have hnow : (start.playAll settings Meaning.direct run).focus =
      reported (some a) (start.ledger settings Meaning.direct run).sent := by decide +kernel
  have hhost : Truthful settings Meaning.direct (some a) run start := by
    refine ⟨?_, ?_, hnow⟩
    · intro before branch after hrun
      simp only [run, List.cons_eq_append_iff, List.cons.injEq, reduceCtorEq, false_and, and_false,
        false_or, or_false, List.nil_eq_append_iff, exists_false] at hrun
      obtain ⟨_, rfl, _, rfl, _, rfl, _, rfl, ⟨rfl, _⟩ | ⟨_, rfl, _, rfl, ⟨rfl, _⟩ | ⟨_, rfl,
        ⟨rfl, _⟩ | ⟨_, rfl, rfl, _⟩⟩⟩⟩ := hrun
      all_goals decide +kernel
    · intro before d after hrun
      simp only [run, List.cons_eq_append_iff, List.cons.injEq, reduceCtorEq, false_and, and_false,
        false_or, or_false, List.nil_eq_append_iff, exists_false, Occurrence.send.injEq,
        HostEvent.saved.injEq] at hrun
      obtain ⟨_, rfl, _, rfl, rfl, rfl, _⟩ := hrun
      decide +kernel
  have hended : v.ended = none := by decide +kernel
  have hevents : v.events = [] := by decide +kernel
  have hseen : v.seen = v.connection.version := by decide +kernel
  have hvalue : v.connection.value = true := by decide +kernel
  have hfocus : v.focus.filter settings.eligible = some b := by decide +kernel
  -- the run has been evaluated; from here on it is any run
  clear_value run settings
  have hactive : v.controller.state.active = v.focus.filter settings.eligible :=
    (active_is_focus settings Meaning.direct .raw true (some a) true run hhost hended hevents
      hseen).1 hvalue
  exact ⟨hhost, hended, hevents, hseen, hvalue, hactive.trans hfocus⟩

end Service

end CoverageTracker
