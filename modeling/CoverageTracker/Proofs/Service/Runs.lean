import CoverageTracker.Service
import CoverageTracker.Proofs.Session.Consistent
import Mathlib.Data.List.Induction
set_option autoImplicit false

/-!
# Runs of a service

A run is a list of occurrences: what the host, the publisher of the connectivity, the backend and
the tasks do, and which branch the service takes, in any order.  What comes before the service
starts makes no difference to one that comes right after, for the service looks at no event before
it has applied the connectivity.

`Taken` has one case for each thing that a step of the service can do, and `Happening` one for each
thing that can happen at all; each case says what it adds to the `Ledger` of the run.  Later proofs
go by these cases and never open `take` or `play`: an invariant relates the ledger so far to the
service as it is, and `run_induction` carries it through a run.  So the controller is the first one
after all the deeds of the ledger (`controller_playAll`), and every run is a sequence of
`Holding.Step` (`steps_run`): whatever these keep holds throughout.
-/

namespace CoverageTracker

variable {ρ : Type} {settings : Settings} {m : Meaning ρ}

/-! ## Deeds -/

/-- What is done to the controller of a service. -/
inductive Deed (ρ : Type) where
  /-- the connectivity is applied, with the document that is in focus at that moment -/
  | connection (connected : Bool) (focus : Option Document)
  | activated (d : Option Document)
  | saved (d : Document)
  | toggle
  /-- the oldest completion is received and handed over -/
  | computed (x : Completion)
  | dispose
  | progress (t : Ticket)
  | resolve (uri : String) (reply : ρ)
  | answer (t : Ticket) (reply : ρ)

namespace Deed

/-- What handling an event does. -/
def ofEvent : HostEvent → Deed ρ
  | .active d => .activated d
  | .saved d => .saved d
  | .toggle => .toggle
  | .shutdown => .dispose

/-- The event that is applied, if it is one. -/
def event? : Deed ρ → Option HostEvent
  | .activated d => some (.active d)
  | .saved d => some (.saved d)
  | .toggle => some .toggle
  | _ => none

/-- The completion that is handed over, if it is one. -/
def completion? : Deed ρ → Option Completion
  | .computed x => some x
  | _ => none

/-- Whether it is a part of a computation and no transition of the controller. -/
def isInside : Deed ρ → Bool
  | .progress _ => true
  | .resolve _ _ => true
  | .answer _ _ => true
  | _ => false

theorem event?_ofEvent {e : HostEvent} (h : e ≠ .shutdown) :
    (ofEvent e : Deed ρ).event? = some e := by
  cases e with
  | shutdown => exact absurd rfl h
  | _ => rfl

theorem event?_of_inside {d : Deed ρ} (h : d.isInside = true) : d.event? = none := by
  cases d <;> first | rfl | cases h

theorem event?_ne_shutdown {d : Deed ρ} : d.event? ≠ some .shutdown := by
  cases d <;> simp [event?]

theorem completion?_ofEvent (e : HostEvent) : (ofEvent e : Deed ρ).completion? = none := by
  cases e <;> rfl

end Deed

namespace Controller

/-- Does a deed. -/
def perform (settings : Settings) (m : Meaning ρ) (deed : Deed ρ) (c : Controller ρ) :
    Controller ρ :=
  match deed with
  | .connection connected focus => c.connection settings connected focus
  | .activated d => c.activated settings d
  | .saved d => c.saved settings d
  | .toggle => c.toggle
  | .computed x => (c.next.2.computed x).2
  | .dispose => c.dispose settings
  | .progress t => c.progress m t
  | .resolve uri reply => (c.resolve uri reply).2
  | .answer t reply => (c.answer t reply).2

/-- Does one deed after another. -/
def performAll (settings : Settings) (m : Meaning ρ) (deeds : List (Deed ρ)) (c : Controller ρ) :
    Controller ρ :=
  deeds.foldl (fun c deed => c.perform settings m deed) c

theorem performAll_append (before after : List (Deed ρ)) (c : Controller ρ) :
    c.performAll settings m (before ++ after) =
      (c.performAll settings m before).performAll settings m after :=
  List.foldl_append

end Controller

/-! ## Occurrences -/

/-- What can happen to a service and around it. -/
inductive Occurrence (ρ : Type) where
  /-- the host sends an event -/
  | send (e : HostEvent)
  /-- the host closes the queue of events -/
  | closeEvents
  /-- another document is in focus -/
  | focus (d : Option Document)
  /-- the connectivity is published -/
  | publish (connected : Bool)
  /-- nobody can publish the connectivity any more -/
  | closeConnection
  /-- one task takes a step -/
  | progress (t : Ticket)
  /-- the backend replies -/
  | resolve (uri : String) (reply : ρ)
  /-- the backend replies to one task, whatever the place of its call -/
  | answer (t : Ticket) (reply : ρ)
  /-- the service takes a branch -/
  | take (b : Branch)

/-- What takes effect in a run, each kind in order. -/
@[ext]
structure Ledger (ρ : Type) where
  /-- the events that are sent -/
  sent : List HostEvent := []
  /-- the connectivities that are published -/
  published : List Bool := []
  /-- what is done to the controller -/
  deeds : List (Deed ρ) := []

namespace Ledger

/-- One ledger after another. -/
instance : Append (Ledger ρ) :=
  ⟨fun a b => ⟨a.sent ++ b.sent, a.published ++ b.published, a.deeds ++ b.deeds⟩⟩

@[simp] theorem sent_append (a b : Ledger ρ) : (a ++ b).sent = a.sent ++ b.sent := rfl

@[simp] theorem published_append (a b : Ledger ρ) :
    (a ++ b).published = a.published ++ b.published := rfl

@[simp] theorem deeds_append (a b : Ledger ρ) : (a ++ b).deeds = a.deeds ++ b.deeds := rfl

theorem append_empty (a : Ledger ρ) : a ++ {} = a :=
  Ledger.ext (List.append_nil _) (List.append_nil _) (List.append_nil _)

theorem append_assoc (a b c : Ledger ρ) : a ++ b ++ c = a ++ (b ++ c) :=
  Ledger.ext (List.append_assoc _ _ _) (List.append_assoc _ _ _) (List.append_assoc _ _ _)

end Ledger

namespace Service

variable {v : Service ρ}

/-- Lets something happen; what is not possible at the moment is passed over. -/
def play (settings : Settings) (m : Meaning ρ) (o : Occurrence ρ) (v : Service ρ) : Service ρ :=
  match o with
  | .send e => (v.send e).2
  | .closeEvents => v.closeEvents
  | .focus d => v.focusOn d
  | .publish connected => ((v.publish connected).map Prod.snd).getD v
  | .closeConnection => v.closeConnection
  | .progress t => v.progress m t
  | .resolve uri reply => (v.resolve uri reply).2
  | .answer t reply => { v with controller := (v.controller.answer t reply).2 }
  | .take b => (v.take settings b).getD v

/-- Lets one thing happen after another. -/
def playAll (settings : Settings) (m : Meaning ρ) (run : List (Occurrence ρ)) (v : Service ρ) :
    Service ρ :=
  run.foldl (fun v o => v.play settings m o) v

theorem playAll_append (before after : List (Occurrence ρ)) (v : Service ρ) :
    v.playAll settings m (before ++ after) =
      (v.playAll settings m before).playAll settings m after :=
  List.foldl_append

theorem playAll_concat (run : List (Occurrence ρ)) (o : Occurrence ρ) (v : Service ρ) :
    v.playAll settings m (run ++ [o]) = (v.playAll settings m run).play settings m o :=
  playAll_append run [o] v

/-! ## Ledgers -/

/-- Whether an event that is sent is received. -/
def accepts (v : Service ρ) : Bool := v.isRunning && v.eventsOpen

/-- Whether a connectivity that is published takes effect. -/
def listens (v : Service ρ) : Bool := v.connectionOpen && (v.link == .status || v.isRunning)

/-- What a service that takes a branch does to its controller. -/
def deedsOf (b : Branch) (v : Service ρ) : List (Deed ρ) :=
  match b with
  | .event =>
    match v.events with
    | e :: _ => [.ofEvent e]
    | [] => if v.eventsOpen then [] else [.dispose]
  | .connection =>
    if v.seen ≠ v.connection.version then [.connection v.connection.value v.focus]
    else if v.connectionOpen then [] else [.dispose]
  | .completion => v.controller.pool.completions.head?.toList.map Deed.computed

/-- What an occurrence adds to the ledger of a run. -/
def entry (o : Occurrence ρ) (v : Service ρ) : Ledger ρ :=
  match o with
  | .send e => if v.accepts then { sent := [e] } else {}
  | .publish connected => if v.listens then { published := [connected] } else {}
  | .progress t => { deeds := [.progress t] }
  | .resolve uri reply => { deeds := [.resolve uri reply] }
  | .answer t reply => { deeds := [.answer t reply] }
  | .take b => if v.isRunning then { deeds := v.deedsOf b } else {}
  | .closeEvents => {}
  | .focus _ => {}
  | .closeConnection => {}

/-- The ledger of a run. -/
def ledger (settings : Settings) (m : Meaning ρ) : List (Occurrence ρ) → Service ρ → Ledger ρ
  | [], _ => {}
  | o :: run, v => v.entry o ++ ledger settings m run (v.play settings m o)

theorem ledger_concat (run : List (Occurrence ρ)) (o : Occurrence ρ) (v : Service ρ) :
    v.ledger settings m (run ++ [o]) =
      v.ledger settings m run ++ (v.playAll settings m run).entry o := by
  induction run generalizing v with
  | nil => exact Ledger.append_empty _
  | cons first run ih =>
    rw [List.cons_append, ledger, ledger, ih, Ledger.append_assoc]
    rfl

/-! ## Steps of a service -/

/-- Why a service may end. -/
def Ends (v : Service ρ) : Ending → Prop
  | .shutdown => v.events.head? = some .shutdown
  | .eventsClosed => v.events = [] ∧ v.eventsOpen = false
  | .connectionClosed => v.seen = v.connection.version ∧ v.connectionOpen = false

/-- What a step can make of a running service, and what it does to the controller. -/
inductive Taken (settings : Settings) (m : Meaning ρ) (v : Service ρ) :
    List (Deed ρ) → Service ρ → Prop
  /-- nothing, for the branch is not ready -/
  | wait : Taken settings m v [] v
  /-- it handles an event -/
  | handle (e : HostEvent) (rest : List HostEvent) : v.events = e :: rest → e ≠ .shutdown →
      Taken settings m v [.ofEvent e]
        { v with events := rest, controller := v.controller.perform settings m (.ofEvent e) }
  /-- it applies the connectivity -/
  | read : v.seen ≠ v.connection.version →
      Taken settings m v [.connection v.connection.value v.focus] (v.readConnection settings)
  /-- it hands over the oldest completion -/
  | compute (x : Completion) (rest : List Completion) : v.controller.pool.completions = x :: rest →
      Taken settings m v [.computed x]
        { v with controller := ((v.controller.requeue rest).computed x).2 }
  /-- it ends -/
  | stop (why : Ending) : v.Ends why → Taken settings m v [.dispose] (v.stop settings why)

/-- Every step is one of these. -/
theorem taken_take (settings : Settings) (m : Meaning ρ) (b : Branch)
    (hrunning : v.isRunning = true) :
    Taken settings m v (v.deedsOf b) ((v.take settings b).getD v) := by
  unfold take deedsOf
  simp only [hrunning, Bool.not_true, Bool.false_eq_true, if_false]
  cases b with
  | event =>
    cases hevents : v.events with
    | nil =>
      cases hopen : v.eventsOpen with
      | true => exact .wait
      | false => exact .stop .eventsClosed ⟨hevents, hopen⟩
    | cons e rest =>
      cases e with
      | shutdown => exact .stop .shutdown (congrArg List.head? hevents)
      | active d => exact .handle (.active d) rest hevents (by simp)
      | saved d => exact .handle (.saved d) rest hevents (by simp)
      | toggle => exact .handle .toggle rest hevents (by simp)
  | connection =>
    by_cases hseen : v.seen = v.connection.version
    · cases hopen : v.connectionOpen with
      | true =>
        simp only [hseen, ne_eq, not_true_eq_false, if_false, if_true, Option.getD_none]
        exact .wait
      | false =>
        simp only [hseen, ne_eq, not_true_eq_false, if_false, Bool.false_eq_true,
          Option.getD_some]
        exact .stop .connectionClosed ⟨hseen, hopen⟩
    · simp only [hseen, ne_eq, not_false_eq_true, if_true, Option.getD_some]
      exact .read hseen
  | completion =>
    unfold Controller.next Pool.receive
    cases hqueue : v.controller.pool.completions with
    | nil => exact .wait
    | cons x rest => exact .compute x rest hqueue

/-- A service that has ended takes no step. -/
theorem take_of_ended (settings : Settings) (b : Branch) (hended : v.isRunning = false) :
    (v.take settings b).getD v = v := by
  simp [take, hended]

theorem Taken.controller {deeds : List (Deed ρ)} {v' : Service ρ}
    (h : Taken settings m v deeds v') :
    v'.controller = v.controller.performAll settings m deeds := by
  cases h with
  | wait => rfl
  | handle e rest _ _ => rfl
  | read _ => rfl
  | compute x rest hqueue =>
    simp only [Controller.performAll, List.foldl_cons, List.foldl_nil, Controller.perform,
      Controller.next, Pool.receive, hqueue]
    rfl
  | stop why _ => rfl

/-! ## What can happen -/

theorem play_send_of_accepts {e : HostEvent} (h : v.accepts = true) :
    v.play settings m (.send e) = { v with events := v.events ++ [e] } := by
  unfold accepts at h
  simp [play, send, h]

theorem play_send_of_not_accepts {e : HostEvent} (h : v.accepts = false) :
    v.play settings m (.send e) = v := by
  unfold accepts at h
  simp [play, send, h]

/-- A connectivity that takes effect is the value from then on, and a notification unless it was
the value before. -/
theorem play_publish_of_listens (settings : Settings) (m : Meaning ρ) {connected : Bool}
    (h : v.listens = true) :
    ∃ w : Watch, w.value = connected ∧
      (w = v.connection ∨ w.version = v.connection.version + 1) ∧
      v.play settings m (.publish connected) = { v with connection := w } := by
  unfold listens at h
  rw [Bool.and_eq_true] at h
  obtain ⟨hopen, hlink⟩ := h
  cases hkind : v.link with
  | raw =>
    have hrunning : v.isRunning = true := by simpa [hkind] using hlink
    exact ⟨v.connection.send connected, rfl, Or.inr rfl,
      by simp [play, publish, hopen, hkind, hrunning]⟩
  | status =>
    refine ⟨v.connection.sendIfChanged connected, ?_, ?_, by simp [play, publish, hopen, hkind]⟩
    · unfold Watch.sendIfChanged
      split
      · assumption
      · rfl
    · unfold Watch.sendIfChanged
      split
      · exact Or.inl rfl
      · exact Or.inr rfl

theorem play_publish_of_not_listens {connected : Bool} (h : v.listens = false) :
    v.play settings m (.publish connected) = v := by
  unfold listens at h
  cases hopen : v.connectionOpen with
  | false => simp [play, publish, hopen]
  | true =>
    cases hkind : v.link with
    | raw =>
      have hrunning : v.isRunning = false := by simpa [hopen, hkind] using h
      simp [play, publish, hopen, hkind, hrunning]
    | status => simp [hopen, hkind] at h

/-- What an occurrence can make of a service, and what it adds to the ledger. -/
inductive Happening (settings : Settings) (m : Meaning ρ) (v : Service ρ) :
    Occurrence ρ → Ledger ρ → Service ρ → Prop
  /-- nothing, for the occurrence is not possible at the moment -/
  | pass (o : Occurrence ρ) : Happening settings m v o {} v
  | send (e : HostEvent) : v.isRunning = true →
      Happening settings m v (.send e) { sent := [e] } { v with events := v.events ++ [e] }
  | closeEvents : Happening settings m v .closeEvents {} v.closeEvents
  | focus (d : Option Document) : Happening settings m v (.focus d) {} (v.focusOn d)
  /-- a connectivity that takes effect is the value from then on, and a notification unless it was
  the value before -/
  | publish (connected : Bool) (w : Watch) : v.connectionOpen = true → w.value = connected →
      (w = v.connection ∨ w.version = v.connection.version + 1) →
      Happening settings m v (.publish connected) { published := [connected] }
        { v with connection := w }
  | closeConnection : Happening settings m v .closeConnection {} v.closeConnection
  /-- the computations go on -/
  | inside (o : Occurrence ρ) (deed : Deed ρ) : deed.isInside = true →
      Happening settings m v o { deeds := [deed] }
        { v with controller := v.controller.perform settings m deed }
  /-- the service takes a step -/
  | take (b : Branch) (deeds : List (Deed ρ)) (v' : Service ρ) : v.isRunning = true →
      Taken settings m v deeds v' → Happening settings m v (.take b) { deeds } v'

/-- Every occurrence is one of these. -/
theorem happening_play (settings : Settings) (m : Meaning ρ) (o : Occurrence ρ) (v : Service ρ) :
    Happening settings m v o (v.entry o) (v.play settings m o) := by
  cases o with
  | send e =>
    cases haccepts : v.accepts with
    | true =>
      have hentry : v.entry (.send e) = { sent := [e] } := if_pos haccepts
      rw [hentry, play_send_of_accepts haccepts]
      exact .send e (Bool.and_eq_true_iff.mp haccepts).1
    | false =>
      have hentry : v.entry (.send e) = {} := by simp [entry, haccepts]
      rw [hentry, play_send_of_not_accepts haccepts]
      exact .pass _
  | publish connected =>
    cases hlistens : v.listens with
    | true =>
      have hentry : v.entry (.publish connected) = { published := [connected] } := if_pos hlistens
      obtain ⟨w, hvalue, hversion, hplay⟩ := play_publish_of_listens settings m hlistens
      rw [hentry, hplay]
      exact .publish connected w (Bool.and_eq_true_iff.mp hlistens).1 hvalue hversion
    | false =>
      have hentry : v.entry (.publish connected) = {} := by simp [entry, hlistens]
      rw [hentry, play_publish_of_not_listens hlistens]
      exact .pass _
  | take b =>
    cases hrunning : v.isRunning with
    | true =>
      have hentry : v.entry (.take b) = { deeds := v.deedsOf b } := if_pos hrunning
      rw [hentry]
      exact .take b _ _ hrunning (taken_take settings m b hrunning)
    | false =>
      have hentry : v.entry (.take b) = {} := by simp [entry, hrunning]
      have hplay : v.play settings m (.take b) = v := take_of_ended settings b hrunning
      rw [hentry, hplay]
      exact .pass _
  | closeEvents => exact .closeEvents
  | focus d => exact .focus d
  | closeConnection => exact .closeConnection
  | progress t => exact .inside _ (.progress t) rfl
  | resolve uri reply => exact .inside _ (.resolve uri reply) rfl
  | answer t reply => exact .inside _ (.answer t reply) rfl

/-- A service that has ended does not run again. -/
theorem Happening.isRunning {o : Occurrence ρ} {entry : Ledger ρ} {v' : Service ρ}
    (h : Happening settings m v o entry v') (hrunning : v'.isRunning = true) :
    v.isRunning = true := by
  cases h with
  | send _ hbefore => exact hbefore
  | take _ _ _ hbefore _ => exact hbefore
  | _ => exact hrunning

/-- Whatever each occurrence of a run keeps holds throughout the run. -/
theorem run_induction_of_prefix {P : Ledger ρ → Service ρ → Prop} (run : List (Occurrence ρ))
    (hstep : ∀ before o after, run = before ++ o :: after →
      P (v.ledger settings m before) (v.playAll settings m before) →
      P (v.ledger settings m before ++ (v.playAll settings m before).entry o)
        ((v.playAll settings m before).play settings m o))
    (hstart : P {} v) : P (v.ledger settings m run) (v.playAll settings m run) := by
  induction run using List.reverseRecOn with
  | nil => exact hstart
  | append_singleton run o ih =>
    rw [ledger_concat, playAll_concat]
    refine hstep run o [] rfl (ih ?_)
    intro before other after hrun
    refine hstep before other (after ++ [o]) ?_
    rw [hrun, List.append_assoc, List.cons_append]

/-- Whatever everything that can happen keeps holds throughout every run. -/
theorem run_induction {P : Ledger ρ → Service ρ → Prop} (run : List (Occurrence ρ))
    (hstep : ∀ l w o entry w', P l w → Happening settings m w o entry w' → P (l ++ entry) w')
    (hstart : P {} v) : P (v.ledger settings m run) (v.playAll settings m run) :=
  run_induction_of_prefix run
    (fun _ o _ _ h => hstep _ _ _ _ _ h (happening_play settings m o _)) hstart

/-! ## The controller of a run -/

theorem Happening.controller {o : Occurrence ρ} {entry : Ledger ρ} {v' : Service ρ}
    (h : Happening settings m v o entry v') :
    v'.controller = v.controller.performAll settings m entry.deeds := by
  cases h with
  | take _ _ _ _ htaken => exact htaken.controller
  | _ => rfl

theorem controller_playAll (run : List (Occurrence ρ)) (v : Service ρ) :
    (v.playAll settings m run).controller =
      v.controller.performAll settings m (v.ledger settings m run).deeds := by
  refine run_induction
    (P := fun l w => w.controller = v.controller.performAll settings m l.deeds) run ?_ rfl
  intro l w o entry w' hw h
  rw [h.controller, hw, Ledger.deeds_append, Controller.performAll_append]

/-! ## Runs as steps -/

open Holding

/-- The controller of a service; no completion is held back. -/
def holding (v : Service ρ) : Holding ρ := ⟨v.controller, false, []⟩

theorem steps_handle (e : HostEvent) (c : Controller ρ) :
    Steps settings m ⟨c, false, []⟩ ⟨c.perform settings m (.ofEvent e), false, []⟩ := by
  cases e with
  | active d => exact steps_activated c [] d
  | saved d => exact steps_activated c [] (some d)
  | toggle => exact steps_toggle c []
  | shutdown => exact steps_dispose c []

theorem Taken.steps {deeds : List (Deed ρ)} {v' : Service ρ} (h : Taken settings m v deeds v') :
    Steps settings m v.holding v'.holding := by
  cases h with
  | wait => exact .refl
  | handle e rest _ _ => exact steps_handle e v.controller
  | read _ => exact steps_connection v.controller [] v.connection.value v.focus
  | compute x rest hqueue =>
    have hreceive : Steps settings m v.holding ⟨v.controller.requeue rest, false, [] ++ [x]⟩ :=
      .single (.receive x rest v.controller [] hqueue)
    exact hreceive.trans (steps_computed (v.controller.requeue rest) x [] [])
  | stop why _ => exact steps_dispose v.controller []

theorem Happening.steps {o : Occurrence ρ} {entry : Ledger ρ} {v' : Service ρ}
    (h : Happening settings m v o entry v') : Steps settings m v.holding v'.holding := by
  cases h with
  | take _ _ _ _ htaken => exact htaken.steps
  | inside _ deed hinside =>
    cases deed with
    | progress t => exact .single (.progress t _ _ _)
    | resolve uri reply => exact .single (.resolve uri reply _ _ _)
    | answer t reply => exact .single (.answer t reply _ _ _)
    | _ => cases hinside
  | _ => exact .refl

theorem steps_playAll (run : List (Occurrence ρ)) (v : Service ρ) :
    Steps settings m v.holding (v.playAll settings m run).holding :=
  run_induction (P := fun _ w => Steps settings m v.holding w.holding) run
    (fun _ _ _ _ _ hw h => hw.trans h.steps) .refl

/-- From the controller that the service is given to any moment of a run. -/
theorem steps_run (settings : Settings) (m : Meaning ρ) (link : Link) (connected : Bool)
    (focus : Option Document) (c : Controller ρ) (run : List (Occurrence ρ)) :
    Steps settings m ⟨c, false, []⟩
      ((create settings link connected focus c).playAll settings m run).holding :=
  (steps_connection c [] connected focus).trans
    (steps_playAll run (create settings link connected focus c))

/-- The controller of a service is sound and consistent throughout. -/
theorem sound_run (settings : Settings) (m : Meaning ρ) (link : Link) (connected : Bool)
    (focus : Option Document) (showUncovered : Bool) (run : List (Occurrence ρ)) :
    let v := (create settings link connected focus
      (Controller.create showUncovered)).playAll settings m run
    v.holding.Sound ∧ v.controller.Consistent := by
  intro v
  have hsteps : Steps settings m ⟨Controller.create showUncovered, false, []⟩ v.holding :=
    steps_run settings m link connected focus (Controller.create showUncovered) run
  have hkept := hsteps.keeps_of_consistent (P := fun _ => True) (fun _ _ _ _ _ _ => trivial)
    (sound_create showUncovered) (.create showUncovered) trivial
  exact ⟨hkept.1, hkept.2.1⟩

end Service

end CoverageTracker
