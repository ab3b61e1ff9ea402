import CoverageTracker.Proofs.Pool.Asking
import CoverageTracker.Proofs.Session.Consistent
import CoverageTracker.Proofs.Session.Moves
import Mathlib.Data.List.Basic
import Mathlib.Data.List.Induction
set_option autoImplicit false

/-!
# Which moves ask for a computation

The moves alone, without the controller, say which computations have to be started (`demands`): one
for each activation or save of an eligible document while connected, and one for each change from
disconnected to connected while an eligible document is in focus, as long as the controller is in
use.  The requests that were issued are these, in order, and are numbered one after another
(`requests_playAll`), with no number larger than that of the moves (`number_le_length`); and the
backend is called at most once for each of them (`asked_playAll`).
-/

namespace CoverageTracker

variable {ρ : Type} {m : Meaning ρ} {settings : Settings}

/-! ## Requests -/

namespace Pool

variable {p q : Pool ρ}

/-- The handles on all computations that were started, in order. -/
def requests (p : Pool ρ) : List Request := p.tasks.mapIdx Task.request

theorem getElem?_requests (t : Ticket) (p : Pool ρ) :
    p.requests[t]? = p.tasks[t]?.map (Task.request t) :=
  List.getElem?_mapIdx

@[simp] theorem length_requests (p : Pool ρ) : p.requests.length = p.tasks.length :=
  List.length_mapIdx

theorem mem_requests_of_task {t : Ticket} {a : Task ρ} (ha : p.tasks[t]? = some a) :
    a.request t ∈ p.requests := by
  refine List.mem_of_getElem? (i := t) ?_
  rw [getElem?_requests, ha]
  rfl

/-- Requests are never taken back. -/
theorem Grows.requests (h : Grows p q) : p.requests <+: q.requests := by
  rw [List.prefix_iff_getElem?]
  intro t ht
  have hlt : t < p.tasks.length := by simpa using ht
  have htask : p.tasks[t]? = some p.tasks[t] := List.getElem?_eq_getElem hlt
  obtain ⟨b, hb, hbecomes⟩ := h t _ htask
  have hrequest : p.requests[t]? = some (p.tasks[t].request t) := by
    rw [getElem?_requests, htask]
    rfl
  rw [getElem?_requests, hb, Option.map_some, hbecomes.request, ← hrequest,
    List.getElem?_eq_getElem ht]

end Pool

namespace Controller

variable {c c' : Controller ρ} {d : Option Document}

/-- The request of a document under the next number. -/
def upcoming (d : Document) (c : Controller ρ) : Request := ⟨c.issued, ⟨c.issued + 1⟩, d⟩

/-- Between two controllers one request was issued, of the given document, and is pending; none if
there is no document. -/
structure Issues (d : Option Document) (c c' : Controller ρ) : Prop where
  issued : c'.issued = c.issued + d.toList.length
  pending : ∀ e, d = some e → ∃ r, c'.state.pending = some r ∧ r.document = e

theorem issues_none (h : c'.issued = c.issued) : Issues none c c' :=
  ⟨h, nofun⟩

theorem issues_track (d : Document) (c : Controller ρ) : Issues (some d) c (c.track d) := by
  rw [track_eq]
  refine ⟨rfl, ?_⟩
  rintro e ⟨⟩
  exact ⟨_, rfl, rfl⟩

theorem issues_untrack (c : Controller ρ) : Issues none c c.untrack := by
  rw [untrack_eq]
  exact issues_none rfl

theorem issues_activate (settings : Settings) (d : Option Document) (c : Controller ρ) :
    Issues (d.filter fun d => c.state.connected && settings.eligible d) c
      (c.activate settings d) := by
  unfold activate
  cases d with
  | none => exact c.issues_untrack
  | some d =>
    simp only [Option.filter_some]
    split
    · exact c.issues_track d
    · exact c.issues_untrack

theorem issues_activated (hdisposed : c.disposed = false) (d : Option Document) :
    Issues (d.filter fun d => c.state.connected && settings.eligible d) c
      (c.activated settings d) := by
  obtain ⟨hissued, hpending⟩ := c.issues_activate settings d
  rw [activated, if_neg (by simp [hdisposed])]
  exact ⟨hissued, hpending⟩

/-- Only a change from disconnected to connected issues a request. -/
theorem issues_connection (hdisposed : c.disposed = false) (connected : Bool)
    (focus : Option Document) :
    Issues (focus.filter fun d => !c.state.connected && connected && settings.eligible d) c
      (c.connection settings connected focus) := by
  unfold connection
  rw [if_neg (by simp [hdisposed])]
  cases connected with
  | false =>
    have hfilter : (focus.filter fun d => !c.state.connected && false && settings.eligible d) =
        none := by simp
    rw [hfilter]
    obtain ⟨hissued, _⟩ :=
      issues_untrack ({ c with state := { c.state with connected := false } } : Controller ρ)
    exact issues_none hissued
  | true =>
    cases hbefore : c.state.connected with
    | true =>
      have hfilter : (focus.filter fun d => !true && true && settings.eligible d) = none := by
        simp
      rw [hfilter]
      exact issues_none rfl
    | false =>
      obtain ⟨hissued, hpending⟩ := issues_activate settings focus
        ({ c with state := { c.state with connected := true } } : Controller ρ)
      cases focus with
      | none => exact issues_none rfl
      | some e => exact ⟨hissued, hpending⟩

/-- The request that is issued between two controllers is the next one after those before. -/
theorem Issues.requests (h : Issues d c c') (hgrows : c.pool.Grows c'.pool) (hc : c.Consistent)
    (hc' : c'.Consistent) (hknown : ∀ r, c'.state.pending = some r →
      ∃ a, c'.pool.tasks[r.ticket]? = some a ∧ r = a.request r.ticket) :
    c'.pool.requests = c.pool.requests ++ d.toList.map fun d => c.upcoming d := by
  obtain ⟨new, hnew⟩ := hgrows.requests
  have hlength : new.length = d.toList.length := by
    have hlengths := congrArg List.length hnew
    rw [List.length_append, Pool.length_requests, Pool.length_requests, ← hc.issued,
      ← hc'.issued, h.issued] at hlengths
    exact Nat.add_left_cancel hlengths
  rw [← hnew]
  congr 1
  cases d with
  | none => exact List.length_eq_zero_iff.mp hlength
  | some e =>
    obtain ⟨x, rfl⟩ := List.length_eq_one_iff.mp hlength
    obtain ⟨r, hr, rfl⟩ := h.pending e rfl
    obtain ⟨a, ha, hrequest⟩ := hknown r hr
    -- the pending request is the last one, so its ticket is the next after those before
    have hnumber : r.id.number = c.issued + 1 := (hc'.pending r hr).2.trans h.issued
    have hticket : r.ticket = c.issued := by
      have hnumbered := hc'.numbered _ a ha
      have hid : r.id = a.id := congrArg Request.id hrequest
      rw [← hid, hnumber] at hnumbered
      exact (Nat.succ.inj hnumbered).symm
    have hupcoming : c.upcoming r.document = r := by
      rw [upcoming, ← hnumber, ← hticket]
    have hlast : c'.pool.requests[c.issued]? = some r := by
      rw [Pool.getElem?_requests, ← hticket, ha, Option.map_some, ← hrequest]
    rw [← hnew, hc.issued, ← Pool.length_requests, List.getElem?_concat_length] at hlast
    rw [Option.toList_some, List.map_singleton, hupcoming, Option.some.inj hlast]

/-- A poll leaves alone what each completion leaves alone. -/
theorem poll_keeps (c : Controller ρ) :
    c.poll.2.disposed = c.disposed ∧ c.poll.2.state.connected = c.state.connected := by
  refine poll_induction
    (P := fun k => k.disposed = c.disposed ∧ k.state.connected = c.state.connected)
    (fun _ _ h => h) ?_ ⟨rfl, rfl⟩
  rintro x k ⟨hdisposed, hconnected⟩
  obtain ⟨hsame, hstill, _⟩ := k.computed_keeps x
  exact ⟨hsame.trans hdisposed, hstill.trans hconnected⟩

end Controller

/-! ## What the moves ask for -/

/-- What the moves of a session alone say about it. -/
structure Outline where
  /-- the connectivity that was reported last -/
  connected : Bool
  focus : Option Document
  /-- the controller was disposed of or given up -/
  ended : Bool

namespace Outline

/-- Before the first move. -/
def start : Outline := ⟨false, none, false⟩

/-- The document whose computation a move asks for: an eligible one that is activated or saved
while connected, or is in focus when a connection comes about.  No other move asks for one. -/
def demand (settings : Settings) (o : Outline) : Move ρ → Option Document
  | .activate d => d.filter fun d => !o.ended && o.connected && settings.eligible d
  | .save d => (some d).filter fun d => !o.ended && o.connected && settings.eligible d
  | .connection connected =>
    o.focus.filter fun d => !o.ended && !o.connected && connected && settings.eligible d
  | _ => none

/-- After a move. -/
def after (o : Outline) : Move ρ → Outline
  | .connection connected => { o with connected }
  | .focus focus => { o with focus }
  | .dispose | .drop => { o with ended := true }
  | _ => o

/-- Only transitions ask for computations. -/
theorem demand_of_not_transition {settings : Settings} {o : Outline} {move : Move ρ}
    (hkind : move.kind ≠ .transition) : o.demand settings move = none := by
  cases move with
  | connection connected => exact absurd rfl hkind
  | activate d => exact absurd rfl hkind
  | save d => exact absurd rfl hkind
  | _ => rfl

/-- Nothing is asked of a controller that is not used any more. -/
theorem demand_of_ended {settings : Settings} {o : Outline} (hended : o.ended = true)
    (move : Move ρ) : o.demand settings move = none := by
  cases move with
  | connection connected => simp [demand, hended]
  | activate d => simp [demand, hended]
  | save d => simp [demand, hended]
  | _ => rfl

/-- The outline of a session from its moves. -/
def ofMoves (moves : List (Move ρ)) : Outline := moves.foldl after start

/-- The documents whose computations moves ask for, in order. -/
def demands (settings : Settings) : Outline → List (Move ρ) → List Document
  | _, [] => []
  | o, move :: moves => (o.demand settings move).toList ++ demands settings (o.after move) moves

theorem demands_append (settings : Settings) (before after : List (Move ρ)) (o : Outline) :
    o.demands settings (before ++ after) =
      o.demands settings before ++ (before.foldl Outline.after o).demands settings after := by
  induction before generalizing o with
  | nil => rfl
  | cons move before ih =>
    rw [List.cons_append, demands, demands, ih, List.append_assoc]
    rfl

/-- A move asks for one computation at most. -/
theorem length_demands_le (settings : Settings) (moves : List (Move ρ)) (o : Outline) :
    (o.demands settings moves).length ≤ moves.length := by
  induction moves generalizing o with
  | nil => exact Nat.le_refl 0
  | cons move moves ih =>
    have hone : (o.demand settings move).toList.length ≤ 1 := by
      cases o.demand settings move <;> simp
    have hrest := ih (o.after move)
    rw [demands, List.length_append, List.length_cons]
    omega

end Outline

namespace Session

open Outline

variable {s s' : Session ρ} {move : Move ρ} {answer : Answer} {o : Outline}

/-! ## Outlines fit -/

/-- An outline says of a session what it can say: nothing of the connectivity once the controller is
not used any more. -/
structure Fits (o : Outline) (s : Session ρ) : Prop where
  ended : o.ended = (s.controller.disposed || s.dropped)
  focus : o.focus = s.focus
  connected : o.ended = false → o.connected = s.controller.state.connected

theorem Fits.congr (h : Fits o s) (hdropped : s'.dropped = s.dropped)
    (hdisposed : s'.controller.disposed = s.controller.disposed) (hfocus : s'.focus = s.focus)
    (hconnected : s'.controller.state.connected = s.controller.state.connected) : Fits o s' where
  ended := by rw [h.ended, hdropped, hdisposed]
  focus := h.focus.trans hfocus.symm
  connected := fun hended => (h.connected hended).trans hconnected.symm

/-- Operations that leave the connectivity alone. -/
theorem Fits.operate {f : Controller ρ → Answer × Controller ρ} (h : Fits o s)
    (hplay : s.operate f = some (answer, s'))
    (hdisposed : (f s.controller).2.disposed = s.controller.disposed)
    (hconnected : (f s.controller).2.state.connected = s.controller.state.connected) :
    Fits o s' := by
  obtain ⟨_, _, rfl⟩ := operate_eq_some hplay
  exact h.congr rfl hdisposed rfl hconnected

theorem Fits.play (h : Fits o s) (hplay : s.play settings m move = some (answer, s')) :
    Fits (o.after move) s' := by
  unfold Session.play at hplay
  cases move with
  | connection connected =>
    obtain ⟨_, _, rfl⟩ := operate_eq_some hplay
    refine ⟨?_, h.focus, ?_⟩
    · rw [(s.controller.renders_connection settings connected s.focus).disposed_eq]
      exact h.ended
    · intro hended
      have hused : s.controller.disposed = false := by
        have hboth := h.ended.symm.trans hended
        rw [Bool.or_eq_false_iff] at hboth
        exact hboth.1
      exact (Controller.connected_connection hused connected s.focus).symm
  | activate d =>
    exact h.operate hplay (s.controller.renders_activated settings d).disposed_eq
      (Controller.connected_activated d s.controller)
  | save d =>
    exact h.operate hplay (s.controller.renders_activated settings (some d)).disposed_eq
      (Controller.connected_activated (some d) s.controller)
  | toggle =>
    exact h.operate hplay s.controller.renders_toggle.disposed_eq
      (Controller.connected_toggle s.controller)
  | focus d =>
    cases hplay
    exact ⟨h.ended, rfl, h.connected⟩
  | cancelPending =>
    refine h.operate hplay ?_ ?_
    · cases s.controller.state.pending <;> rfl
    · cases s.controller.state.pending <;> rfl
  | poll => exact h.operate hplay s.controller.poll_keeps.1 s.controller.poll_keeps.2
  | settle =>
    exact h.operate hplay (s.controller.run m).poll_keeps.1 (s.controller.run m).poll_keeps.2
  | receive =>
    have hmove : s.play settings m .receive = some (answer, s') := hplay
    have halike := alike_of_quiet rfl hmove
    simp only at hplay
    split at hplay
    · cases hplay
    · have hreceive : s.receive.2 = s' := congrArg Prod.snd (Option.some.inj hplay)
      have hfocus : s'.focus = s.focus := by
        rw [← hreceive]
        unfold receive
        split <;> rfl
      exact h.congr halike.dropped halike.disposed hfocus (by rw [halike.state])
  | apply slot =>
    simp only at hplay
    split at hplay
    · cases hplay
    · rename_i x _
      obtain ⟨hdisposed, hconnected, _⟩ := s.controller.computed_keeps x
      obtain ⟨_, _, rfl⟩ := operate_eq_some hplay
      exact h.congr rfl hdisposed rfl hconnected
  | openHeld slot =>
    simp only at hplay
    split at hplay
    · cases hplay
    · cases hplay
      exact h.congr rfl rfl rfl rfl
  | dispose =>
    obtain ⟨_, _, rfl⟩ := operate_eq_some hplay
    refine ⟨?_, h.focus, nofun⟩
    rw [Controller.disposed_dispose]
    rfl
  | drop =>
    have hended : ∀ (c : Controller ρ) (d : Option Document) (held : Slots), d = s.focus →
        Fits (o.after (.drop : Move ρ)) ⟨c, true, d, held⟩ := by
      intro c d held hd
      exact ⟨by simp [Outline.after], by rw [hd]; exact h.focus, nofun⟩
    simp only at hplay
    split at hplay
    · rename_i hdropped
      cases hplay
      have hs := hended s.controller s.focus s.held rfl
      rw [← hdropped] at hs
      exact hs
    · cases hplay
      exact hended _ _ _ rfl
  | _ =>
    cases hplay
    exact h.congr rfl rfl rfl rfl

/-- A move that cannot be played asks for nothing, and says nothing new. -/
theorem Fits.stay (h : Fits o s) (hplay : s.play settings m move = none) :
    Fits (o.after move) s ∧ o.demand settings move = none := by
  -- only operations of a controller that was given up say more than the session can do
  have hoperate : ∀ f : Controller ρ → Answer × Controller ρ, s.operate f = none →
      o.ended = true := by
    intro f hf
    unfold Session.operate at hf
    by_cases hdropped : s.dropped = true
    · rw [h.ended, hdropped, Bool.or_true]
    · rw [if_neg hdropped] at hf
      cases hf
  unfold Session.play at hplay
  cases move with
  | connection connected =>
    have hended := hoperate _ hplay
    refine ⟨⟨h.ended, h.focus, fun hused => ?_⟩, by simp [demand, hended]⟩
    cases hended.symm.trans hused
  | activate d => exact ⟨h, by simp [demand, hoperate _ hplay]⟩
  | save d => exact ⟨h, by simp [demand, hoperate _ hplay]⟩
  | dispose =>
    have hended := hoperate _ hplay
    exact ⟨⟨hended.symm.trans h.ended, h.focus, nofun⟩, rfl⟩
  | drop =>
    by_cases hdropped : s.dropped = true
    · simp [hdropped] at hplay
    · simp [hdropped] at hplay
  | focus d => cases hplay
  | _ => exact ⟨h, rfl⟩

theorem fits_playAll (settings : Settings) (m : Meaning ρ) (showUncovered : Bool)
    (moves : List (Move ρ)) :
    Fits (ofMoves moves) ((create showUncovered).playAll settings m moves) := by
  induction moves using List.reverseRecOn with
  | nil => exact ⟨rfl, rfl, fun _ => rfl⟩
  | append_singleton moves move ih =>
    rw [playAll_append, ofMoves, List.foldl_concat]
    show Fits _ (after settings m move _)
    generalize (create showUncovered).playAll settings m moves = s at ih
    cases hplay : s.play settings m move with
    | none =>
      rw [after_of_none hplay]
      exact (ih.stay hplay).1
    | some result =>
      rw [after_of_play hplay]
      exact ih.play hplay

/-! ## Requests that are issued -/

/-- A move issues a request exactly if it asks for one, and of the document that it asks for. -/
theorem issues_play (h : Fits o s) (hplay : s.play settings m move = some (answer, s')) :
    Controller.Issues (o.demand settings move) s.controller s'.controller := by
  cases hkind : move.kind with
  | quiet =>
    rw [demand_of_not_transition (by simp [hkind])]
    exact Controller.issues_none (alike_of_quiet hkind hplay).issued
  | handover =>
    rw [demand_of_not_transition (by simp [hkind])]
    refine Controller.issues_none (handover_induction
      (P := fun c => c.issued = s.controller.issued) (fun _ _ hc => hc) ?_ hkind hplay fun _ => rfl)
    intro x c hc
    rcases c.fresh_or_stale x with ⟨hdisposed, hfresh⟩ | hstale
    · rw [c.computed_of_fresh hdisposed hfresh]
      exact hc
    · rw [c.computed_of_stale hstale]
      exact hc
  | ending =>
    rw [demand_of_not_transition (by simp [hkind])]
    refine Controller.issues_none ?_
    unfold play at hplay
    cases move with
    | dispose =>
      obtain ⟨_, _, rfl⟩ := operate_eq_some hplay
      simp only [Controller.dispose, Controller.cancelPending_eq]
      split <;> rfl
    | drop =>
      simp only at hplay
      split at hplay
      · cases hplay
        rfl
      · cases hplay
        simp only [Controller.drop, Controller.cancelPending_eq]
    | _ => cases hkind
  | transition =>
    obtain ⟨hdropped, _, hrenders⟩ := renders_of_transition hkind hplay
    have hended : o.ended = s.controller.disposed := by rw [h.ended, hdropped, Bool.or_false]
    cases hdisposed : s.controller.disposed with
    | true =>
      rw [demand_of_ended (hended.trans hdisposed)]
      refine Controller.issues_none ?_
      generalize s'.controller = c at hrenders
      cases hrenders with
      | disposed _ => rfl
      | once changed hused _ _ _ => exact absurd hdisposed (by simp [hused])
    | false =>
      have hused : o.ended = false := hended.trans hdisposed
      have hconnected := h.connected hused
      unfold play at hplay
      cases move with
      | connection connected =>
        obtain ⟨_, _, rfl⟩ := operate_eq_some hplay
        rw [demand, hused, hconnected, h.focus]
        exact Controller.issues_connection hdisposed connected s.focus
      | activate d =>
        obtain ⟨_, _, rfl⟩ := operate_eq_some hplay
        rw [demand, hused, hconnected]
        exact Controller.issues_activated hdisposed d
      | save d =>
        obtain ⟨_, _, rfl⟩ := operate_eq_some hplay
        rw [demand, hused, hconnected]
        exact Controller.issues_activated hdisposed (some d)
      | toggle =>
        obtain ⟨_, _, rfl⟩ := operate_eq_some hplay
        refine Controller.issues_none ?_
        unfold Controller.toggle
        split <;> rfl
      | _ => cases hkind

/-- The requests after one more move: one more, under the next number, if the move asks for it. -/
theorem requests_concat (settings : Settings) (m : Meaning ρ) (showUncovered : Bool)
    (moves : List (Move ρ)) (move : Move ρ) :
    let s := (create showUncovered).playAll settings m moves
    (s.after settings m move).controller.pool.requests = s.controller.pool.requests ++
      ((ofMoves moves).demand settings move).toList.map fun d => s.controller.upcoming d := by
  intro s
  have hfits : Fits (ofMoves moves) s := fits_playAll settings m showUncovered moves
  cases hplay : s.play settings m move with
  | none =>
    rw [after_of_none hplay, (hfits.stay hplay).2]
    simp
  | some result =>
    have hlater : s.after settings m move =
        (create showUncovered).playAll settings m (moves ++ [move]) :=
      (playAll_concat settings m moves move _).symm
    have hissues := issues_play hfits hplay
    have hafter : s.after settings m move = result.2 := after_of_play hplay
    rw [← hafter] at hissues
    refine hissues.requests ?_ (consistent_playAll settings m showUncovered moves) ?_ ?_
    · exact grows_playAll (sound_playAll settings m showUncovered moves) [move]
    · rw [hlater]
      exact consistent_playAll settings m showUncovered _
    · rw [hlater]
      exact (sound_playAll settings m showUncovered _).exclusive.known

theorem demands_concat (settings : Settings) (moves : List (Move ρ)) (move : Move ρ) :
    start.demands settings (moves ++ [move]) =
      start.demands settings moves ++ ((ofMoves moves).demand settings move).toList := by
  rw [demands_append, demands, demands, List.append_nil]
  rfl

/-- The requests that were issued are those that the moves ask for, numbered one after another. -/
theorem requests_playAll (settings : Settings) (m : Meaning ρ) (showUncovered : Bool)
    (moves : List (Move ρ)) :
    ((create showUncovered).playAll settings m moves).controller.pool.requests =
      (start.demands settings moves).mapIdx fun t d => ⟨t, ⟨t + 1⟩, d⟩ := by
  induction moves using List.reverseRecOn with
  | nil => rfl
  | append_singleton moves move ih =>
    have hissued := (consistent_playAll settings m showUncovered moves).issued
    rw [playAll_concat, requests_concat, ih, demands_concat, List.mapIdx_append]
    congr 1
    rw [← Pool.length_requests, ih, List.length_mapIdx] at hissued
    cases (ofMoves moves).demand settings move with
    | none => rfl
    | some d => simp [Controller.upcoming, hissued]

/-- No number is larger than the number of moves.  So as long as there were fewer than `2 ^ 64`
moves, a counter of 64 bits holds all numbers. -/
theorem number_le_length (settings : Settings) (m : Meaning ρ) (showUncovered : Bool)
    (moves : List (Move ρ)) {r : Request}
    (hr : r ∈ ((create showUncovered).playAll settings m moves).controller.pool.requests) :
    r.id.number ≤ moves.length := by
  rw [requests_playAll, List.mem_mapIdx] at hr
  obtain ⟨t, ht, rfl⟩ := hr
  exact Nat.le_trans ht (length_demands_le settings moves start)

end Session

/-! ## Calls -/

namespace Holding

variable {a b : Holding ρ}

theorem Sound.asked_step (hsound : Sound a) (h : a.controller.pool.Asked)
    (hstep : Step settings m a b) : b.controller.pool.Asked := by
  rcases pool_step hstep with ⟨t, hpool⟩ | ⟨uri, reply, hpool⟩ | ⟨t, reply, hpool⟩ | hstill
  · rw [hpool]
    exact h.progress m t
  · rw [hpool]
    exact h.advance (Pool.advances_resolve uri reply _) (Pool.calls_resolve uri reply _)
  · rw [hpool]
    exact h.advance (Pool.advances_answer t reply _) (Pool.calls_answer t reply _)
  · exact h.advance (hstill.advances (hsound.grows_step hstep)) hstill.calls

theorem asked_disturb (h : a.controller.pool.Asked) (hdisturbance : Disturbance a b) :
    b.controller.pool.Asked :=
  have hstill := still_disturb hdisturbance
  h.advance (hstill.advances (grows_disturb hdisturbance)) hstill.calls

end Holding

namespace Session

open Outline

theorem asked_playAll (settings : Settings) (m : Meaning ρ) (showUncovered : Bool)
    (moves : List (Move ρ)) :
    ((create showUncovered).playAll settings m moves).controller.pool.Asked :=
  (playAll_keeps_of_sound (s := create showUncovered) (P := fun a => a.controller.pool.Asked) moves
    (Holding.sound_create showUncovered) (fun _ _ hsound hstep h => hsound.asked_step h hstep)
    (fun _ _ hdisturbance h => Holding.asked_disturb h hdisturbance) .empty).2

/-- Exact accounting of computations.  The requests that were issued are numbered one after another
from one, and are, in order, those that the moves ask for: one for each activation or save of an
eligible document while connected, one for each change from disconnected to connected with an
eligible document in focus, until the controller is disposed of or given up.  Every single move adds
the request that it asks for, and no other.  The backend is called for requests that were issued, at
most once for each. -/
theorem exact_accounting (settings : Settings) (m : Meaning ρ) (showUncovered : Bool)
    (moves : List (Move ρ)) :
    let s := (create showUncovered).playAll settings m moves
    let p := s.controller.pool
    s.controller.issued = (start.demands settings moves).length ∧
    p.requests = ((start.demands settings moves).mapIdx fun t d => ⟨t, ⟨t + 1⟩, d⟩) ∧
    (∀ move,
      (s.after settings m move).controller.pool.requests = p.requests ++
        ((ofMoves moves).demand settings move).toList.map fun d =>
          ⟨s.controller.issued, ⟨s.controller.issued + 1⟩, d⟩) ∧
    (∀ r ∈ p.calls, r ∈ p.requests) ∧ (p.calls.map Request.ticket).Nodup := by
  intro s p
  have hrequests : p.requests = _ := requests_playAll settings m showUncovered moves
  have hasked : p.Asked := asked_playAll settings m showUncovered moves
  refine ⟨?_, hrequests, requests_concat settings m showUncovered moves, ?_, hasked.distinct⟩
  · have hissued := (consistent_playAll settings m showUncovered moves).issued
    rw [hissued, ← Pool.length_requests, hrequests, List.length_mapIdx]
  · intro r hr
    obtain ⟨a, ha, _, hrequest⟩ := hasked.caller r hr
    rw [hrequest]
    exact Pool.mem_requests_of_task ha

/-- A reconnect, an activation and a save ask for a computation each; a repeated report of the
connection, a toggle, an activation of no document and whatever comes after the disposal do not. -/
example :
    let d : Document := ⟨⟨"file:///a.js", rfl⟩, "javascript", none⟩
    let moves : List (Move Outcome) := [.focus (some d), .connection true, .connection true,
      .toggle, .save d, .activate none, .activate (some d), .dispose, .activate (some d)]
    start.demands ⟨fun _ => true, .clear⟩ moves = [d, d, d] := by
  decide

end Session

end CoverageTracker
