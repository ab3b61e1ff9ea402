import CoverageTracker.Desk
import CoverageTracker.Proofs.Pool.Calls
import CoverageTracker.Proofs.Pool.Schedule
import Mathlib.Data.List.Basic
set_option autoImplicit false

/-!
# Errands at a desk

Everything that can happen to requests without a controller, in any order: they are started,
cancelled and their handles dropped, tasks take turns, replies come, completions are received and
opened, and the channel is closed.  To the pool an errand is one of six changes (`Change`).  A name
stands for at most one request at a time, and once no name stands for a request, nobody cancels it
any more (`Nameless.isCancelled_performAll`).
-/

namespace CoverageTracker

/-- What can happen at a desk. -/
inductive Errand (ρ : Type) where
  /-- a request is started under a name -/
  | start (name : String) (id : RequestId) (document : Document)
  /-- the request of a name is cancelled -/
  | cancel (name : String)
  /-- the handle of a name is dropped -/
  | drop (name : String)
  /-- the backend replies -/
  | resolve (uri : String) (reply : Cued ρ)
  /-- the backend replies to one task, whatever the place of its call -/
  | answer (t : Ticket) (reply : Cued ρ)
  /-- one task takes its turn -/
  | progress (t : Ticket)
  /-- the oldest completion is received and held -/
  | receive
  /-- a held completion is opened -/
  | openHeld (slot : Nat)
  /-- nobody receives completions any more -/
  | close

namespace Desk

variable {ρ : Type} {m : Meaning ρ} {d : Desk ρ} {errand : Errand ρ} {p : Pool (Cued ρ)}

/-- Does an errand; one that names nobody, or an empty slot, changes nothing. -/
def perform (m : Meaning ρ) (errand : Errand ρ) (d : Desk ρ) : Desk ρ :=
  match errand with
  | .start name id document => (d.start name id document).2
  | .cancel name => ((d.cancel name).map Prod.snd).getD d
  | .drop name => (d.drop name).2
  | .resolve uri reply => (d.resolve uri reply).2
  | .answer t reply => { d with pool := (d.pool.answer t reply).2 }
  | .progress t => { d with pool := d.pool.progress (d.meaning m) t }
  | .receive => d.receive.2
  | .openHeld slot => ((d.openHeld slot).map Prod.snd).getD d
  | .close => d.close

/-- Does errands one after another. -/
def performAll (m : Meaning ρ) (errands : List (Errand ρ)) (d : Desk ρ) : Desk ρ :=
  errands.foldl (fun d errand => d.perform m errand) d

theorem performAll_append (m : Meaning ρ) (before after : List (Errand ρ)) (d : Desk ρ) :
    d.performAll m (before ++ after) = (d.performAll m before).performAll m after :=
  List.foldl_append

theorem performAll_concat (m : Meaning ρ) (errands : List (Errand ρ)) (errand : Errand ρ)
    (d : Desk ρ) :
    d.performAll m (errands ++ [errand]) = (d.performAll m errands).perform m errand :=
  performAll_append m errands [errand] d

/-- Whatever every errand keeps, all errands keep. -/
theorem performAll_induction {P : Desk ρ → Prop} {errands : List (Errand ρ)}
    (hperform : ∀ errand ∈ errands, ∀ d, P d → P (d.perform m errand)) (h : P d) :
    P (d.performAll m errands) := by
  induction errands generalizing d with
  | nil => exact h
  | cons errand errands ih =>
    exact ih (fun other hother => hperform other (List.mem_cons_of_mem errand hother))
      (hperform errand List.mem_cons_self d h)

/-- When all tasks go on as far as they can, they take turns. -/
theorem run_eq_performAll (m : Meaning ρ) (d : Desk ρ) :
    ∃ tickets : List Ticket, d.run m = d.performAll m (tickets.map .progress) := by
  refine Pool.run_induction (m := d.meaning m) (P := fun p => ∃ tickets : List Ticket,
    { d with pool := p } = d.performAll m (tickets.map .progress))
    (fun t p ⟨tickets, hp⟩ => ?_) ⟨[], rfl⟩
  refine ⟨tickets ++ [t], ?_⟩
  rw [List.map_append, List.map_singleton, performAll_concat, ← hp]
  rfl

/-! ## What errands do to the pool -/

/-- What an errand does to the pool. -/
inductive Change (m : Meaning ρ) (d : Desk ρ) : Errand ρ → Pool (Cued ρ) → Prop
  | start (name : String) (id : RequestId) (document : Document) :
      Change m d (.start name id document) (d.pool.start id document).2
  | cancel (name : String) (r : Request) : d.named? name = some r →
      Change m d (.cancel name) (d.pool.cancel r.ticket)
  | resolve (uri : String) (reply : Cued ρ) :
      Change m d (.resolve uri reply) (d.pool.resolve uri reply).2
  | answer (t : Ticket) (reply : Cued ρ) : Change m d (.answer t reply) (d.pool.answer t reply).2
  | progress (t : Ticket) : Change m d (.progress t) (d.pool.progress (d.meaning m) t)
  /-- completions leave the queue, or nothing changes -/
  | requeue (errand : Errand ρ) (completions : List Completion) (isOpen : Bool) :
      completions <:+ d.pool.completions → Change m d errand { d.pool with completions, isOpen }

theorem change_perform (m : Meaning ρ) (errand : Errand ρ) (d : Desk ρ) :
    Change m d errand (d.perform m errand).pool := by
  have hsame : ∀ errand, Change m d errand d.pool :=
    fun errand => .requeue errand d.pool.completions d.pool.isOpen (List.suffix_refl _)
  cases errand with
  | start name id document => exact .start name id document
  | cancel name =>
    simp only [perform, Desk.cancel]
    cases hname : d.named? name with
    | none => exact hsame _
    | some r => exact .cancel name r hname
  | drop name => exact hsame _
  | resolve uri reply => exact .resolve uri reply
  | answer t reply => exact .answer t reply
  | progress t => exact .progress t
  | receive =>
    simp only [perform, Desk.receive, Pool.receive]
    cases hqueue : d.pool.completions with
    | nil => exact hsame _
    | cons x rest =>
      exact .requeue _ rest d.pool.isOpen (by rw [hqueue]; exact List.suffix_cons x rest)
  | openHeld slot =>
    simp only [perform, Desk.openHeld]
    cases d.held.get? slot with
    | none => exact hsame _
    | some x => exact hsame _
  | close => exact .requeue _ [] false (List.nil_suffix)

theorem names_perform (m : Meaning ρ) (errand : Errand ρ) (d : Desk ρ) :
    (d.perform m errand).names = match errand with
      | .start name id document =>
        (name, (d.start name id document).1) :: d.names.filter fun e => e.1 != name
      | .drop name => d.names.filter fun e => e.1 != name
      | _ => d.names := by
  cases errand with
  | cancel name =>
    simp only [perform, Desk.cancel]
    cases d.named? name <;> rfl
  | receive =>
    simp only [perform, Desk.receive, Pool.receive]
    cases d.pool.completions <;> rfl
  | openHeld slot =>
    simp only [perform, Desk.openHeld]
    cases d.held.get? slot <;> rfl
  | _ => rfl

/-! ## Order at a desk -/

/-- The line of the backend shows the waiting tasks, only tasks called it, and each name stands for
a task of its own. -/
structure Orderly (d : Desk ρ) : Prop where
  lined : d.pool.Lined
  called : ∀ r ∈ d.pool.calls, ∃ a, d.pool.tasks[r.ticket]? = some a
  named : ∀ e ∈ d.names, ∃ a, d.pool.tasks[e.2.ticket]? = some a
  distinct : (d.names.map fun e => e.2.ticket).Nodup

theorem orderly_empty : (empty : Desk ρ).Orderly where
  lined := Pool.Lined.empty
  called := by
    intro r hr
    cases hr
  named := by
    intro e he
    cases he
  distinct := List.nodup_nil

theorem Change.lined (h : Change m d errand p) (hline : d.pool.Lined) : p.Lined := by
  cases h with
  | start name id document => exact hline.start id document
  | cancel name r _ => exact hline.cancel r.ticket
  | resolve uri reply => exact (hline.resolve uri reply).1
  | answer t reply => exact hline.answer t reply
  | progress t => exact hline.progress t
  | requeue _ completions isOpen _ => exact hline.congr rfl fun _ _ => Iff.rfl

theorem Change.grows (h : Change m d errand p) (hline : d.pool.Lined) : Pool.Grows d.pool p := by
  cases h with
  | start name id document => exact Pool.grows_start id document d.pool
  | cancel name r _ => exact Pool.grows_cancel r.ticket d.pool
  | resolve uri reply => exact (Pool.evolves_resolve (m := d.meaning m) hline uri reply).grows
  | answer t reply => exact (Pool.evolves_answer (m := d.meaning m) t reply d.pool).grows
  | progress t => exact (Pool.evolves_progress t d.pool).grows
  | requeue _ completions isOpen _ => exact Pool.grows_of_tasks_eq rfl

theorem Change.called (h : Change m d errand p) {r : Request} (hr : r ∈ p.calls) :
    r ∈ d.pool.calls ∨ ∃ a, d.pool.tasks[r.ticket]? = some a := by
  cases h with
  | start name id document => exact Or.inl hr
  | cancel name r _ => exact Or.inl hr
  | resolve uri reply => exact Or.inl (by simpa using hr)
  | answer t reply => exact Or.inl (by simpa using hr)
  | progress t =>
    rcases Pool.mem_calls_progress hr with hr | ⟨task, htask, _, rfl⟩
    · exact Or.inl hr
    · exact Or.inr ⟨task, htask⟩
  | requeue _ completions isOpen _ => exact Or.inl hr

theorem Orderly.perform (h : d.Orderly) (m : Meaning ρ) (errand : Errand ρ) :
    (d.perform m errand).Orderly := by
  have hchange := change_perform m errand d
  have hgrows := hchange.grows h.lined
  have hthere : ∀ t : Ticket, (∃ a, d.pool.tasks[t]? = some a) →
      ∃ b, (d.perform m errand).pool.tasks[t]? = some b := by
    rintro t ⟨a, ha⟩
    obtain ⟨b, hb, _⟩ := hgrows t a ha
    exact ⟨b, hb⟩
  have hstays : ∀ e ∈ d.names, ∃ b, (d.perform m errand).pool.tasks[e.2.ticket]? = some b :=
    fun e he => hthere _ (h.named e he)
  have hfewer : ∀ name : String,
      ((d.names.filter fun e => e.1 != name).map fun e => e.2.ticket).Nodup :=
    fun name => h.distinct.sublist (List.filter_sublist.map _)
  have hnames := names_perform m errand d
  refine ⟨hchange.lined h.lined, ?_, ?_, ?_⟩
  · intro r hr
    rcases hchange.called hr with hr | htask
    · exact hthere _ (h.called r hr)
    · exact hthere _ htask
  · intro e he
    rw [hnames] at he
    cases errand with
    | start name id document =>
      rcases List.mem_cons.mp he with rfl | he
      · exact ⟨_, Pool.getElem?_start.mpr (Or.inr ⟨rfl, rfl⟩)⟩
      · exact hstays e (List.mem_of_mem_filter he)
    | drop name => exact hstays e (List.mem_of_mem_filter he)
    | _ => exact hstays e he
  · rw [hnames]
    cases errand with
    | start name id document =>
      rw [List.map_cons, List.nodup_cons]
      refine ⟨?_, hfewer name⟩
      intro hmem
      obtain ⟨e, he, hticket⟩ := List.mem_map.mp hmem
      obtain ⟨a, ha⟩ := h.named e (List.mem_of_mem_filter he)
      have hlt := (List.getElem?_eq_some_iff.mp ha).1
      rw [hticket] at hlt
      exact Nat.lt_irrefl _ hlt
    | drop name => exact hfewer name
    | _ => exact h.distinct

theorem Orderly.performAll (h : d.Orderly) (m : Meaning ρ) (errands : List (Errand ρ)) :
    (d.performAll m errands).Orderly :=
  performAll_induction (fun errand _ _ h => h.perform m errand) h

theorem Orderly.grows (h : d.Orderly) (m : Meaning ρ) (errands : List (Errand ρ)) :
    Pool.Grows d.pool (d.performAll m errands).pool :=
  (performAll_induction (P := fun k : Desk ρ => k.Orderly ∧ Pool.Grows d.pool k.pool)
    (fun errand _ k hk => ⟨hk.1.perform m errand,
      hk.2.trans ((change_perform m errand k).grows hk.1.lined)⟩)
    ⟨h, Pool.grows_of_tasks_eq rfl⟩).2

/-! ## Requests without a name -/

/-- No name stands for the request of a ticket. -/
def Nameless (t : Ticket) (d : Desk ρ) : Prop := ∀ e ∈ d.names, e.2.ticket ≠ t

theorem mem_names_of_named {name : String} {r : Request} (h : d.named? name = some r) :
    (name, r) ∈ d.names := by
  unfold named? at h
  obtain ⟨e, he, rfl⟩ := Option.map_eq_some_iff.mp h
  have hname : e.1 = name := by simpa using List.find?_some he
  rw [← hname]
  exact List.mem_of_find?_eq_some he

/-- A dropped handle was the only one. -/
theorem nameless_drop {name : String} {r : Request} (h : d.Orderly)
    (hname : d.named? name = some r) : (d.drop name).2.Nameless r.ticket := by
  intro e he hticket
  obtain ⟨he, hother⟩ := List.mem_filter.mp he
  have hsame : e = (name, r) :=
    List.inj_on_of_nodup_map h.distinct he (mem_names_of_named hname) hticket
  rw [hsame] at hother
  simp at hother

/-- Nobody cancels a request without a name, and no name will stand for it. -/
theorem Nameless.perform {t : Ticket} {a : Task (Cued ρ)} (h : d.Nameless t)
    (ha : d.pool.tasks[t]? = some a) (m : Meaning ρ) (errand : Errand ρ) :
    (d.perform m errand).Nameless t ∧
      (d.perform m errand).pool.isCancelled t = d.pool.isCancelled t := by
  refine ⟨?_, ?_⟩
  · intro e he
    rw [names_perform] at he
    cases errand with
    | start name id document =>
      rcases List.mem_cons.mp he with rfl | he
      · exact Nat.ne_of_gt (List.getElem?_eq_some_iff.mp ha).1
      · exact h e (List.mem_of_mem_filter he)
    | drop name => exact h e (List.mem_of_mem_filter he)
    | _ => exact h e he
  · have hchange := change_perform m errand d
    generalize (d.perform m errand).pool = p at hchange
    cases hchange with
    | start name id document => exact Pool.isCancelled_start ha id document
    | cancel name r hname =>
      exact Pool.isCancelled_cancel_of_ne (h _ (mem_names_of_named hname)) d.pool
    | resolve uri reply => exact Pool.isCancelled_resolve uri reply t d.pool
    | answer u reply => exact Pool.isCancelled_answer u reply t d.pool
    | progress u =>
      refine Pool.isCancelled_progress ?_ u d.pool
      intro reply hreply
      obtain ⟨r, hr, hticket⟩ := Option.map_eq_some_iff.mp hreply
      obtain ⟨name, _, hname⟩ := Option.bind_eq_some_iff.mp hr
      exact h _ (mem_names_of_named hname) hticket
    | requeue _ completions isOpen _ => rfl

/-- Once no name stands for a request, it stays as it is, cancelled or not. -/
theorem Nameless.isCancelled_performAll {t : Ticket} {a : Task (Cued ρ)} (h : d.Nameless t)
    (hd : d.Orderly) (ha : d.pool.tasks[t]? = some a) (m : Meaning ρ)
    (errands : List (Errand ρ)) :
    (d.performAll m errands).pool.isCancelled t = d.pool.isCancelled t := by
  refine (performAll_induction (P := fun k : Desk ρ => k.Orderly ∧ k.Nameless t ∧
    (∃ b, k.pool.tasks[t]? = some b) ∧ k.pool.isCancelled t = d.pool.isCancelled t)
    ?_ ⟨hd, h, ⟨a, ha⟩, rfl⟩).2.2.2
  rintro errand _ k ⟨hk, hnameless, ⟨b, hb⟩, hsame⟩
  obtain ⟨hnext, hcancelled⟩ := hnameless.perform hb m errand
  obtain ⟨c, hc, _⟩ := (change_perform m errand k).grows hk.lined t b hb
  exact ⟨hk.perform m errand, hnext, ⟨c, hc⟩, hcancelled.trans hsame⟩

end Desk

end CoverageTracker
