import CoverageTracker.Proofs.Pool.Returns
set_option autoImplicit false

/-!
# Pools over other replies

A pool never looks into a reply except to ask what it comes to.  So replies may be replaced by other
ones (`recast`): if these come to the same coverage and cancel the same requests
(`Meaning.Recasts`), every operation of the pool is one of the recast pool, and only who is warned
may differ, for the warnings of a recast pool are those that its own replies give rise to.
-/

namespace CoverageTracker

variable {ρ σ : Type}

/-- Replies may be replaced: they come to the same coverage and cancel the same requests. -/
structure Meaning.Recasts (f : ρ → σ) (m : Meaning ρ) (m' : Meaning σ) : Prop where
  coverage : ∀ reply, Outcome.coverage (m'.outcome (f reply)) = Outcome.coverage (m.outcome reply)
  cancels : ∀ reply, m'.cancels (f reply) = m.cancels reply

/-- Replies that each may cancel a request at the moment they are taken. -/
def Meaning.cueing (m : Meaning ρ) : Meaning (ρ × Option Ticket) :=
  ⟨fun r => m.outcome r.1, Prod.snd⟩

theorem Meaning.Recasts.cueing {f : ρ → σ} {m : Meaning ρ} {m' : Meaning σ} (h : m.Recasts f m') :
    m.cueing.Recasts (Prod.map f id) m'.cueing :=
  ⟨fun r => h.coverage r.1, fun _ => rfl⟩

theorem Meaning.recasts_id (m : Meaning ρ) : m.Recasts id m := ⟨fun _ => rfl, fun _ => rfl⟩

/-- A phase with another reply. -/
def Phase.map (f : ρ → σ) : Phase ρ → Phase σ
  | .queued => .queued
  | .waiting => .waiting
  | .answered reply => .answered (f reply)
  | .done => .done

/-- A task with another reply. -/
def Task.map (f : ρ → σ) (task : Task ρ) : Task σ :=
  ⟨task.id, task.document, task.cancelled, task.phase.map f⟩

/-- The same arrival of another reply. -/
def Arrival.map (f : ρ → σ) (a : Arrival ρ) : Arrival σ := ⟨a.request, f a.reply, a.cancelled⟩

theorem Pool.isUnfinished_map (f : ρ → σ) (task : Task ρ) :
    isUnfinished (task.map f) = isUnfinished task := by
  unfold isUnfinished Task.map
  cases task.phase <;> rfl

/-! ## Backends -/

namespace Backend

/-- A backend with other replies. -/
def map (f : ρ → σ) (b : Backend ρ) : Backend σ := ⟨b.ready.map (Prod.map id f), b.waiting⟩

theorem takeReady_map (f : ρ → σ) (uri : String) (line : List (String × ρ)) :
    takeReady uri (line.map (Prod.map id f)) =
      Prod.map (Option.map f) (List.map (Prod.map id f)) (takeReady uri line) := by
  induction line with
  | nil => rfl
  | cons first line ih =>
    obtain ⟨u, reply⟩ := first
    simp only [List.map_cons, Prod.map_apply, id_eq, takeReady, ih]
    by_cases huri : u = uri
    · rw [if_pos huri, if_pos huri]
      rfl
    · rw [if_neg huri, if_neg huri]
      rfl

theorem call_map (f : ρ → σ) (uri : String) (t : Ticket) (b : Backend ρ) :
    (b.map f).call uri t = Prod.map (Option.map f) (map f) (b.call uri t) := by
  simp only [call, map, takeReady_map]
  rcases takeReady uri b.ready with ⟨found, rest⟩
  cases found <;> rfl

theorem settle_map (f : ρ → σ) (uri : String) (reply : ρ) (b : Backend ρ) :
    (b.map f).settle uri (f reply) = Prod.map id (map f) (b.settle uri reply) := by
  simp only [settle, map]
  rcases takeAwaited uri b.waiting with ⟨found, rest⟩
  cases found with
  | some t => rfl
  | none => simp [map]

end Backend

/-! ## Pools -/

namespace Pool

/-- A pool with other replies.  Whom it warned is told by the replies that were taken. -/
def recast (f : ρ → σ) (outcome : σ → Outcome) (p : Pool ρ) : Pool σ where
  tasks := p.tasks.map (Task.map f)
  runnable := p.runnable
  backend := p.backend.map f
  completions := p.completions
  isOpen := p.isOpen
  calls := p.calls
  arrivals := p.arrivals.map (Arrival.map f)
  warnings := failures outcome (p.arrivals.map (Arrival.map f))

section Operations

variable (f : ρ → σ) (outcome : σ → Outcome) (p : Pool ρ) (t : Ticket)

@[simp] theorem getElem?_recast :
    (p.recast f outcome).tasks[t]? = p.tasks[t]?.map (Task.map f) :=
  List.getElem?_map

@[simp] theorem isCancelled_recast : (p.recast f outcome).isCancelled t = p.isCancelled t := by
  rw [isCancelled, isCancelled, getElem?_recast, Option.map_map]
  rfl

theorem start_recast (id : RequestId) (d : Document) :
    (p.recast f outcome).start id d =
      ((p.start id d).1, (p.start id d).2.recast f outcome) := by
  simp [start, recast, Task.map, Phase.map]

theorem recast_modify {g : Task ρ → Task ρ} {k : Task σ → Task σ}
    (h : ∀ task, (g task).map f = k (task.map f)) :
    (p.modify t g).recast f outcome = (p.recast f outcome).modify t k := by
  have htasks : (p.tasks.modify t g).map (Task.map f) = (p.tasks.map (Task.map f)).modify t k := by
    refine List.ext_getElem? fun u => ?_
    rw [List.getElem?_map, List.getElem?_modify, List.getElem?_modify, List.getElem?_map]
    cases p.tasks[u]? with
    | none => rfl
    | some task =>
      simp only [Option.map_some, Option.map_eq_map]
      split
      · exact congrArg some (h task)
      · rfl
  simp only [recast, modify, htasks]

theorem recast_finish : (p.finish t).recast f outcome = (p.recast f outcome).finish t :=
  recast_modify f outcome p t fun _ => rfl

theorem recast_cancel : (p.cancel t).recast f outcome = (p.recast f outcome).cancel t := by
  have htasks := recast_modify f outcome p t (g := fun task => { task with cancelled := true })
    (k := fun task => { task with cancelled := true }) fun _ => rfl
  have hunfinished : (p.recast f outcome).tasks[t]?.any isUnfinished =
      p.tasks[t]?.any isUnfinished := by
    rw [getElem?_recast, Option.any_map]
    simp only [isUnfinished_map]
  unfold cancel
  rw [hunfinished, ← htasks]
  rfl

theorem recast_hand (reply : ρ) :
    (p.hand t reply).recast f outcome = (p.recast f outcome).hand t (f reply) := by
  have hmodify := recast_modify f outcome p t
    (g := fun task => { task with phase := .answered reply })
    (k := fun task => { task with phase := .answered (f reply) }) fun _ => rfl
  unfold hand
  rw [← hmodify]
  rfl

theorem resolve_recast (uri : String) (reply : ρ) :
    (p.recast f outcome).resolve uri (f reply) =
      Prod.map id (recast f outcome) (p.resolve uri reply) := by
  have hbackend : (p.recast f outcome).backend.settle uri (f reply) =
      Prod.map id (Backend.map f) (p.backend.settle uri reply) := Backend.settle_map f uri reply _
  unfold resolve
  rw [hbackend]
  rcases p.backend.settle uri reply with ⟨found, backend⟩
  cases found with
  | none => rfl
  | some u => exact congrArg (Prod.mk true) (recast_hand f outcome { p with backend } u reply).symm

theorem answer_recast (reply : ρ) :
    (p.recast f outcome).answer t (f reply) =
      Prod.map id (recast f outcome) (p.answer t reply) := by
  unfold answer
  rw [getElem?_recast]
  cases p.tasks[t]? with
  | none => rfl
  | some task =>
    simp only [Option.map_some, Task.map]
    cases task.phase with
    | waiting =>
      exact congrArg (Prod.mk true)
        (recast_hand f outcome { p with backend := p.backend.withdraw t } t reply).symm
    | queued => rfl
    | answered other => rfl
    | done => rfl

theorem receive_recast :
    (p.recast f outcome).receive = Prod.map id (recast f outcome) p.receive := by
  have hqueue : (p.recast f outcome).completions = p.completions := rfl
  unfold receive
  rw [hqueue]
  cases p.completions <;> rfl

theorem openCompletion_recast (x : Completion) :
    (p.recast f outcome).openCompletion x = p.openCompletion x := by
  rw [openCompletion, openCompletion, isCancelled_recast]

end Operations

/-! ## Turns -/

section Turns

variable {f : ρ → σ} {m : Meaning ρ} {m' : Meaning σ}

theorem recast_heed (h : m.Recasts f m') (reply : ρ) (p : Pool ρ) :
    (p.heed m reply).recast f m'.outcome = (p.recast f m'.outcome).heed m' (f reply) := by
  unfold heed
  rw [h.cancels]
  cases m.cancels reply with
  | none => rfl
  | some t => exact recast_cancel f m'.outcome p t

theorem recast_takeReply (h : m.Recasts f m') (t : Ticket) (task : Task ρ) (reply : ρ)
    (p : Pool ρ) : (p.takeReply m t task reply).recast f m'.outcome =
      (p.recast f m'.outcome).takeReply m' t (task.map f) (f reply) := by
  rw [takeReply_eq, takeReply_eq, ← recast_finish, ← recast_heed h]
  generalize (p.finish t).heed m reply = q
  simp only [isCancelled_recast, h.coverage]
  -- the reply that is recorded adds its own warning on both sides
  simp only [recast, List.map_append, List.map_singleton, failures_append]
  rfl

theorem recast_callBackend (h : m.Recasts f m') (t : Ticket) (task : Task ρ) (p : Pool ρ) :
    (p.callBackend m t task).recast f m'.outcome =
      (p.recast f m'.outcome).callBackend m' t (task.map f) := by
  have hbackend : (p.recast f m'.outcome).backend.call task.document.uri.text t =
      Prod.map (Option.map f) (Backend.map f) (p.backend.call task.document.uri.text t) :=
    Backend.call_map f _ t _
  unfold callBackend
  simp only [Task.map]
  rw [hbackend]
  rcases p.backend.call task.document.uri.text t with ⟨found, backend⟩
  cases found with
  | some reply =>
    exact recast_takeReply h t task reply
      { p with calls := p.calls ++ [task.request t], backend }
  | none =>
    exact recast_modify f m'.outcome
      { p with calls := p.calls ++ [task.request t], backend } t fun _ => rfl

theorem recast_step (h : m.Recasts f m') (t : Ticket) (task : Task ρ) (p : Pool ρ) :
    (step m t task p).recast f m'.outcome =
      step m' t (task.map f) (p.recast f m'.outcome) := by
  unfold step
  simp only [Task.map]
  cases task.phase with
  | queued =>
    cases task.cancelled with
    | true => exact recast_finish f m'.outcome p t
    | false => exact recast_callBackend h t task p
  | waiting =>
    cases task.cancelled with
    | true => exact recast_finish f m'.outcome { p with backend := p.backend.abandon t } t
    | false => rfl
  | answered reply =>
    cases task.cancelled with
    | true => exact recast_finish f m'.outcome p t
    | false => exact recast_takeReply h t task reply p
  | done => rfl

theorem recast_progress (h : m.Recasts f m') (t : Ticket) (p : Pool ρ) :
    (p.progress m t).recast f m'.outcome = (p.recast f m'.outcome).progress m' t := by
  unfold progress
  rw [getElem?_recast]
  cases p.tasks[t]? with
  | none => rfl
  | some task => exact recast_step h t task { p with runnable := p.runnable.erase t }

theorem budget_recast (f : ρ → σ) (outcome : σ → Outcome) (p : Pool ρ) :
    (p.recast f outcome).budget = p.budget := by
  have hcount : (p.tasks.map (Task.map f)).countP isUnfinished = p.tasks.countP isUnfinished := by
    rw [List.countP_map]
    exact congrArg (List.countP · p.tasks) (funext fun task => isUnfinished_map f task)
  simp only [budget, recast, hcount]

theorem recast_turns (h : m.Recasts f m') : ∀ (n : Nat) (p : Pool ρ),
    (p.turns m n).recast f m'.outcome = (p.recast f m'.outcome).turns m' n := by
  intro n
  induction n with
  | zero => exact fun p => rfl
  | succ n ih =>
    intro p
    have hrunnable : (p.recast f m'.outcome).runnable = p.runnable := rfl
    unfold turns
    rw [hrunnable]
    cases p.runnable with
    | nil => rfl
    | cons t rest =>
      simp only
      rw [ih, recast_progress h]

theorem recast_run (h : m.Recasts f m') (p : Pool ρ) :
    (p.run m).recast f m'.outcome = (p.recast f m'.outcome).run m' := by
  rw [run, run, recast_turns h, budget_recast]

end Turns

/-! ## The same pool -/

/-- Replies that stand for the same outcomes give rise to the same warnings. -/
theorem failures_map (f : ρ → σ) {outcome : ρ → Outcome} {outcome' : σ → Outcome}
    (h : ∀ reply, outcome' (f reply) = outcome reply) (arrivals : List (Arrival ρ)) :
    failures outcome' (arrivals.map (Arrival.map f)) = failures outcome arrivals := by
  unfold failures
  rw [List.filterMap_map]
  refine List.filterMap_congr fun a _ => ?_
  simp only [Function.comp_apply, Arrival.map, h]

/-- A pool over the same replies is the same, if it warned of its failures. -/
theorem recast_id (outcome : ρ → Outcome) (p : Pool ρ) :
    p.recast id outcome = { p with warnings := failures outcome p.arrivals } := by
  have hphase : ∀ phase : Phase ρ, phase.map id = phase := by
    intro phase
    cases phase <;> rfl
  have htask : Task.map (id : ρ → ρ) = id := by
    funext task
    simp only [Task.map, hphase, id_eq]
  have harrival : Arrival.map (id : ρ → ρ) = id := rfl
  simp only [recast, htask, harrival, Backend.map, Prod.map_id, List.map_id]

/-- Two pools are the same but for what the replies are and whom they warned. -/
structure Resembles (p : Pool ρ) (q : Pool σ) : Prop where
  tasks : p.tasks.map (Task.map fun _ => ()) = q.tasks.map (Task.map fun _ => ())
  runnable : p.runnable = q.runnable
  waiting : p.backend.waiting = q.backend.waiting
  ready : p.backend.ready.map Prod.fst = q.backend.ready.map Prod.fst
  completions : p.completions = q.completions
  isOpen : p.isOpen = q.isOpen
  calls : p.calls = q.calls
  arrivals : p.arrivals.map (Arrival.map fun _ => ()) = q.arrivals.map (Arrival.map fun _ => ())

theorem Resembles.symm {p : Pool ρ} {q : Pool σ} (h : p.Resembles q) : q.Resembles p :=
  ⟨h.tasks.symm, h.runnable.symm, h.waiting.symm, h.ready.symm, h.completions.symm, h.isOpen.symm,
    h.calls.symm, h.arrivals.symm⟩

theorem Resembles.trans {τ : Type} {p : Pool ρ} {q : Pool σ} {r : Pool τ} (hpq : p.Resembles q)
    (hqr : q.Resembles r) : p.Resembles r :=
  ⟨hpq.tasks.trans hqr.tasks, hpq.runnable.trans hqr.runnable, hpq.waiting.trans hqr.waiting,
    hpq.ready.trans hqr.ready, hpq.completions.trans hqr.completions,
    hpq.isOpen.trans hqr.isOpen, hpq.calls.trans hqr.calls, hpq.arrivals.trans hqr.arrivals⟩

theorem resembles_recast (f : ρ → σ) (outcome : σ → Outcome) (p : Pool ρ) :
    p.Resembles (p.recast f outcome) where
  tasks := by
    have htask : ∀ task : Task ρ, (task.map f).map (fun _ => ()) = task.map fun _ => () := by
      rintro ⟨_, _, _, phase⟩
      cases phase <;> rfl
    rw [recast, List.map_map]
    exact List.map_congr_left fun task _ => (htask task).symm
  runnable := rfl
  waiting := rfl
  ready := by
    rw [recast, Backend.map, List.map_map]
    rfl
  completions := rfl
  isOpen := rfl
  calls := rfl
  arrivals := by
    rw [recast, List.map_map]
    rfl

end Pool

end CoverageTracker
