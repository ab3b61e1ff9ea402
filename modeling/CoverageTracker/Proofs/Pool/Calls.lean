import CoverageTracker.Proofs.Pool.Evolution
set_option autoImplicit false

/-!
# Calls of the backend

A task calls the backend in its first turn, if it is not cancelled by then; the call returns in the
turn in which the task takes the reply (`returned`).  `Dealing` is what one turn comes to, at the
backend and in the queue of completions.  A task that is cancelled before its first turn calls
nobody (`Unasked`), and each reply that a call returns with was given for the document of its task
or to the task itself (`Supplied`).
-/

namespace CoverageTracker

/-! ## Ready replies -/

namespace Backend

variable {ρ : Type} {b b' : Backend ρ} {uri : String} {t : Ticket} {reply : ρ}

/-- A reply that is taken was ready, and the others stay. -/
theorem mem_of_takeReady : ∀ {line rest : List (String × ρ)},
    takeReady uri line = (some reply, rest) → (uri, reply) ∈ line ∧ rest ⊆ line := by
  intro line
  induction line with
  | nil =>
    intro rest h
    cases h
  | cons first line ih =>
    intro rest h
    unfold takeReady at h
    split at h
    · rename_i huri
      cases h
      exact ⟨by simp [← huri], List.subset_cons_self _ _⟩
    · rename_i huri
      simp only [Prod.mk.injEq] at h
      obtain ⟨hmem, hrest⟩ := ih (Prod.ext h.1 rfl)
      rw [← h.2]
      exact ⟨List.mem_cons_of_mem _ hmem, List.cons_subset_cons _ hrest⟩

theorem ready_call_of_some (h : b.call uri t = (some reply, b')) :
    (uri, reply) ∈ b.ready ∧ b'.ready ⊆ b.ready := by
  unfold call at h
  split at h
  · rename_i r ready htake
    cases h
    exact mem_of_takeReady htake
  · cases h

theorem ready_call_of_none (h : b.call uri t = (none, b')) : b'.ready = b.ready := by
  unfold call at h
  split at h
  · cases h
  · cases h
    rfl

theorem ready_settle_of_some (h : b.settle uri reply = (some t, b')) : b'.ready = b.ready := by
  unfold settle at h
  split at h
  · cases h
    rfl
  · cases h

/-- A reply that nobody awaits is kept. -/
theorem ready_settle_of_none (h : b.settle uri reply = (none, b')) :
    b'.ready = b.ready ++ [(uri, reply)] := by
  unfold settle at h
  split at h
  · cases h
  · cases h
    rfl

end Backend

namespace Pool

variable {ρ : Type} {m : Meaning ρ} {p q : Pool ρ} {t u : Ticket}

/-! ## What a call returns -/

/-- The reply with which the backend call of a task returns in the turn of the task.  There is none
if the task has nothing to wait for any more, if its reply has not come, and if it is cancelled
before it gets to look. -/
def returned (t : Ticket) (p : Pool ρ) : Option ρ :=
  match p.tasks[t]? with
  | none => none
  | some task =>
    match task.phase, task.cancelled with
    | .queued, false => (p.backend.call task.document.uri.text t).1
    | .answered reply, false => some reply
    | _, _ => none

@[simp] theorem calls_heed (m : Meaning ρ) (reply : ρ) (p : Pool ρ) :
    (p.heed m reply).calls = p.calls := by
  unfold heed
  split <;> rfl

@[simp] theorem calls_takeReply (m : Meaning ρ) (reply : ρ) (t : Ticket) (a : Task ρ) (p : Pool ρ) :
    (p.takeReply m t a reply).calls = p.calls := by
  simp only [takeReply]
  split <;> simp [complete, warn, finish, modify]

@[simp] theorem calls_resolve (uri : String) (reply : ρ) (p : Pool ρ) :
    (p.resolve uri reply).2.calls = p.calls := by
  unfold resolve
  split <;> rfl

@[simp] theorem calls_answer (t : Ticket) (reply : ρ) (p : Pool ρ) :
    (p.answer t reply).2.calls = p.calls := by
  unfold answer
  split <;> rfl

@[simp] theorem completions_resolve (uri : String) (reply : ρ) (p : Pool ρ) :
    (p.resolve uri reply).2.completions = p.completions := by
  unfold resolve
  split <;> rfl

@[simp] theorem completions_answer (t : Ticket) (reply : ρ) (p : Pool ρ) :
    (p.answer t reply).2.completions = p.completions := by
  unfold answer
  split <;> rfl

/-- What the turn of a task comes to, at the backend and in the queue of completions. -/
inductive Dealing (m : Meaning ρ) (t : Ticket) (task : Task ρ) (p q : Pool ρ) : Prop
  /-- no call is made, and none returns -/
  | idle : p.returned t = none → q.calls = p.calls → q.backend.ready = p.backend.ready →
      q.completions = p.completions → Dealing m t task p q
  /-- a call is made, and has to wait -/
  | call : p.returned t = none → task.phase = .queued → task.cancelled = false →
      q.calls = p.calls ++ [task.request t] → q.backend.ready = p.backend.ready →
      q.completions = p.completions → Dealing m t task p q
  /-- a call returns: it found its reply ready, or was answered before -/
  | reply (reply : ρ) : p.returned t = some reply →
      (task.phase = .queued ∧ task.cancelled = false ∧ q.calls = p.calls ++ [task.request t] ∧
          (task.document.uri.text, reply) ∈ p.backend.ready ∨
        task.phase = .answered reply ∧ q.calls = p.calls) →
      q.backend.ready ⊆ p.backend.ready →
      (q.completions = if q.isCancelled t = false ∧ p.isOpen = true then
          p.completions ++ [⟨task.request t, Outcome.coverage (m.outcome reply)⟩]
        else p.completions) → Dealing m t task p q

theorem dealing_progress (m : Meaning ρ) {task : Task ρ} (htask : p.tasks[t]? = some task) :
    Dealing m t task p (p.progress m t) := by
  have hprogress : p.progress m t = step m t task { p with runnable := p.runnable.erase t } := by
    simp [progress, htask]
  have hreturned : p.returned t = match task.phase, task.cancelled with
      | .queued, false => (p.backend.call task.document.uri.text t).1
      | .answered reply, false => some reply
      | _, _ => none := by
    simp [returned, htask]
  rw [hprogress]
  unfold step
  cases hphase : task.phase with
  | queued =>
    cases hcancelled : task.cancelled with
    | true =>
      rw [hphase, hcancelled] at hreturned
      exact .idle hreturned rfl rfl rfl
    | false =>
      rw [hphase, hcancelled] at hreturned
      simp only [callBackend]
      rcases hcall : p.backend.call task.document.uri.text t with ⟨found, backend⟩
      simp only [hcall] at hreturned
      cases found with
      | none => exact .call hreturned hphase hcancelled rfl (Backend.ready_call_of_none hcall) rfl
      | some reply =>
        obtain ⟨hmem, hsubset⟩ := Backend.ready_call_of_some hcall
        refine .reply reply hreturned (Or.inl ⟨hphase, hcancelled, ?_, hmem⟩) ?_ ?_
        · simp
        · simpa using hsubset
        · exact completions_takeReply m reply _ t task
  | waiting =>
    rw [hphase] at hreturned
    cases hcancelled : task.cancelled with
    | true => exact .idle hreturned rfl rfl rfl
    | false => exact .idle hreturned rfl rfl rfl
  | answered reply =>
    cases hcancelled : task.cancelled with
    | true =>
      rw [hphase, hcancelled] at hreturned
      exact .idle hreturned rfl rfl rfl
    | false =>
      rw [hphase, hcancelled] at hreturned
      refine .reply reply hreturned (Or.inr ⟨hphase, ?_⟩) ?_ ?_
      · simp
      · simp
      · exact completions_takeReply m reply _ t task
  | done =>
    rw [hphase] at hreturned
    exact .idle hreturned rfl rfl rfl

/-- A turn leaves a completion behind those that are queued exactly if the call of the task returns in
it, the task is not cancelled when it looks after that, and somebody can receive. -/
theorem completions_progress (m : Meaning ρ) (t : Ticket) (p : Pool ρ) :
    ∃ new, (p.progress m t).completions = p.completions ++ new ∧
      ∀ x, x ∈ new ↔ ∃ task reply, p.tasks[t]? = some task ∧ p.returned t = some reply ∧
        (p.progress m t).isCancelled t = false ∧ p.isOpen = true ∧
        x = ⟨task.request t, Outcome.coverage (m.outcome reply)⟩ := by
  cases htask : p.tasks[t]? with
  | none => exact ⟨[], by simp [progress_of_none m htask], by simp⟩
  | some task =>
    cases dealing_progress m htask with
    | idle hreturned _ _ hcompletions => exact ⟨[], by simp [hcompletions], by simp [hreturned]⟩
    | call hreturned _ _ _ _ hcompletions =>
      exact ⟨[], by simp [hcompletions], by simp [hreturned]⟩
    | reply reply hreturned _ _ hcompletions =>
      by_cases hleft : (p.progress m t).isCancelled t = false ∧ p.isOpen = true
      · rw [if_pos hleft] at hcompletions
        exact ⟨_, hcompletions, by simp [hreturned, hleft.1, hleft.2]⟩
      · rw [if_neg hleft] at hcompletions
        refine ⟨[], by simp [hcompletions], ?_⟩
        simp only [List.not_mem_nil, false_iff]
        rintro x ⟨_, _, _, _, hlive, hopen, _⟩
        exact hleft ⟨hlive, hopen⟩

/-- A task that is not cancelled before its first turn calls the backend in it. -/
theorem calls_progress_of_queued (m : Meaning ρ) {task : Task ρ} (htask : p.tasks[t]? = some task)
    (hqueued : task.phase = .queued) (hlive : task.cancelled = false) :
    (p.progress m t).calls = p.calls ++ [task.request t] := by
  simp only [progress, htask, step, hqueued, hlive, callBackend]
  split
  · exact calls_takeReply m _ t task _
  · rfl

/-- Only a task that is not cancelled before its first turn calls the backend. -/
theorem mem_calls_progress {r : Request} (hr : r ∈ (p.progress m t).calls) :
    r ∈ p.calls ∨ ∃ task, p.tasks[t]? = some task ∧ task.cancelled = false ∧
      r = task.request t := by
  cases htask : p.tasks[t]? with
  | none =>
    rw [progress_of_none m htask] at hr
    exact Or.inl hr
  | some task =>
    have hcall : task.cancelled = false → r ∈ p.calls ++ [task.request t] →
        r ∈ p.calls ∨ ∃ task', some task = some task' ∧ task'.cancelled = false ∧
          r = task'.request t := by
      intro hlive hr
      rcases List.mem_append.mp hr with hr | hr
      · exact Or.inl hr
      · exact Or.inr ⟨task, rfl, hlive, List.mem_singleton.mp hr⟩
    cases dealing_progress m htask with
    | idle _ hcalls _ _ =>
      rw [hcalls] at hr
      exact Or.inl hr
    | call _ _ hlive hcalls _ _ =>
      rw [hcalls] at hr
      exact hcall hlive hr
    | reply reply _ hcalls _ _ =>
      rcases hcalls with ⟨_, hlive, hcalls, _⟩ | ⟨_, hcalls⟩
      · rw [hcalls] at hr
        exact hcall hlive hr
      · rw [hcalls] at hr
        exact Or.inl hr

/-- A turn changes the phase of its own task only, and never so that a reply has come to it. -/
theorem phase_of_progress {b : Task ρ} (hb : (p.progress m t).tasks[u]? = some b) :
    ∃ a, p.tasks[u]? = some a ∧ (b.phase = a.phase ∨
      u = t ∧ (b.phase = .done ∨ b.phase = .waiting ∧ a.cancelled = false)) := by
  cases htask : p.tasks[t]? with
  | none =>
    rw [progress_of_none m htask] at hb
    exact ⟨b, hb, Or.inl rfl⟩
  | some task =>
    have hturn := turn_progress m htask
    generalize p.progress m t = q at hturn hb
    cases hturn with
    | rest _ => exact ⟨b, hb, Or.inl rfl⟩
    | quit backend _ _ _ =>
      obtain ⟨a, ha, rfl⟩ := getElem?_finish.mp hb
      refine ⟨a, ha, ?_⟩
      split
      · rename_i htu
        exact Or.inr ⟨htu.symm, Or.inl rfl⟩
      · exact Or.inl rfl
    | call backend hcancelled _ _ =>
      obtain ⟨a, ha, rfl⟩ := getElem?_modify.mp hb
      have ha : p.tasks[u]? = some a := ha
      refine ⟨a, ha, ?_⟩
      split
      · rename_i htu
        subst htu
        rw [htask] at ha
        cases ha
        exact Or.inr ⟨rfl, Or.inr ⟨rfl, hcancelled⟩⟩
      · exact Or.inl rfl
    | take reply backend calls _ _ _ _ =>
      rw [tasks_takeReply] at hb
      obtain ⟨c, hc, hphase⟩ := getElem?_heed hb
      obtain ⟨a, ha, rfl⟩ := getElem?_finish.mp hc
      refine ⟨a, ha, ?_⟩
      rw [hphase]
      split
      · rename_i htu
        exact Or.inr ⟨htu.symm, Or.inl rfl⟩
      · exact Or.inl rfl

/-! ## Tasks that call nobody -/

/-- The backend was not called by a task that has not had a turn, or has ended. -/
structure Unasked (t : Ticket) (p : Pool ρ) : Prop where
  uncalled : ∀ r ∈ p.calls, r.ticket ≠ t
  phase : ∃ a, p.tasks[t]? = some a ∧ (a.phase = .queued ∨ a.phase = .done)

namespace Unasked

/-- Another task has the turn, or the task is cancelled before its own. -/
theorem progress (h : p.Unasked t) (hu : u = t → p.isCancelled t = true) :
    (p.progress m u).Unasked t := by
  obtain ⟨a, ha, hphase⟩ := h.phase
  have hcancelled : u = t → a.cancelled = true := by
    intro hut
    rw [← isCancelled_of_task ha]
    exact hu hut
  refine ⟨?_, ?_⟩
  · intro r hr hticket
    rcases mem_calls_progress hr with hr | ⟨task, htask, hlive, rfl⟩
    · exact h.uncalled r hr hticket
    · have hut : u = t := hticket
      rw [hut, ha] at htask
      cases htask
      rw [hcancelled hut] at hlive
      cases hlive
  · obtain ⟨b, hb, _⟩ := (evolves_progress (m := m) u p).becomes t a ha
    obtain ⟨a', ha', hb'⟩ := phase_of_progress hb
    rw [ha] at ha'
    cases ha'
    refine ⟨b, hb, ?_⟩
    rcases hb' with hsame | ⟨htu, hdone | ⟨_, hlive⟩⟩
    · rw [hsame]
      exact hphase
    · exact Or.inr hdone
    · rw [hcancelled htu.symm] at hlive
      cases hlive

theorem start (h : p.Unasked t) (id : RequestId) (d : Document) : (p.start id d).2.Unasked t where
  uncalled := h.uncalled
  phase := by
    obtain ⟨a, ha, hphase⟩ := h.phase
    exact ⟨a, getElem?_start.mpr (Or.inl ha), hphase⟩

theorem cancel (h : p.Unasked t) (u : Ticket) : (p.cancel u).Unasked t where
  uncalled := h.uncalled
  phase := by
    obtain ⟨a, ha, hphase⟩ := h.phase
    refine ⟨_, getElem?_cancel.mpr ⟨a, ha, rfl⟩, ?_⟩
    split
    · exact hphase
    · exact hphase

/-- A reply comes to a task that waits. -/
theorem hand {reply : ρ} {backend : Backend ρ} {b : Task ρ} (h : p.Unasked t)
    (hb : p.tasks[u]? = some b) (hwaiting : b.phase = .waiting) :
    (({ p with backend } : Pool ρ).hand u reply).Unasked t where
  uncalled := h.uncalled
  phase := by
    obtain ⟨a, ha, hphase⟩ := h.phase
    have hut : u ≠ t := by
      rintro rfl
      rw [ha] at hb
      cases hb
      rw [hwaiting] at hphase
      rcases hphase with hqueued | hdone
      · cases hqueued
      · cases hdone
    exact ⟨a, getElem?_hand.mpr ⟨a, ha, by rw [if_neg hut]⟩, hphase⟩

theorem resolve (h : p.Unasked t) (hline : p.Lined) (uri : String) (reply : ρ) :
    (p.resolve uri reply).2.Unasked t := by
  have hwaits := (hline.resolve uri reply).2
  unfold Pool.resolve
  split
  · rename_i caller backend hsettle
    obtain ⟨b, hb, hwaiting, _⟩ := hwaits caller backend hsettle
    exact h.hand hb hwaiting
  · exact ⟨h.uncalled, h.phase⟩

theorem answer (h : p.Unasked t) (u : Ticket) (reply : ρ) : (p.answer u reply).2.Unasked t := by
  unfold Pool.answer
  split
  · rename_i hwaiting
    obtain ⟨b, hb, hphase⟩ := Option.map_eq_some_iff.mp hwaiting
    exact h.hand hb hphase
  · exact h

end Unasked

/-! ## Where replies come from -/

/-- Every reply that is ready was given for its URI, and every one that has come to a task was given
for the URI of its document, or to the task itself. -/
structure Supplied (given : String → ρ → Prop) (told : Ticket → ρ → Prop) (p : Pool ρ) : Prop where
  ready : ∀ uri reply, (uri, reply) ∈ p.backend.ready → given uri reply
  answered : ∀ t a reply, p.tasks[t]? = some a → a.phase = .answered reply →
    given a.document.uri.text reply ∨ told t reply

namespace Supplied

variable {given : String → ρ → Prop} {told : Ticket → ρ → Prop}

theorem empty : (empty : Pool ρ).Supplied given told where
  ready := by
    intro uri reply h
    cases h
  answered := by
    intro t a reply ha
    cases ha

/-- The reply that a call returns with was given to that call. -/
theorem of_returned {a : Task ρ} {reply : ρ} (h : p.Supplied given told)
    (ha : p.tasks[t]? = some a) (hreturned : p.returned t = some reply) :
    given a.document.uri.text reply ∨ told t reply := by
  simp only [returned, ha] at hreturned
  split at hreturned
  · rcases hcall : p.backend.call a.document.uri.text t with ⟨found, backend⟩
    rw [hcall] at hreturned
    cases hreturned
    exact Or.inl (h.ready _ reply (Backend.ready_call_of_some hcall).1)
  · rename_i hphase _
    cases hreturned
    exact h.answered t a reply ha hphase
  · cases hreturned

/-- No reply comes. -/
theorem of_phases (h : p.Supplied given told) (hready : q.backend.ready ⊆ p.backend.ready)
    (htasks : ∀ (t : Ticket) (b : Task ρ) (reply : ρ), q.tasks[t]? = some b →
      b.phase = .answered reply → ∃ a, p.tasks[t]? = some a ∧ a.phase = .answered reply ∧
        b.document = a.document) : q.Supplied given told where
  ready := fun uri reply hmem => h.ready uri reply (hready hmem)
  answered := by
    intro t b reply hb hphase
    obtain ⟨a, ha, hanswered, hdocument⟩ := htasks t b reply hb hphase
    rw [hdocument]
    exact h.answered t a reply ha hanswered

theorem start (h : p.Supplied given told) (id : RequestId) (d : Document) :
    (p.start id d).2.Supplied given told := by
  refine h.of_phases (List.Subset.refl _) ?_
  intro t b reply hb hphase
  rcases getElem?_start.mp hb with ha | ⟨_, rfl⟩
  · exact ⟨b, ha, hphase, rfl⟩
  · cases hphase

theorem cancel (h : p.Supplied given told) (t : Ticket) : (p.cancel t).Supplied given told := by
  refine h.of_phases (List.Subset.refl _) ?_
  intro u b reply hb hphase
  obtain ⟨a, ha, rfl⟩ := getElem?_cancel.mp hb
  refine ⟨a, ha, ?_⟩
  split at hphase
  · rename_i htu
    rw [if_pos htu]
    exact ⟨hphase, rfl⟩
  · rename_i htu
    rw [if_neg htu]
    exact ⟨hphase, rfl⟩

theorem progress (h : p.Supplied given told) (t : Ticket) :
    (p.progress m t).Supplied given told := by
  refine h.of_phases ?_ ?_
  · cases htask : p.tasks[t]? with
    | none =>
      rw [progress_of_none m htask]
      exact List.Subset.refl _
    | some task =>
      cases dealing_progress m htask with
      | idle _ _ hready _ =>
        rw [hready]
        exact List.Subset.refl _
      | call _ _ _ _ hready _ =>
        rw [hready]
        exact List.Subset.refl _
      | reply _ _ _ hready _ => exact hready
  · intro u b reply hb hphase
    obtain ⟨a, ha, hab⟩ := (evolves_progress (m := m) t p).becomes_of_later hb
    obtain ⟨a', ha', hb'⟩ := phase_of_progress hb
    rw [ha] at ha'
    cases ha'
    refine ⟨a, ha, ?_, hab.document⟩
    rw [hphase] at hb'
    rcases hb' with hsame | ⟨_, hdone | ⟨hwaiting, _⟩⟩
    · exact hsame.symm
    · cases hdone
    · cases hwaiting

/-- A reply is handed to a task. -/
theorem hand {reply : ρ} {backend : Backend ρ} (h : p.Supplied given told)
    (hready : backend.ready = p.backend.ready)
    (hreply : ∀ a, p.tasks[t]? = some a → given a.document.uri.text reply ∨ told t reply) :
    (({ p with backend } : Pool ρ).hand t reply).Supplied given told where
  ready := by
    intro uri r hmem
    have hmem : (uri, r) ∈ backend.ready := hmem
    rw [hready] at hmem
    exact h.ready uri r hmem
  answered := by
    intro u b r hb hphase
    obtain ⟨a, ha, rfl⟩ := getElem?_hand.mp hb
    by_cases htu : t = u
    · subst htu
      rw [if_pos rfl] at hphase ⊢
      cases hphase
      exact hreply a ha
    · rw [if_neg htu] at hphase ⊢
      exact h.answered u a r ha hphase

theorem resolve {uri : String} {reply : ρ} (h : p.Supplied given told) (hline : p.Lined)
    (hgiven : given uri reply) : (p.resolve uri reply).2.Supplied given told := by
  have hwaits := (hline.resolve uri reply).2
  unfold Pool.resolve
  split
  · rename_i caller backend hsettle
    obtain ⟨a, ha, _, huri⟩ := hwaits caller backend hsettle
    refine h.hand (Backend.ready_settle_of_some hsettle) ?_
    intro a' ha'
    rw [ha] at ha'
    cases ha'
    rw [huri]
    exact Or.inl hgiven
  · rename_i backend hsettle
    refine ⟨?_, h.answered⟩
    intro uri' r hmem
    have hmem : (uri', r) ∈ backend.ready := hmem
    rw [Backend.ready_settle_of_none hsettle, List.mem_append, List.mem_singleton] at hmem
    rcases hmem with hmem | hmem
    · exact h.ready uri' r hmem
    · cases hmem
      exact hgiven

theorem answer {reply : ρ} (h : p.Supplied given told) (htold : told t reply) :
    (p.answer t reply).2.Supplied given told := by
  unfold Pool.answer
  split
  · exact h.hand rfl fun _ _ => Or.inr htold
  · exact h

end Supplied

end Pool

end CoverageTracker
