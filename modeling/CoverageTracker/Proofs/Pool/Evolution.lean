import CoverageTracker.Proofs.Pool.Line
set_option autoImplicit false

/-!
# How a pool evolves

Whatever turns, replies and cancellations make of a pool, a task keeps its document and its
number, and being cancelled and having ended are for good.  A task leaves its completion at
the moment it ends: at most one, only if it was not cancelled, and always if it was not and
somebody can receive it.  `Evolves` says this of any two pools, the second later than the
first, and composes; `evolves_cancel`, `evolves_resolve`, `evolves_answer` and
`evolves_progress` are its steps.
-/

namespace CoverageTracker

/-- What a task can become. -/
structure Task.Becomes {ρ : Type} (a b : Task ρ) : Prop where
  id : b.id = a.id
  document : b.document = a.document
  cancelled : a.cancelled = true → b.cancelled = true
  done : a.phase = .done → b.phase = .done

namespace Task.Becomes

variable {ρ : Type} {a b c : Task ρ}

theorem refl (a : Task ρ) : a.Becomes a := ⟨rfl, rfl, fun h => h, fun h => h⟩

theorem trans (hab : a.Becomes b) (hbc : b.Becomes c) : a.Becomes c :=
  ⟨hbc.id.trans hab.id, hbc.document.trans hab.document,
    fun h => hbc.cancelled (hab.cancelled h), fun h => hbc.done (hab.done h)⟩

theorem request (h : a.Becomes b) (t : Ticket) : b.request t = a.request t := by
  simp only [Task.request, h.id, h.document]

theorem uncancelled (h : a.Becomes b) (hb : b.cancelled = false) : a.cancelled = false := by
  cases ha : a.cancelled with
  | false => rfl
  | true => rw [h.cancelled ha] at hb; exact hb

end Task.Becomes

namespace Pool

variable {ρ : Type} {m : Meaning ρ} {p q r : Pool ρ}

/-- A completion that was left between two pools, by a task that ended between them with a
reply that it took uncancelled. -/
structure LeftBehind (m : Meaning ρ) (p q : Pool ρ) (x : Completion) : Prop where
  unfinished : ∃ a, p.tasks[x.ticket]? = some a ∧ a.phase ≠ .done ∧ x.request = a.request x.ticket
  finished : ∃ b, q.tasks[x.ticket]? = some b ∧ b.phase = .done
  arrival : ∃ a ∈ q.arrivals, a.request = x.request ∧ a.cancelled = false ∧
    Outcome.coverage (m.outcome a.reply) = x.result

/-- What a pool can become while no task starts and nothing is received. -/
structure Evolves (m : Meaning ρ) (p q : Pool ρ) : Prop where
  length : q.tasks.length = p.tasks.length
  becomes : ∀ (t : Ticket) (a : Task ρ), p.tasks[t]? = some a →
    ∃ b, q.tasks[t]? = some b ∧ a.Becomes b
  isOpen : q.isOpen = p.isOpen
  arrivals : ∀ a ∈ p.arrivals, a ∈ q.arrivals
  /-- the completions that are queued meanwhile -/
  queued : ∃ new, q.completions = p.completions ++ new ∧ (new.map Completion.ticket).Nodup ∧
    ∀ x ∈ new, LeftBehind m p q x
  /-- no task ends uncancelled without a completion -/
  settled : p.isOpen = true →
    ∀ (t : Ticket) (a b : Task ρ), p.tasks[t]? = some a → a.phase ≠ .done →
    q.tasks[t]? = some b → b.phase = .done → b.cancelled = false →
    ∃ x ∈ q.completions, x.ticket = t

namespace Evolves

/-- The tasks of the later pool come from the earlier one. -/
theorem becomes_of_later (h : Evolves m p q) {t : Ticket} {b : Task ρ}
    (hb : q.tasks[t]? = some b) : ∃ a, p.tasks[t]? = some a ∧ a.Becomes b := by
  have hlt : t < p.tasks.length := by
    rw [← h.length]
    exact (List.getElem?_eq_some_iff.mp hb).1
  obtain ⟨b', hb', hbecomes⟩ := h.becomes t p.tasks[t] (List.getElem?_eq_getElem hlt)
  rw [hb] at hb'
  cases hb'
  exact ⟨p.tasks[t], List.getElem?_eq_getElem hlt, hbecomes⟩

/-- Nothing ends uncancelled, so nothing is left behind. -/
theorem of_quiet (hlength : q.tasks.length = p.tasks.length)
    (hbecomes : ∀ (t : Ticket) (a : Task ρ), p.tasks[t]? = some a →
      ∃ b, q.tasks[t]? = some b ∧ a.Becomes b)
    (hopen : q.isOpen = p.isOpen) (harrivals : q.arrivals = p.arrivals)
    (hcompletions : q.completions = p.completions)
    (hquiet : ∀ (t : Ticket) (a b : Task ρ), p.tasks[t]? = some a → q.tasks[t]? = some b →
      b.phase = .done → b.cancelled = false → a.phase = .done) : Evolves m p q where
  length := hlength
  becomes := hbecomes
  isOpen := hopen
  arrivals := by
    intro a ha
    rw [harrivals]
    exact ha
  queued := ⟨[], by simp [hcompletions], List.nodup_nil, by simp⟩
  settled := by
    intro _ t a b ha hunfinished hb hdone hcancelled
    exact absurd (hquiet t a b ha hb hdone hcancelled) hunfinished

/-- The queues and the backend may change as long as the tasks do not. -/
theorem of_tasks_eq (htasks : q.tasks = p.tasks) (hopen : q.isOpen = p.isOpen)
    (harrivals : q.arrivals = p.arrivals) (hcompletions : q.completions = p.completions) :
    Evolves m p q := by
  refine of_quiet (by rw [htasks]) ?_ hopen harrivals hcompletions ?_
  · intro t a ha
    exact ⟨a, by rw [htasks]; exact ha, .refl a⟩
  · intro t a b ha hb hdone _
    rw [htasks, ha] at hb
    cases hb
    exact hdone

theorem refl (p : Pool ρ) : Evolves m p p := of_tasks_eq rfl rfl rfl rfl

theorem trans (hpq : Evolves m p q) (hqr : Evolves m q r) : Evolves m p r where
  length := hqr.length.trans hpq.length
  becomes := by
    intro t a ha
    obtain ⟨b, hb, hab⟩ := hpq.becomes t a ha
    obtain ⟨c, hc, hbc⟩ := hqr.becomes t b hb
    exact ⟨c, hc, hab.trans hbc⟩
  isOpen := hqr.isOpen.trans hpq.isOpen
  arrivals := fun a ha => hqr.arrivals a (hpq.arrivals a ha)
  queued := by
    obtain ⟨early, hearly, hearlyNodup, hearlyLeft⟩ := hpq.queued
    obtain ⟨late, hlate, hlateNodup, hlateLeft⟩ := hqr.queued
    refine ⟨early ++ late, by rw [hlate, hearly, List.append_assoc], ?_, ?_⟩
    · -- the early completions are of tasks that had ended in between, the late ones are not
      rw [List.map_append, List.nodup_append]
      refine ⟨hearlyNodup, hlateNodup, ?_⟩
      intro t ht u hu htu
      obtain ⟨x, hx, rfl⟩ := List.mem_map.mp ht
      obtain ⟨y, hy, rfl⟩ := List.mem_map.mp hu
      obtain ⟨b, hb, hdone⟩ := (hearlyLeft x hx).finished
      obtain ⟨a, ha, hunfinished, _⟩ := (hlateLeft y hy).unfinished
      rw [← htu, hb] at ha
      cases ha
      exact hunfinished hdone
    · intro x hx
      rcases List.mem_append.mp hx with hx | hx
      · obtain ⟨hunfinished, ⟨b, hb, hdone⟩, a, ha, harrival⟩ := hearlyLeft x hx
        obtain ⟨c, hc, hbc⟩ := hqr.becomes _ _ hb
        exact ⟨hunfinished, ⟨c, hc, hbc.done hdone⟩, a, hqr.arrivals a ha, harrival⟩
      · obtain ⟨⟨b, hb, hunfinished, hrequest⟩, hfinished, harrival⟩ := hlateLeft x hx
        obtain ⟨a, ha, hab⟩ := hpq.becomes_of_later hb
        refine ⟨⟨a, ha, fun hdone => hunfinished (hab.done hdone), ?_⟩, hfinished, harrival⟩
        rw [hrequest, hab.request]
  settled := by
    intro hopen t a c ha hunfinished hc hdone hcancelled
    obtain ⟨b, hb, _⟩ := hpq.becomes t a ha
    by_cases hbdone : b.phase = .done
    · obtain ⟨c', hc', hbc⟩ := hqr.becomes t b hb
      rw [hc] at hc'
      cases hc'
      obtain ⟨x, hx, hxt⟩ :=
        hpq.settled hopen t a b ha hunfinished hb hbdone (hbc.uncancelled hcancelled)
      obtain ⟨late, hlate, _⟩ := hqr.queued
      exact ⟨x, by rw [hlate]; exact List.mem_append_left _ hx, hxt⟩
    · exact hqr.settled (by rw [hpq.isOpen]; exact hopen) t b c hb hbdone hc hdone hcancelled

/-- A change of one task that ends no uncancelled task. -/
theorem of_modify {t : Ticket} {f : Task ρ → Task ρ}
    (htasks : ∀ (u : Ticket) (b : Task ρ), q.tasks[u]? = some b ↔
      ∃ a, p.tasks[u]? = some a ∧ b = if t = u then f a else a)
    (hlength : q.tasks.length = p.tasks.length) (hopen : q.isOpen = p.isOpen)
    (harrivals : q.arrivals = p.arrivals) (hcompletions : q.completions = p.completions)
    (hchange : ∀ a, p.tasks[t]? = some a → a.Becomes (f a) ∧
      ((f a).phase = .done → (f a).cancelled = false → a.phase = .done)) : Evolves m p q := by
  refine of_quiet hlength ?_ hopen harrivals hcompletions ?_
  · intro u a ha
    refine ⟨if t = u then f a else a, (htasks u _).mpr ⟨a, ha, rfl⟩, ?_⟩
    split
    · rename_i htu
      subst htu
      exact (hchange a ha).1
    · exact .refl a
  · intro u a b ha hb hdone hcancelled
    obtain ⟨a', ha', hb'⟩ := (htasks u b).mp hb
    rw [ha] at ha'
    cases ha'
    by_cases htu : t = u
    · subst htu
      rw [if_pos rfl] at hb'
      subst hb'
      exact (hchange a ha).2 hdone hcancelled
    · rw [if_neg htu] at hb'
      subst hb'
      exact hdone

end Evolves

/-! ## Steps -/

theorem evolves_cancel (t : Ticket) (p : Pool ρ) : Evolves m p (p.cancel t) := by
  refine .of_modify (fun u b => getElem?_cancel) (length_tasks_cancel t p) rfl rfl rfl ?_
  intro a _
  exact ⟨⟨rfl, rfl, fun _ => rfl, fun h => h⟩, fun _ h => Bool.noConfusion h⟩

theorem evolves_heed (reply : ρ) (p : Pool ρ) : Evolves m p (p.heed m reply) := by
  unfold heed
  split
  · exact evolves_cancel _ p
  · exact .refl p

/-- A reply comes to a task that waits for one. -/
theorem evolves_hand {t : Ticket} {reply : ρ} {backend : Backend ρ} {a : Task ρ}
    (ha : p.tasks[t]? = some a) (hwaiting : a.phase = .waiting) :
    Evolves m p (({ p with backend } : Pool ρ).hand t reply) := by
  refine .of_modify (fun u b => getElem?_hand) (List.length_modify _ _ _) rfl rfl rfl ?_
  intro a' ha'
  rw [ha] at ha'
  cases ha'
  refine ⟨⟨rfl, rfl, fun h => h, ?_⟩, ?_⟩
  · intro h
    rw [hwaiting] at h
    cases h
  · intro h
    cases h

theorem evolves_resolve (hline : p.Lined) (uri : String) (reply : ρ) :
    Evolves m p (p.resolve uri reply).2 := by
  have hwaits := (hline.resolve uri reply).2
  unfold resolve
  split
  · rename_i t backend hsettle
    obtain ⟨a, ha, hwaiting, _⟩ := hwaits t backend hsettle
    exact evolves_hand ha hwaiting
  · exact .of_tasks_eq rfl rfl rfl rfl

theorem evolves_answer (t : Ticket) (reply : ρ) (p : Pool ρ) :
    Evolves m p (p.answer t reply).2 := by
  unfold answer
  split
  · rename_i hwaiting
    obtain ⟨a, ha, hphase⟩ := Option.map_eq_some_iff.mp hwaiting
    exact evolves_hand ha hphase
  · exact .refl p

/-! ## Taking a reply -/

/-- Taking a reply ends the task of a ticket, and may cancel another task. -/
theorem becomes_takeReply {t u : Ticket} {a c : Task ρ} (reply : ρ) (hc : p.tasks[u]? = some c) :
    ∃ d, (p.takeReply m t a reply).tasks[u]? = some d ∧ c.Becomes d ∧
      (t = u → d.phase = .done) := by
  have hheed : Evolves m (p.finish t) ((p.finish t).heed m reply) := evolves_heed reply _
  obtain ⟨d, hd, hbecomes⟩ := hheed.becomes u _ (getElem?_finish.mpr ⟨c, hc, rfl⟩)
  refine ⟨d, by rw [tasks_takeReply]; exact hd, ?_⟩
  split at hbecomes
  · exact ⟨⟨hbecomes.id, hbecomes.document, hbecomes.cancelled, fun _ => hbecomes.done rfl⟩,
      fun _ => hbecomes.done rfl⟩
  · rename_i htu
    exact ⟨hbecomes, fun h => absurd h htu⟩

/-- Taking a reply ends no other task. -/
theorem done_of_takeReply {t u : Ticket} {a c d : Task ρ} {reply : ρ}
    (hc : p.tasks[u]? = some c) (hd : (p.takeReply m t a reply).tasks[u]? = some d)
    (hdone : d.phase = .done) : t = u ∨ c.phase = .done := by
  rw [tasks_takeReply] at hd
  obtain ⟨e, he, hphase⟩ := getElem?_heed hd
  obtain ⟨c', hc', he'⟩ := getElem?_finish.mp he
  rw [hc] at hc'
  cases hc'
  by_cases htu : t = u
  · exact Or.inl htu
  · rw [if_neg htu] at he'
    subst he'
    exact Or.inr (hphase.symm.trans hdone)

/-- A task that ends with a reply leaves a completion unless it is cancelled by now. -/
theorem evolves_takeReply {t : Ticket} {a : Task ρ} (reply : ρ) (ha : p.tasks[t]? = some a)
    (hunfinished : a.phase ≠ .done) : Evolves m p (p.takeReply m t a reply) := by
  obtain ⟨b, hb, _, hbdone⟩ := becomes_takeReply (m := m) (t := t) (a := a) reply ha
  have hbdone : b.phase = .done := hbdone rfl
  have hcompletions := completions_takeReply m reply p t a
  have harrivals := arrivals_takeReply m reply p t a
  rw [isCancelled_of_task hb] at hcompletions harrivals
  refine ⟨?_, ?_, isOpen_takeReply m reply p t a, ?_, ?_, ?_⟩
  · rw [tasks_takeReply, length_tasks_heed, length_tasks_finish]
  · intro u c hc
    obtain ⟨d, hd, hbecomes, _⟩ := becomes_takeReply (m := m) (t := t) (a := a) reply hc
    exact ⟨d, hd, hbecomes⟩
  · intro x hx
    rw [harrivals]
    exact List.mem_append_left _ hx
  · by_cases hleft : b.cancelled = false ∧ p.isOpen = true
    · rw [if_pos hleft] at hcompletions
      refine ⟨_, hcompletions, by simp, ?_⟩
      intro x hx
      rw [List.mem_singleton] at hx
      subst hx
      refine ⟨⟨a, ha, hunfinished, rfl⟩, ⟨b, hb, hbdone⟩,
        ⟨a.request t, reply, b.cancelled⟩, ?_, rfl, hleft.1, rfl⟩
      rw [harrivals]
      exact List.mem_append_right _ (List.mem_singleton_self _)
    · rw [if_neg hleft] at hcompletions
      exact ⟨[], by simp [hcompletions], List.nodup_nil, by simp⟩
  · intro hopen u c d hc hcunfinished hd hddone hdcancelled
    rcases done_of_takeReply hc hd hddone with rfl | hcdone
    · rw [hb] at hd
      cases hd
      rw [if_pos ⟨hdcancelled, hopen⟩] at hcompletions
      exact ⟨_, by rw [hcompletions]; exact List.mem_append_right _ (List.mem_singleton_self _),
        rfl⟩
    · exact absurd hcdone hcunfinished

theorem Turn.evolves {t : Ticket} {task : Task ρ} (h : Turn m t task p q)
    (htask : p.tasks[t]? = some task) : Evolves m p q := by
  cases h with
  | rest _ => exact .of_tasks_eq rfl rfl rfl rfl
  | quit backend hcancelled _ _ =>
    refine .of_modify (fun u b => getElem?_finish) (List.length_modify _ _ _) rfl rfl rfl ?_
    intro a ha
    rw [htask] at ha
    cases ha
    exact ⟨⟨rfl, rfl, fun h => h, fun _ => rfl⟩, fun _ h => by simp [hcancelled] at h⟩
  | call backend _ hqueued _ =>
    refine .of_modify (fun u b => getElem?_modify) (List.length_modify _ _ _) rfl rfl rfl ?_
    intro a ha
    rw [htask] at ha
    cases ha
    refine ⟨⟨rfl, rfl, fun h => h, ?_⟩, ?_⟩
    · intro h
      rw [hqueued] at h
      cases h
    · intro h
      cases h
  | take reply backend calls _ hunfinished _ _ =>
    have hbefore : Evolves m p
        { p with runnable := p.runnable.erase t, calls, backend } := .of_tasks_eq rfl rfl rfl rfl
    exact hbefore.trans (evolves_takeReply reply htask hunfinished)

theorem evolves_progress (t : Ticket) (p : Pool ρ) : Evolves m p (p.progress m t) := by
  cases htask : p.tasks[t]? with
  | none =>
    rw [progress_of_none m htask]
    exact .refl p
  | some task => exact (turn_progress m htask).evolves htask

/-! ## Cancelled for good -/

/-- Every task is still there and has become what it can become; others may have started since. -/
def Grows (p q : Pool ρ) : Prop :=
  ∀ (t : Ticket) (a : Task ρ), p.tasks[t]? = some a → ∃ b, q.tasks[t]? = some b ∧ a.Becomes b

theorem Evolves.grows (h : Evolves m p q) : Grows p q := h.becomes

theorem Grows.trans (hpq : Grows p q) (hqr : Grows q r) : Grows p r := by
  intro t a ha
  obtain ⟨b, hb, hab⟩ := hpq t a ha
  obtain ⟨c, hc, hbc⟩ := hqr t b hb
  exact ⟨c, hc, hab.trans hbc⟩

theorem grows_of_tasks_eq (htasks : q.tasks = p.tasks) : Grows p q := by
  intro t a ha
  exact ⟨a, by rw [htasks]; exact ha, .refl a⟩

theorem grows_start (id : RequestId) (d : Document) (p : Pool ρ) : Grows p (p.start id d).2 := by
  intro t a ha
  exact ⟨a, getElem?_start.mpr (Or.inl ha), .refl a⟩

theorem grows_cancel (t : Ticket) (p : Pool ρ) : Grows p (p.cancel t) := by
  intro u a ha
  refine ⟨_, getElem?_cancel.mpr ⟨a, ha, rfl⟩, ?_⟩
  split
  · exact ⟨rfl, rfl, fun _ => rfl, fun h => h⟩
  · exact .refl a

theorem isCancelled_eq_true {t : Ticket} {p : Pool ρ} :
    p.isCancelled t = true ↔ ∃ a, p.tasks[t]? = some a ∧ a.cancelled = true := by
  unfold isCancelled
  cases p.tasks[t]? <;> simp

theorem Grows.isCancelled (h : Grows p q) {t : Ticket} (ht : p.isCancelled t = true) :
    q.isCancelled t = true := by
  obtain ⟨a, ha, hcancelled⟩ := isCancelled_eq_true.mp ht
  obtain ⟨b, hb, hab⟩ := h t a ha
  exact isCancelled_eq_true.mpr ⟨b, hb, hab.cancelled hcancelled⟩

/-- A task that is there is cancelled by cancelling it. -/
theorem isCancelled_cancel {t : Ticket} {a : Task ρ} (ha : p.tasks[t]? = some a) :
    (p.cancel t).isCancelled t = true :=
  isCancelled_eq_true.mpr ⟨_, getElem?_cancel.mpr ⟨a, ha, rfl⟩, by simp⟩

/-! ## Not cancelled by others -/

theorem isCancelled_modify {f : Task ρ → Task ρ} (hf : ∀ a, (f a).cancelled = a.cancelled)
    (t u : Ticket) (p : Pool ρ) : (p.modify t f).isCancelled u = p.isCancelled u := by
  simp only [isCancelled, modify, List.getElem?_modify]
  cases p.tasks[u]? with
  | none => rfl
  | some a =>
    simp only [Option.map_some, Option.getD_some]
    split
    · exact hf a
    · rfl

theorem isCancelled_resolve (uri : String) (reply : ρ) (u : Ticket) (p : Pool ρ) :
    (p.resolve uri reply).2.isCancelled u = p.isCancelled u := by
  unfold resolve
  split
  · exact isCancelled_modify (by simp) _ u _
  · rfl

theorem isCancelled_answer (t : Ticket) (reply : ρ) (u : Ticket) (p : Pool ρ) :
    (p.answer t reply).2.isCancelled u = p.isCancelled u := by
  unfold answer
  split
  · exact isCancelled_modify (by simp) _ u _
  · rfl

theorem isCancelled_start {u : Ticket} {a : Task ρ} (ha : p.tasks[u]? = some a) (id : RequestId)
    (d : Document) : (p.start id d).2.isCancelled u = p.isCancelled u := by
  rw [isCancelled_of_task ha, isCancelled_of_task (getElem?_start.mpr (Or.inl ha))]

theorem isCancelled_cancel_of_ne {t u : Ticket} (htu : t ≠ u) (p : Pool ρ) :
    (p.cancel t).isCancelled u = p.isCancelled u := by
  simp [isCancelled, cancel, modify, htu]

/-- A turn cancels only whom the reply that is taken cancels. -/
theorem isCancelled_progress {u : Ticket} (hcancels : ∀ reply, m.cancels reply ≠ some u)
    (t : Ticket) (p : Pool ρ) : (p.progress m t).isCancelled u = p.isCancelled u := by
  cases htask : p.tasks[t]? with
  | none => rw [progress_of_none m htask]
  | some task =>
    have hturn := turn_progress m htask
    generalize p.progress m t = q at hturn
    cases hturn with
    | rest _ => rfl
    | quit backend _ _ _ => exact isCancelled_modify (by simp) t u _
    | call backend _ _ _ => exact isCancelled_modify (by simp) t u _
    | take reply backend calls _ _ _ _ =>
      have hfinish : ∀ p : Pool ρ, (p.finish t).isCancelled u = p.isCancelled u :=
        isCancelled_modify (by simp) t u
      have hheed : ∀ p : Pool ρ, (p.heed m reply).isCancelled u = p.isCancelled u := by
        intro p
        unfold heed
        split
        · rename_i other hother
          refine isCancelled_cancel_of_ne ?_ p
          rintro rfl
          exact hcancels reply hother
        · rfl
      unfold Pool.isCancelled at hheed hfinish ⊢
      rw [tasks_takeReply, hheed, hfinish]

end Pool

end CoverageTracker
