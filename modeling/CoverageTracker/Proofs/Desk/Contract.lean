import CoverageTracker.Proofs.Desk.Delivery
import Mathlib.Data.List.Induction
set_option autoImplicit false

/-!
# The contract of a request

Whose completions are sent, what they bring, and who can still open them.  Every completion is of a
request that was started (`starts_of_task`), and every reply that a call returns with was given to
that call (`supplied_performAll`).  A request that is cancelled before its first turn never calls the
backend (`unasked_of_cancelled`), and what is queued or held was sent (`mem_outstanding`).
-/

namespace CoverageTracker.Desk

variable {ρ : Type} {m : Meaning ρ} {d : Desk ρ} {errand : Errand ρ} {errands : List (Errand ρ)}
  {p : Pool (Cued ρ)} {t : Ticket} {x : Completion}

/-! ## Started requests -/

/-- Errands, done at an empty desk, start a request. -/
def Starts (m : Meaning ρ) (errands : List (Errand ρ)) (r : Request) : Prop :=
  ∃ before name id document after, errands = before ++ .start name id document :: after ∧
    r = (((empty : Desk ρ).performAll m before).start name id document).1

theorem Starts.append {r : Request} (h : Starts m errands r) (later : List (Errand ρ)) :
    Starts m (errands ++ later) r := by
  obtain ⟨before, name, id, document, after, rfl, hr⟩ := h
  exact ⟨before, name, id, document, after ++ later, by simp, hr⟩

/-- A task was there before, or is the one that was just started. -/
theorem Change.origin (h : Change m d errand p) (hline : d.pool.Lined) {b : Task (Cued ρ)}
    (hb : p.tasks[t]? = some b) :
    (∃ a, d.pool.tasks[t]? = some a ∧ b.request t = a.request t) ∨
      ∃ name id document, errand = .start name id document ∧
        b.request t = (d.start name id document).1 := by
  have hevolves : Pool.Evolves (d.meaning m) d.pool p →
      ∃ a, d.pool.tasks[t]? = some a ∧ b.request t = a.request t := by
    intro hevolves
    obtain ⟨a, ha, hab⟩ := hevolves.becomes_of_later hb
    exact ⟨a, ha, hab.request t⟩
  cases h with
  | start name id document =>
    rcases Pool.getElem?_start.mp hb with ha | ⟨rfl, rfl⟩
    · exact Or.inl ⟨b, ha, rfl⟩
    · exact Or.inr ⟨name, id, document, rfl, rfl⟩
  | cancel name r _ => exact Or.inl (hevolves (Pool.evolves_cancel r.ticket d.pool))
  | resolve uri reply => exact Or.inl (hevolves (Pool.evolves_resolve hline uri reply))
  | answer u reply => exact Or.inl (hevolves (Pool.evolves_answer u reply d.pool))
  | progress u => exact Or.inl (hevolves (Pool.evolves_progress u d.pool))
  | requeue _ completions isOpen _ => exact Or.inl ⟨b, hb, rfl⟩

theorem starts_of_task (m : Meaning ρ) (errands : List (Errand ρ)) {a : Task (Cued ρ)}
    (ha : ((empty : Desk ρ).performAll m errands).pool.tasks[t]? = some a) :
    Starts m errands (a.request t) := by
  induction errands using List.reverseRecOn generalizing a with
  | nil => cases ha
  | append_singleton errands errand ih =>
    rw [performAll_concat] at ha
    have hline := (orderly_empty.performAll m errands).lined
    rcases (change_perform m errand _).origin hline ha with ⟨b, hb, hrequest⟩ |
        ⟨name, id, document, rfl, hrequest⟩
    · rw [hrequest]
      exact (ih hb).append [errand]
    · exact ⟨errands, name, id, document, [], rfl, hrequest⟩

/-- A completion that was sent is of a task that is there. -/
theorem task_of_sent (hd : d.Orderly) (hx : x ∈ sent m errands d) :
    ∃ a, (d.performAll m errands).pool.tasks[x.ticket]? = some a ∧
      x.request = a.request x.ticket := by
  obtain ⟨before, t, after, rfl, task, reply, htask, _, _, _, rfl⟩ := mem_sent.mp hx
  have hgrows := (hd.performAll m before).grows m (.progress t :: after)
  rw [← performAll_append] at hgrows
  obtain ⟨b, hb, hab⟩ := hgrows t task htask
  exact ⟨b, hb, (hab.request t).symm⟩

theorem task_start (name : String) (id : RequestId) (document : Document) (d : Desk ρ) :
    (d.perform m (.start name id document)).pool.tasks[d.pool.tasks.length]? =
      some ⟨id, document, false, .queued⟩ :=
  Pool.getElem?_start.mpr (Or.inr ⟨rfl, rfl⟩)

/-- A request that was started stays the one of its ticket. -/
theorem task_of_start (m : Meaning ρ) (hd : d.Orderly) (name : String) (id : RequestId)
    (document : Document) (errands : List (Errand ρ)) :
    ∃ a, (d.performAll m (.start name id document :: errands)).pool.tasks[
        d.pool.tasks.length]? = some a ∧
      a.request d.pool.tasks.length = (d.start name id document).1 := by
  have hgrows := (hd.perform m (.start name id document)).grows m errands
  obtain ⟨b, hb, hab⟩ := hgrows _ _ (task_start name id document d)
  exact ⟨b, hb, hab.request _⟩

/-! ## Replies -/

theorem supplied_performAll (m : Meaning ρ) (errands : List (Errand ρ)) :
    ((empty : Desk ρ).performAll m errands).pool.Supplied
      (fun uri reply => .resolve uri reply ∈ errands) fun t reply => .answer t reply ∈ errands := by
  refine (performAll_induction (P := fun k : Desk ρ => k.Orderly ∧ k.pool.Supplied
      (fun uri reply => .resolve uri reply ∈ errands) fun t reply => .answer t reply ∈ errands)
    ?_ ⟨orderly_empty, .empty⟩).2
  rintro errand herrand k ⟨hk, hsupplied⟩
  refine ⟨hk.perform m errand, ?_⟩
  have hchange := change_perform m errand k
  generalize (k.perform m errand).pool = p at hchange
  cases hchange with
  | start name id document => exact hsupplied.start id document
  | cancel name r _ => exact hsupplied.cancel r.ticket
  | resolve uri reply => exact hsupplied.resolve hk.lined herrand
  | answer t reply => exact hsupplied.answer herrand
  | progress t => exact hsupplied.progress t
  | requeue _ completions isOpen _ => exact ⟨hsupplied.ready, hsupplied.answered⟩

/-! ## Requests that are cancelled before their first turn -/

theorem unasked_perform (hd : d.Orderly) (h : d.pool.Unasked t)
    (herrand : errand = .progress t → d.pool.isCancelled t = true) :
    (d.perform m errand).pool.Unasked t := by
  have hchange := change_perform m errand d
  generalize (d.perform m errand).pool = p at hchange
  cases hchange with
  | start name id document => exact h.start id document
  | cancel name r _ => exact h.cancel r.ticket
  | resolve uri reply => exact h.resolve hd.lined uri reply
  | answer u reply => exact h.answer u reply
  | progress u => exact h.progress fun hut => herrand (by rw [hut])
  | requeue _ completions isOpen _ => exact ⟨h.uncalled, h.phase⟩

/-- Until the first turn of its task a request has not called the backend. -/
theorem unasked_of_start (hd : d.Orderly) (name : String) (id : RequestId) (document : Document)
    (herrands : ∀ errand ∈ errands, errand ≠ .progress d.pool.tasks.length) :
    (d.performAll m (.start name id document :: errands)).pool.Unasked d.pool.tasks.length := by
  have hstart : (d.perform m (.start name id document)).pool.Unasked d.pool.tasks.length := by
    refine ⟨?_, ⟨_, task_start name id document d, Or.inl rfl⟩⟩
    intro r hr
    obtain ⟨a, ha⟩ := hd.called r hr
    exact Nat.ne_of_lt (List.getElem?_eq_some_iff.mp ha).1
  refine (performAll_induction (P := fun k : Desk ρ => k.Orderly ∧
    k.pool.Unasked d.pool.tasks.length) ?_ ⟨hd.perform m _, hstart⟩).2
  rintro errand herrand k ⟨hk, hunasked⟩
  exact ⟨hk.perform m errand, unasked_perform hk hunasked fun hturn =>
    absurd hturn (herrands errand herrand)⟩

/-- Once it is cancelled before that, it never will. -/
theorem unasked_of_cancelled (hd : d.Orderly) (h : d.pool.Unasked t)
    (hcancelled : d.pool.isCancelled t = true) (errands : List (Errand ρ)) :
    (d.performAll m errands).pool.Unasked t := by
  refine (performAll_induction (P := fun k : Desk ρ => k.Orderly ∧ k.pool.Unasked t ∧
    k.pool.isCancelled t = true) ?_ ⟨hd, h, hcancelled⟩).2.1
  rintro errand _ k ⟨hk, hunasked, hcancelled⟩
  exact ⟨hk.perform m errand, unasked_perform hk hunasked fun _ => hcancelled,
    ((change_perform m errand k).grows hk.lined).isCancelled hcancelled⟩

/-! ## Completions that are at hand -/

/-- The completions that are queued or held. -/
def outstanding (d : Desk ρ) : List Completion := d.pool.completions ++ d.held.contents

theorem mem_completions_perform (hx : x ∈ (d.perform m errand).pool.completions) :
    x ∈ d.pool.completions ∨ x ∈ d.queued m errand := by
  rw [queued]
  have hchange := change_perform m errand d
  generalize (d.perform m errand).pool = p at hx hchange
  cases hchange with
  | start name id document => exact Or.inl hx
  | cancel name r _ => exact Or.inl hx
  | resolve uri reply => exact Or.inl (by simpa using hx)
  | answer t reply => exact Or.inl (by simpa using hx)
  | progress t =>
    obtain ⟨new, hnew, _⟩ := Pool.completions_progress (d.meaning m) t d.pool
    rw [hnew, List.drop_left]
    rw [hnew] at hx
    exact List.mem_append.mp hx
  | requeue _ completions isOpen hsuffix => exact Or.inl (hsuffix.subset hx)

/-- Only what was received is held. -/
theorem mem_held_perform (hx : x ∈ (d.perform m errand).held.contents) : x ∈ d.outstanding := by
  cases errand with
  | cancel name =>
    simp only [perform, Desk.cancel] at hx
    cases hname : d.named? name with
    | none =>
      rw [hname] at hx
      exact List.mem_append_right _ hx
    | some r =>
      rw [hname] at hx
      exact List.mem_append_right _ hx
  | receive =>
    simp only [perform, Desk.receive, Pool.receive] at hx
    cases hqueue : d.pool.completions with
    | nil =>
      rw [hqueue] at hx
      exact List.mem_append_right _ hx
    | cons y rest =>
      rw [hqueue] at hx
      simp only [Slots.contents_keep, List.mem_append, List.mem_singleton] at hx
      simp only [outstanding, hqueue, List.mem_append, List.mem_cons]
      tauto
  | openHeld slot =>
    simp only [perform, Desk.openHeld] at hx
    cases hslot : d.held.get? slot with
    | none =>
      rw [hslot] at hx
      exact List.mem_append_right _ hx
    | some y =>
      obtain ⟨before, after, hcontents, hclear⟩ := Slots.contents_clear hslot
      rw [hslot] at hx
      simp only [Option.map_some, Option.getD_some, hclear, List.mem_append] at hx
      simp only [outstanding, hcontents, List.mem_append, List.mem_cons]
      tauto
  | _ => exact List.mem_append_right _ hx

/-- Whatever is at hand was there before or was sent since. -/
theorem mem_outstanding (hx : x ∈ (d.performAll m errands).outstanding) :
    x ∈ d.outstanding ∨ x ∈ sent m errands d := by
  induction errands generalizing d with
  | nil => exact Or.inl hx
  | cons errand errands ih =>
    rw [sent, List.mem_append]
    rcases ih hx with hx | hx
    · rcases List.mem_append.mp hx with hx | hx
      · rcases mem_completions_perform hx with hx | hx
        · exact Or.inl (List.mem_append_left _ hx)
        · exact Or.inr (Or.inl hx)
      · exact Or.inl (mem_held_perform hx)
    · exact Or.inr (Or.inr hx)

theorem mem_contents_of_get? {slot : Nat} (h : d.held.get? slot = some x) :
    x ∈ d.outstanding := by
  obtain ⟨before, after, hcontents, _⟩ := Slots.contents_clear h
  refine List.mem_append_right _ ?_
  rw [hcontents]
  exact List.mem_append_right _ List.mem_cons_self

/-! ## The channel -/

theorem isOpen_perform (hd : d.Orderly) : (d.perform m errand).pool.isOpen = true ↔
    d.pool.isOpen = true ∧ .close ≠ errand := by
  have hevolves : ∀ q, Pool.Evolves (d.meaning m) d.pool q → q.isOpen = d.pool.isOpen :=
    fun q hq => hq.isOpen
  cases errand with
  | start name id document => simp [perform, Desk.start, Pool.start]
  | cancel name =>
    simp only [perform, Desk.cancel]
    cases d.named? name <;> simp [Pool.cancel, Pool.modify]
  | drop name => simp [perform, Desk.drop]
  | resolve uri reply =>
    simp [perform, Desk.resolve, hevolves _ (Pool.evolves_resolve hd.lined uri reply)]
  | answer t reply => simp [perform, hevolves _ (Pool.evolves_answer t reply d.pool)]
  | progress t => simp [perform, hevolves _ (Pool.evolves_progress t d.pool)]
  | receive =>
    simp only [perform, Desk.receive, Pool.receive]
    cases d.pool.completions <;> simp
  | openHeld slot =>
    simp only [perform, Desk.openHeld]
    cases d.held.get? slot <;> simp
  | close => simp [perform, Desk.close, Pool.close]

/-- The channel is open until it is closed. -/
theorem isOpen_performAll (hd : d.Orderly) (m : Meaning ρ) (errands : List (Errand ρ)) :
    (d.performAll m errands).pool.isOpen = true ↔ d.pool.isOpen = true ∧ .close ∉ errands := by
  induction errands generalizing d with
  | nil => simp [performAll]
  | cons errand errands ih =>
    have hnext := ih (hd.perform m errand)
    rw [isOpen_perform hd] at hnext
    rw [List.mem_cons, not_or, ← and_assoc]
    exact hnext

/-- The request of a name is cancelled as soon as its cancellation returns. -/
theorem Orderly.cancel (hd : d.Orderly) (m : Meaning ρ) {name : String} {r : Request}
    {k : Desk ρ} (h : d.cancel name = some (r, k)) :
    k.Orderly ∧ k.pool.isCancelled r.ticket = true := by
  have hperform : d.perform m (.cancel name) = k := by
    rw [Desk.perform, h]
    rfl
  refine ⟨hperform ▸ hd.perform m (.cancel name), ?_⟩
  obtain ⟨r', hname, hk⟩ := Option.map_eq_some_iff.mp h
  obtain ⟨rfl, rfl⟩ := Prod.mk.inj hk
  obtain ⟨a, ha⟩ := hd.named _ (mem_names_of_named hname)
  exact Pool.isCancelled_cancel ha

/-! ## The contract -/

/-- The delivery contract of requests that share a backend and a channel, in any order of starts,
cancellations, drops, replies, turns, receipts and closing.  Each request puts at most one
completion on the channel; it does so exactly in a turn in which its call returns, if it is not
cancelled when it looks after that and the channel has not been closed; and the completion has its
number and its document and what its own call came to, whose reply was given for its URI or to
itself.  A request that is cancelled before its first turn never calls the backend.  Dropping a
handle changes nothing in the pool, and whether its request is cancelled stays as it is from then
on.  A held completion was put on the channel, and when it is opened it yields the document and the
result exactly if the request is not cancelled; once a cancellation has returned, no completion of
the request yields anything any more. -/
theorem delivery_contract (m : Meaning ρ) (errands : List (Errand ρ)) :
    let d := (empty : Desk ρ).performAll m errands
    ((sent m errands empty).map Completion.ticket).Nodup ∧
    (∀ x, x ∈ sent m errands empty ↔ ∃ before t after, errands = before ++ .progress t :: after ∧
      ((empty : Desk ρ).performAll m before).Delivers m t x) ∧
    (d.pool.isOpen = true ↔ .close ∉ errands) ∧
    (∀ x ∈ sent m errands empty, Starts m errands x.request) ∧
    (∀ name id document after,
      let r := (d.start name id document).1
      let k := d.performAll m (.start name id document :: after)
      (∀ x ∈ sent m (errands ++ .start name id document :: after) empty, x.ticket = r.ticket →
        x.request.id = id ∧ x.request.document = document) ∧
      ((∀ errand ∈ after, errand ≠ .progress r.ticket) → k.pool.isCancelled r.ticket = true →
        ∀ later, ∀ call ∈ (k.performAll m later).pool.calls, call.ticket ≠ r.ticket)) ∧
    (∀ t task reply, d.pool.tasks[t]? = some task → d.pool.returned t = some reply →
      .resolve task.document.uri.text reply ∈ errands ∨ .answer t reply ∈ errands) ∧
    (∀ name r, d.named? name = some r →
      (d.drop name).2.pool = d.pool ∧
      ∀ later, ((d.drop name).2.performAll m later).pool.isCancelled r.ticket =
        d.pool.isCancelled r.ticket) ∧
    (∀ slot x, d.held.get? slot = some x → x ∈ sent m errands empty ∧
      (d.openHeld slot).map Prod.fst = some (if d.pool.isCancelled x.ticket then none
        else some (x.request.document, x.result))) ∧
    (∀ name r k, d.cancel name = some (r, k) → ∀ later x, x.ticket = r.ticket →
      (k.performAll m later).pool.openCompletion x = none) := by
  intro d
  have hd : d.Orderly := orderly_empty.performAll m errands
  refine ⟨sent_nodup orderly_empty errands, fun x => mem_sent, ?_, ?_, ?_, ?_, ?_, ?_, ?_⟩
  · have hopen := isOpen_performAll orderly_empty m errands
    rw [hopen]
    exact and_iff_right rfl
  · intro x hx
    obtain ⟨a, ha, hrequest⟩ := task_of_sent orderly_empty hx
    rw [hrequest]
    exact starts_of_task m errands ha
  · intro name id document after r k
    refine ⟨?_, ?_⟩
    · intro x hx hticket
      obtain ⟨a, ha, hrequest⟩ := task_of_sent orderly_empty hx
      obtain ⟨b, hb, hb'⟩ := task_of_start m hd name id document after
      have ha : k.pool.tasks[d.pool.tasks.length]? = some a := by
        rw [performAll_append, hticket] at ha
        exact ha
      rw [hb] at ha
      cases ha
      have hr : x.request = r := by
        rw [hrequest, hticket]
        exact hb'
      rw [hr]
      exact ⟨rfl, rfl⟩
    · intro hafter hcancelled later
      have hk : k.Orderly := hd.performAll m _
      exact (unasked_of_cancelled hk (unasked_of_start hd name id document hafter) hcancelled
        later).uncalled
  · intro t task reply htask hreturned
    exact (supplied_performAll m errands).of_returned htask hreturned
  · intro name r hname
    obtain ⟨a, ha⟩ := hd.named _ (mem_names_of_named hname)
    refine ⟨rfl, fun later => ?_⟩
    exact (nameless_drop hd hname).isCancelled_performAll (hd.perform m (.drop name)) ha m later
  · intro slot x hslot
    refine ⟨?_, by rw [openHeld, hslot]; rfl⟩
    rcases mem_outstanding (mem_contents_of_get? hslot) with hx | hx
    · cases hx
    · exact hx
  · intro name r k hcancel later x hticket
    obtain ⟨hk, hcancelled⟩ := hd.cancel m hcancel
    have hlater := (hk.grows m later).isCancelled hcancelled
    rw [← hticket] at hlater
    exact if_pos hlater

/-- Two requests with the same number and document.  The first is cancelled before its first turn and
never calls the backend; the second delivers the reply. -/
theorem delivery_contract_of_cancel :
    let document : Document := ⟨⟨"file:///a.js", rfl⟩, "javascript", none⟩
    let started : List (Errand Outcome) :=
      [.start "first" ⟨1⟩ document, .start "second" ⟨1⟩ document, .cancel "first"]
    let answered : List (Errand Outcome) :=
      [.progress 0, .progress 1, .resolve "file:///a.js" ⟨.ok none, none⟩, .progress 1]
    sent Meaning.direct (started ++ answered) empty = [⟨⟨1, ⟨1⟩, document⟩, none⟩] ∧
      ∀ later, ∀ call ∈ (((empty : Desk Outcome).performAll Meaning.direct started).performAll
        Meaning.direct later).pool.calls, call.ticket ≠ 0 := by
  intro document started answered
  have hcontract := delivery_contract Meaning.direct ([] : List (Errand Outcome))
  have hstarted := hcontract.2.2.2.2.1 "first" ⟨1⟩ document
    [.start "second" ⟨1⟩ document, .cancel "first"]
  refine ⟨by decide +kernel, ?_⟩
  exact hstarted.2 (by simp) (by decide +kernel)

end CoverageTracker.Desk
