import CoverageTracker.Proofs.Pool.Tasks
import CoverageTracker.Proofs.Controller.Transitions
set_option autoImplicit false

/-!
# The queue of completions

Each reply that a task takes while it is not cancelled leaves one completion, and nothing else
does (`delivered`).  As long as somebody can receive them, completions leave the queue only by
being received, the oldest first; so those that were received and those that are queued, one after
the other, are all that were left, and none is lost, repeated or overtaken (`Accounted`).
-/

namespace CoverageTracker

namespace Pool

variable {ρ : Type} {m : Meaning ρ} {p q : Pool ρ} {received : List Completion}

/-- The completions that the tasks left, in order. -/
def delivered (m : Meaning ρ) (p : Pool ρ) : List Completion :=
  p.arrivals.filterMap fun a =>
    if a.cancelled then none else some ⟨a.request, Outcome.coverage (m.outcome a.reply)⟩

/-- All completions that were left were received, in this order, or are queued. -/
structure Accounted (m : Meaning ρ) (received : List Completion) (p : Pool ρ) : Prop where
  isOpen : p.isOpen = true
  delivered : p.delivered m = received ++ p.completions

namespace Accounted

theorem empty : Accounted m [] (Pool.empty : Pool ρ) := ⟨rfl, rfl⟩

/-- Tasks, turns and the backend do not matter. -/
theorem congr (h : Accounted m received p) (hopen : q.isOpen = p.isOpen)
    (harrivals : q.arrivals = p.arrivals) (hcompletions : q.completions = p.completions) :
    Accounted m received q where
  isOpen := hopen.trans h.isOpen
  delivered := by
    rw [Pool.delivered, harrivals, hcompletions]
    exact h.delivered

theorem cancelOf (h : Accounted m received p) (request : Option Request) :
    Accounted m received (p.cancelOf request) := by
  cases request with
  | none => exact h
  | some r => exact h.congr rfl rfl rfl

theorem start (h : Accounted m received p) (id : RequestId) (d : Document) :
    Accounted m received (p.start id d).2 := h.congr rfl rfl rfl

/-- The oldest completion is received. -/
theorem receive {x : Completion} {rest : List Completion} (h : Accounted m received p)
    (hqueue : p.completions = x :: rest) :
    Accounted m (received ++ [x]) { p with completions := rest } where
  isOpen := h.isOpen
  delivered := by
    have hdelivered : p.delivered m = received ++ [x] ++ rest := by
      rw [h.delivered, hqueue, List.append_assoc, List.singleton_append]
    exact hdelivered

/-! ## Steps of tasks -/

/-- The reply that is recorded and the completion that is queued go together. -/
theorem takeReply {t : Ticket} {task : Task ρ} (h : Accounted m received p) (reply : ρ) :
    Accounted m received (p.takeReply m t task reply) where
  isOpen := by rw [isOpen_takeReply, h.isOpen]
  delivered := by
    have hcompletions := completions_takeReply m reply p t task
    have hdelivered := h.delivered
    rw [Pool.delivered, arrivals_takeReply, List.filterMap_append, ← Pool.delivered]
    cases hlate : (p.takeReply m t task reply).isCancelled t with
    | true =>
      rw [hlate, if_neg (by simp)] at hcompletions
      rw [hcompletions, ← hdelivered]
      exact List.append_nil _
    | false =>
      rw [hlate, if_pos ⟨rfl, h.isOpen⟩] at hcompletions
      rw [hcompletions, ← List.append_assoc, ← hdelivered]
      rfl

theorem turn {t : Ticket} {task : Task ρ} (h : Accounted m received p) (hturn : Turn m t task p q) :
    Accounted m received q := by
  cases hturn with
  | rest _ => exact h.congr rfl rfl rfl
  | quit backend _ _ _ => exact h.congr rfl rfl rfl
  | call backend _ _ _ => exact h.congr rfl rfl rfl
  | take reply backend calls _ _ _ _ =>
    have hbefore : Accounted m received
        { p with runnable := p.runnable.erase t, calls, backend } := h.congr rfl rfl rfl
    exact hbefore.takeReply reply

theorem progress (h : Accounted m received p) (t : Ticket) :
    Accounted m received (p.progress m t) := by
  cases htask : p.tasks[t]? with
  | none =>
    rw [progress_of_none m htask]
    exact h
  | some task => exact h.turn (turn_progress m htask)

/-! ## Replies -/

theorem resolve (h : Accounted m received p) (uri : String) (reply : ρ) :
    Accounted m received (p.resolve uri reply).2 := by
  unfold Pool.resolve
  split
  · exact h.congr rfl rfl rfl
  · exact h.congr rfl rfl rfl

theorem answer (h : Accounted m received p) (t : Ticket) (reply : ρ) :
    Accounted m received (p.answer t reply).2 := by
  unfold Pool.answer
  split
  · exact h.congr rfl rfl rfl
  · exact h

end Accounted

end Pool

end CoverageTracker
