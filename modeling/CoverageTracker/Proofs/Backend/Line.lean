import CoverageTracker.Backend
set_option autoImplicit false

/-!
# The line of awaited calls

A call that nobody awaits any more stays in line until a reply passes over it, so the line
itself says little.  `awaiting` is the part of it that counts, and each operation of the
backend is described here by what it does to that part: `call` appends, `settle` takes one
call out of the middle, and `abandon` and `withdraw` take out the calls of one caller.
-/

namespace CoverageTracker.Backend

variable {ρ : Type}

/-- The calls that are still awaited, in the order in which they were made. -/
def awaiting (b : Backend ρ) : List Call := b.waiting.filter Call.awaited

theorem mem_awaiting {b : Backend ρ} {c : Call} :
    c ∈ b.awaiting ↔ c ∈ b.waiting ∧ c.awaited = true := by
  simp [awaiting]

theorem live_eq_length_awaiting (b : Backend ρ) : b.live = b.awaiting.length := by
  simp [live, awaiting, List.countP_eq_length_filter]

/-! ## Taking a call out of the line -/

/-- A call that is taken was awaited and is of the given URI; the other awaited calls stay in
line. -/
theorem filter_takeAwaited_of_some {uri : String} {t : Ticket} :
    ∀ {calls rest : List Call}, takeAwaited uri calls = (some t, rest) →
      ∃ before c after, calls.filter Call.awaited = before ++ c :: after ∧
        c.caller = t ∧ c.uri = uri ∧ rest.filter Call.awaited = before ++ after := by
  intro calls
  induction calls with
  | nil =>
    intro rest h
    simp [takeAwaited] at h
  | cons first calls ih =>
    intro rest h
    unfold takeAwaited at h
    split at h
    · rename_i huri
      split at h
      · rename_i hawaited
        simp only [Prod.mk.injEq, Option.some.injEq] at h
        obtain ⟨hcaller, hrest⟩ := h
        subst hrest
        exact ⟨[], first, calls.filter Call.awaited, by simp [hawaited], hcaller, huri, rfl⟩
      · rename_i hawaited
        obtain ⟨before, c, after, hcalls, hc⟩ := ih h
        exact ⟨before, c, after, by simp [hawaited, hcalls], hc⟩
    · cases htake : takeAwaited uri calls with
      | mk found left =>
        rw [htake] at h
        simp only [Prod.mk.injEq] at h
        obtain ⟨hfound, hrest⟩ := h
        subst hfound hrest
        obtain ⟨before, c, after, hcalls, hcaller, hc, hleft⟩ := ih htake
        by_cases hawaited : first.awaited = true
        · exact ⟨first :: before, c, after, by simp [hawaited, hcalls], hcaller, hc,
            by simp [hawaited, hleft]⟩
        · exact ⟨before, c, after, by simp [hawaited, hcalls], hcaller, hc,
            by simp [hawaited, hleft]⟩

/-- If no call is taken, only calls that nobody awaits leave the line. -/
theorem filter_takeAwaited_of_none {uri : String} :
    ∀ {calls rest : List Call}, takeAwaited uri calls = (none, rest) →
      rest.filter Call.awaited = calls.filter Call.awaited := by
  intro calls
  induction calls with
  | nil =>
    intro rest h
    simp only [takeAwaited, Prod.mk.injEq, true_and] at h
    rw [← h]
  | cons first calls ih =>
    intro rest h
    unfold takeAwaited at h
    split at h
    · split at h
      · simp at h
      · rename_i hawaited
        rw [ih h]
        simp [hawaited]
    · cases htake : takeAwaited uri calls with
      | mk found left =>
        rw [htake] at h
        simp only [Prod.mk.injEq] at h
        obtain ⟨hfound, hrest⟩ := h
        subst hfound hrest
        simp only [List.filter_cons, ih htake]

/-! ## Operations -/

/-- A reply that is handed over takes one awaited call of its URI out of the line. -/
theorem awaiting_settle_of_some {uri : String} {reply : ρ} {b b' : Backend ρ} {t : Ticket}
    (h : b.settle uri reply = (some t, b')) :
    ∃ before c after, b.awaiting = before ++ c :: after ∧ c.caller = t ∧ c.uri = uri ∧
      b'.awaiting = before ++ after := by
  unfold settle at h
  split at h
  · rename_i caller left htake
    simp only [Prod.mk.injEq, Option.some.injEq] at h
    obtain ⟨hcaller, hb⟩ := h
    subst hcaller hb
    exact filter_takeAwaited_of_some htake
  · simp at h

/-- A reply that is kept leaves every awaited call in line. -/
theorem awaiting_settle_of_none {uri : String} {reply : ρ} {b b' : Backend ρ}
    (h : b.settle uri reply = (none, b')) : b'.awaiting = b.awaiting := by
  unfold settle at h
  split at h
  · simp at h
  · rename_i left htake
    simp only [Prod.mk.injEq, true_and] at h
    subst h
    exact filter_takeAwaited_of_none htake

/-- A call that finds its reply ready never stands in line. -/
theorem awaiting_call_of_some {uri : String} {t : Ticket} {reply : ρ} {b b' : Backend ρ}
    (h : b.call uri t = (some reply, b')) : b'.awaiting = b.awaiting := by
  unfold call at h
  split at h
  · simp only [Prod.mk.injEq] at h
    rw [← h.2]
    rfl
  · simp at h

/-- A call without a reply stands at the end of the line. -/
theorem awaiting_call_of_none {uri : String} {t : Ticket} {b b' : Backend ρ}
    (h : b.call uri t = (none, b')) : b'.awaiting = b.awaiting ++ [⟨uri, t, true⟩] := by
  unfold call at h
  split at h
  · simp at h
  · simp only [Prod.mk.injEq, true_and] at h
    rw [← h]
    simp [awaiting]

@[simp] theorem awaiting_abandon (t : Ticket) (b : Backend ρ) :
    (b.abandon t).awaiting = b.awaiting.filter fun c => c.caller != t := by
  simp only [awaiting, abandon]
  induction b.waiting with
  | nil => rfl
  | cons c calls ih =>
    by_cases hcaller : c.caller = t
    · by_cases hawaited : c.awaited = true <;> simp [hcaller, hawaited, ih]
    · by_cases hawaited : c.awaited = true <;> simp [hcaller, hawaited, ih]

@[simp] theorem awaiting_withdraw (t : Ticket) (b : Backend ρ) :
    (b.withdraw t).awaiting = b.awaiting.filter fun c => c.caller != t := by
  simp only [awaiting, withdraw, List.filter_filter, Bool.and_comm]

end CoverageTracker.Backend
