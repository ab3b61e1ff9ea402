import CoverageTracker.LanguageServer
import CoverageTracker.Proofs.Binary64.Rational
import CoverageTracker.Proofs.Session.Coherence
import CoverageTracker.Proofs.Status.Line
import Mathlib.Data.List.Induction
set_option autoImplicit false

/-!
# What the status line says

A result carries a number from zero to one hundred, so a status that is the one of some state shows
such a number or none (`State.percent_of_status`).  Whatever a backend replies and whatever is done,
nothing else is pushed (`exists_state_of_status`).  The line of a pushed status shows the nearest
whole number, and tells all there is to the status but the fraction of its percentage
(`status_line`).
-/

namespace CoverageTracker

variable {ρ : Type} {m : Meaning ρ} {settings : Settings}

/-! ## States -/

namespace State

variable {s : State} {status : Status}

theorem percent_of_status (h : s.status = some status) {p : Binary64}
    (hp : status.percent = some p) : p.isNaN = false ∧ 0 ≤ p.toRat ∧ p.toRat ≤ 100 := by
  unfold State.status at h
  split at h
  · cases h
  · split at h
    · cases h
    · cases h
      cases hp
    · rename_i c _
      cases h
      cases hp
      exact Binary64.isPercent_iff.1 c.isPercent

end State

namespace Session

/-- The store of diagnostics is released without a status. -/
theorem statuses_released (hrelease : Recorder.statuses [settings.release] = [])
    (move : Move ρ) (s : Session ρ) : Recorder.statuses (released settings move s) = [] := by
  unfold released
  split
  · split
    · rfl
    · exact hrelease
  · rfl

/-- Every status that a controller pushes is the one of a state. -/
theorem exists_state_of_status (m : Meaning ρ)
    (hrelease : Recorder.statuses [settings.release] = []) (showUncovered : Bool)
    (moves : List (Move ρ)) {status : Status}
    (h : some status ∈
      Recorder.statuses ((create showUncovered).playAll settings m moves).controller.sinks) :
    ∃ state : State, state.status = some status := by
  induction moves using List.reverseRecOn with
  | nil => cases h
  | append_singleton moves move ih =>
    rw [playAll_concat] at h
    cases hplay : ((create showUncovered).playAll settings m moves).play settings m move with
    | none =>
      rw [after_of_none hplay] at h
      exact ih h
    | some result =>
      obtain ⟨answer, s'⟩ := result
      rw [after_of_play hplay, sinks_play hplay, Recorder.statuses_append,
        Recorder.statuses_append, Recorder.statuses_rendered, statuses_released hrelease,
        List.append_nil, List.mem_append] at h
      rcases h with hbefore | hrendered
      · exact ih hbefore
      · obtain ⟨state, -, hstatus⟩ := List.mem_map.1 hrendered
        exact ⟨state, hstatus⟩

end Session

/-! ## Pushed statuses -/

namespace Status

/-- Some controller pushes a status, whatever it tracks, whatever its backend replies with, and
whatever happens to it.  The store of diagnostics is released without a status. -/
def IsPushed (status : Status) : Prop :=
  ∃ (ρ : Type) (m : Meaning ρ) (settings : Settings) (showUncovered : Bool) (moves : List (Move ρ)),
    Recorder.statuses [settings.release] = [] ∧
    some status ∈ Recorder.statuses
      ((Session.create showUncovered).playAll settings m moves).controller.sinks

variable {status : Status} {p : Binary64}

theorem IsPushed.exists_state (h : status.IsPushed) :
    ∃ state : State, state.status = some status := by
  obtain ⟨ρ, m, settings, showUncovered, moves, hrelease, hmem⟩ := h
  exact Session.exists_state_of_status m hrelease showUncovered moves hmem

theorem IsPushed.percent (h : status.IsPushed) (hp : status.percent = some p) :
    p.isNaN = false ∧ 0 ≤ p.toRat ∧ p.toRat ≤ 100 := by
  obtain ⟨state, hstatus⟩ := h.exists_state
  exact state.percent_of_status hstatus hp

theorem IsPushed.computing (h : status.IsPushed) (hp : status.percent = none) :
    status.computing = true := by
  obtain ⟨state, hstatus⟩ := h.exists_state
  exact state.computing_of_status hstatus hp

/-- The whole number in the line of a pushed status is the nearest one. -/
theorem IsPushed.rounded (h : status.IsPushed) :
    (status.percent.map Binary64.nearestByte).map Nat.cast =
      status.percent.map fun p => round p.toRat := by
  cases hp : status.percent with
  | none => rfl
  | some p =>
    obtain ⟨hnumber, hlow, hhigh⟩ := h.percent hp
    exact congrArg some (Binary64.nearestByte_eq_round hnumber hlow hhigh).1

end Status

/-- The percentage that is shown is a whole number from 0 to 100, and the status line is
unambiguous.  There is no result exactly for NaN, and otherwise its percentage is the nearest value
between zero and one hundred.  So whatever a backend supplies, a pushed status has no percentage or
one between zero and one hundred; the only number in its line is the nearest whole one, halves going
up, which grows with the percentage that was supplied; and two pushed statuses have the same line
exactly if they agree on all but the fraction of their percentages. -/
theorem status_line :
    (∀ p us, Coverage.ofPercent? p us = none ↔ p.isNaN = true) ∧
    (∀ p us c, Coverage.ofPercent? p us = some c →
      c.uncovered = us ∧ c.percent.isNaN = false ∧
      0 ≤ c.percent.toRat ∧ c.percent.toRat ≤ 100 ∧
      (0 ≤ p.toRat → p.toRat ≤ 100 → c.percent = p) ∧
      (p.toRat < 0 → c.percent = .zero) ∧
      (100 < p.toRat → c.percent = .hundred) ∧
      (p.isInfinite = true → c.percent = if p.isNegative then .zero else .hundred)) ∧
    (∀ p us c p' us' c', Coverage.ofPercent? p us = some c → Coverage.ofPercent? p' us' = some c' →
      p.toRat ≤ p'.toRat → round c.percent.toRat ≤ round c'.percent.toRat) ∧
    (∀ status : Status, status.IsPushed → ∀ p, status.percent = some p →
      p.isNaN = false ∧ 0 ≤ p.toRat ∧ p.toRat ≤ 100 ∧
      ∃ n : ℕ, (n : ℤ) = round p.toRat ∧ n ≤ 100 ∧
        status.text = "Coverage: " ++ toString n ++ "%" ++
          (if status.computing then " (computing)" else "") ++
          (if status.showing then " (showing uncovered)" else "") ∧
        status.text.toList.filter Char.isDigit = Nat.toDigits 10 n) ∧
    ∀ a b : Status, a.IsPushed → b.IsPushed →
      (a.text = b.text ↔ a.showing = b.showing ∧ a.computing = b.computing ∧
        (a.percent.map fun p => round p.toRat) = b.percent.map fun p => round p.toRat) := by
  refine ⟨fun p us => Coverage.ofPercent?_eq_none, ?_, ?_, ?_, ?_⟩
  · intro p us c h
    obtain ⟨hnumber, hlow, hhigh⟩ := Binary64.isPercent_iff.1 c.isPercent
    obtain ⟨hp, hpercent, huncovered⟩ := Coverage.ofPercent?_eq_some.1 h
    rw [hpercent] at hnumber hlow hhigh ⊢
    refine ⟨huncovered, hnumber, hlow, hhigh, Binary64.clampPercent_of_mem hp,
      Binary64.clampPercent_of_neg hp, Binary64.clampPercent_of_gt hp, fun hinfinite => ?_⟩
    have hbeyond := Binary64.toRat_of_isInfinite hinfinite
    split at hbeyond
    · rw [if_pos ‹_›]
      exact Binary64.clampPercent_of_neg hp hbeyond
    · rw [if_neg ‹_›]
      exact Binary64.clampPercent_of_gt hp hbeyond
  · intro p us c p' us' c' h h' hle
    obtain ⟨hp, hpercent, -⟩ := Coverage.ofPercent?_eq_some.1 h
    obtain ⟨hp', hpercent', -⟩ := Coverage.ofPercent?_eq_some.1 h'
    refine Binary64.round_mono ?_
    rw [hpercent, hpercent', Binary64.toRat_clampPercent hp, Binary64.toRat_clampPercent hp']
    exact max_le_max le_rfl (min_le_min le_rfl hle)
  · intro status hpushed p hp
    obtain ⟨hnumber, hlow, hhigh⟩ := hpushed.percent hp
    obtain ⟨hround, hbound⟩ := Binary64.nearestByte_eq_round hnumber hlow hhigh
    refine ⟨hnumber, hlow, hhigh, p.nearestByte, hround, hbound, ?_, ?_⟩
    · rw [status.text_eq_line, hp]
      rfl
    · rw [status.text_eq_line, hp, Status.digits_line]
      rfl
  · intro a b ha hb
    rw [a.text_eq_line, b.text_eq_line, Status.line_inj, ← ha.rounded, ← hb.rounded,
      (Option.map_injective Nat.cast_injective).eq_iff]
    · intro hp
      exact ha.computing (Option.map_eq_none_iff.1 hp)
    · intro hp
      exact hb.computing (Option.map_eq_none_iff.1 hp)

/-- A language server finds 86.6 percent, and another 87: both lines show 87. -/
theorem status_line_of_fraction :
    let a : Status := ⟨false, some ⟨0x4055A66666666666⟩, true⟩
    let b : Status := ⟨false, some ⟨0x4055C00000000000⟩, true⟩
    a.IsPushed ∧ b.IsPushed ∧ a.text = b.text ∧ a.text.toList.filter Char.isDigit = ['8', '7'] := by
  intro a b
  let d : Document := ⟨⟨"file:///a.js", rfl⟩, "javascript", none⟩
  let moves (x : Binary64) : List (Move LanguageServer.Reply) := [.connection true,
    .activate (some d), .resolve "file:///a.js" (.value (.table [("coveredPercent", .float x)])),
    .settle]
  have ha : a.IsPushed := ⟨_, LanguageServer.meaning, ⟨fun _ => true, .dispose⟩, true,
    moves ⟨0x4055A66666666666⟩, rfl, by decide +kernel⟩
  have hb : b.IsPushed := ⟨_, LanguageServer.meaning, ⟨fun _ => true, .dispose⟩, true,
    moves ⟨0x4055C00000000000⟩, rfl, by decide +kernel⟩
  obtain ⟨-, -, -, hshown, hsame⟩ := status_line
  obtain ⟨hnumber, hlow, hhigh, n, hround, -, -, hdigits⟩ := hshown a ha _ rfl
  have hbyte : Binary64.nearestByte ⟨0x4055A66666666666⟩ = 87 := by decide +kernel
  have hn : n = 87 := by
    have hnearest := (Binary64.nearestByte_eq_round hnumber hlow hhigh).1
    omega
  refine ⟨ha, hb, (hsame a b ha hb).2 ⟨rfl, rfl, ?_⟩, ?_⟩
  · rw [← ha.rounded, ← hb.rounded]
    decide +kernel
  · rw [hdigits, hn]
    decide +kernel

end CoverageTracker
