import CoverageTracker.Status
import Mathlib.Tactic.SplitIfs
set_option autoImplicit false

/-!
# Reading the status line back

The digits of a status line are those of its percentage (`digits_line`), and what is left without
them says which of its parts are there (`words_line`).  So a line tells everything that it is made
of (`line_inj`), as long as a status without a percentage is one of a computation under way: the
line of a status without a percentage says that it is being computed, whether or not it is.
-/

namespace CoverageTracker.Status

/-- The line of a whole percentage, if there is one. -/
def line (percent : Option Nat) (computing showing : Bool) : String :=
  (match percent with
    | some n => "Coverage: " ++ toString n ++ "%" ++ if computing then " (computing)" else ""
    | none => "Coverage: computing") ++
  if showing then " (showing uncovered)" else ""

theorem text_eq_line (s : Status) :
    s.text = line (s.percent.map Binary64.nearestByte) s.computing s.showing := by
  unfold text
  cases s.percent <;> rfl

/-- What stands in a line around its digits. -/
def words (known computing showing : Bool) : List Char :=
  (if known then "Coverage: %".toList ++ (if computing then " (computing)".toList else [])
    else "Coverage: computing".toList) ++
  if showing then " (showing uncovered)".toList else []

variable {percent percent' : Option Nat} {computing computing' showing showing' : Bool}

theorem toList_toString (n : Nat) : (toString n).toList = Nat.toDigits 10 n := by
  rw [Nat.toString_eq_ofList_toDigits, String.toList_ofList]

theorem isDigit_of_mem {n : Nat} {c : Char} (h : c ∈ Nat.toDigits 10 n) : c.isDigit = true :=
  Nat.isDigit_of_mem_toDigits (by decide) (by decide) h

theorem toList_line_some (n : Nat) (computing showing : Bool) :
    (line (some n) computing showing).toList =
      "Coverage: ".toList ++ Nat.toDigits 10 n ++ "%".toList ++
        (if computing then " (computing)" else "").toList ++
          (if showing then " (showing uncovered)" else "").toList := by
  unfold line
  simp only [String.toList_append]
  rw [toList_toString]

/-- The digits of a line are those of its percentage. -/
theorem digits_line (percent : Option Nat) (computing showing : Bool) :
    (line percent computing showing).toList.filter Char.isDigit =
      (percent.map (Nat.toDigits 10)).getD [] := by
  cases percent with
  | none => cases computing <;> cases showing <;> decide +kernel
  | some n =>
    have hdigits : (Nat.toDigits 10 n).filter Char.isDigit = Nat.toDigits 10 n :=
      List.filter_eq_self.2 fun _ => isDigit_of_mem
    have hbefore : "Coverage: ".toList.filter Char.isDigit = [] := by decide +kernel
    have hafter : ("%".toList ++ (if computing then " (computing)" else "").toList ++
        (if showing then " (showing uncovered)" else "").toList).filter Char.isDigit = [] := by
      cases computing <;> cases showing <;> decide +kernel
    rw [toList_line_some, List.append_assoc, List.append_assoc, ← List.append_assoc "%".toList,
      List.filter_append, List.filter_append, hbefore, hdigits, hafter, List.append_nil]
    rfl

/-- Without its digits a line says which of its parts are there. -/
theorem words_line (percent : Option Nat) (computing showing : Bool) :
    (line percent computing showing).toList.filter (fun c => !c.isDigit) =
      words percent.isSome computing showing := by
  cases percent with
  | none => cases computing <;> cases showing <;> decide +kernel
  | some n =>
    have hdigits : (Nat.toDigits 10 n).filter (fun c => !c.isDigit) = [] := by
      refine List.filter_eq_nil_iff.2 fun c hc => ?_
      simp [isDigit_of_mem hc]
    rw [toList_line_some, List.filter_append, List.filter_append, List.filter_append,
      List.filter_append, hdigits, List.append_nil, Option.isSome_some]
    cases computing <;> cases showing <;> decide +kernel

theorem words_inj {known known' computing computing' showing showing' : Bool}
    (h : known = false → computing = true) (h' : known' = false → computing' = true)
    (hwords : words known computing showing = words known' computing' showing') :
    showing = showing' ∧ computing = computing' := by
  revert h h' hwords
  revert known known' computing computing' showing showing'
  decide +kernel

theorem toDigits_inj {m n : Nat} (h : Nat.toDigits 10 m = Nat.toDigits 10 n) : m = n := by
  have hread := congrArg (fun ds => Nat.ofDigitChars 10 ds 0) h
  simpa only [Nat.ofDigitChars_ten_toDigits] using hread

/-- A line tells its percentage, that it is being computed, and that uncovered ranges are shown. -/
theorem line_inj (h : percent = none → computing = true)
    (h' : percent' = none → computing' = true) :
    line percent computing showing = line percent' computing' showing' ↔
      showing = showing' ∧ computing = computing' ∧ percent = percent' := by
  constructor
  · intro hline
    have hdigits := congrArg (fun s => s.toList.filter Char.isDigit) hline
    have hwords := congrArg (fun s => s.toList.filter (fun c => !c.isDigit)) hline
    simp only [digits_line] at hdigits
    simp only [words_line] at hwords
    obtain ⟨hshowing, hcomputing⟩ := words_inj (by simpa using h) (by simpa using h') hwords
    refine ⟨hshowing, hcomputing, ?_⟩
    cases percent with
    | none =>
      cases percent' with
      | none => rfl
      | some n => exact absurd hdigits.symm Nat.toDigits_ne_nil
    | some m =>
      cases percent' with
      | none => exact absurd hdigits Nat.toDigits_ne_nil
      | some n => exact congrArg some (toDigits_inj hdigits)
  · rintro ⟨rfl, rfl, rfl⟩
    rfl

end CoverageTracker.Status
