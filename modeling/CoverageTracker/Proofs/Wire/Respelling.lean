import CoverageTracker.Proofs.Data.Respelling
import CoverageTracker.Wire
set_option autoImplicit false

/-!
# Other spellings of a reply

No decoder of a reply notices in which order the entries of a table stand
(`decodeResponse_of_reordered`), nor the fields that it does not know (`unnoticed_knownResponse`):
each reads a record by its fields, and so notices no difference that the readers of these do not
notice.
-/

namespace CoverageTracker.Wire

open CoverageTracker.Data Decoded

variable {v w : Value} {vs ws : List Value}

theorem told_atMost {n : Nat} (hlength : ws.length = vs.length) :
    (atMost n ws).told = (atMost n vs).told := by
  rw [atMost, atMost, hlength]

/-- Reads a text that may be absent. -/
abbrev asText : Value → Decoded (Option String) := Value.asOptional Value.asString

/-! ## Records -/

theorem unnoticed_decodePosition
    (h : AlikeRecord [("line", Unnoticed Value.asWord), ("character", Unnoticed Value.asWord)] v w) :
    Unnoticed decodePosition v w := by
  cases h with
  | same => rfl
  | table hfields =>
    have hline := told_field (hfields _ (.head _))
    have hcharacter := told_field (hfields _ (.tail _ (.head _)))
    exact told_bind hcharacter fun _ => told_bind hline fun _ => rfl
  | array hlength hitems =>
    have hline := hitems 0 _ rfl
    have hcharacter := hitems 1 _ rfl
    exact told_bind (told_requireItem hlength hline) fun _ =>
      told_bind (told_requireItem hlength hcharacter) fun _ =>
      told_bind (told_atMost hlength) fun _ => rfl

theorem unnoticed_decodeRange
    (h : AlikeRecord [("start", Unnoticed decodePosition), ("end", Unnoticed decodePosition)] v w) :
    Unnoticed decodeRange v w := by
  cases h with
  | same => rfl
  | table hfields =>
    have hstart := told_field (hfields _ (.head _))
    have hstop := told_field (hfields _ (.tail _ (.head _)))
    exact told_bind hstop fun _ => told_bind hstart fun _ => rfl
  | array hlength hitems =>
    have hstart := hitems 0 _ rfl
    have hstop := hitems 1 _ rfl
    exact told_bind (told_requireItem hlength hstart) fun _ =>
      told_bind (told_requireItem hlength hstop) fun _ =>
      told_bind (told_atMost hlength) fun _ => rfl

theorem unnoticed_decodeUncovered
    (h : AlikeRecord [("range", Unnoticed decodeRange), ("message", Unnoticed asText)] v w) :
    Unnoticed decodeUncovered v w := by
  cases h with
  | same => rfl
  | table hfields =>
    have hrange := told_field (hfields _ (.head _))
    have hmessage := told_field (hfields _ (.tail _ (.head _)))
    exact told_bind hmessage fun _ => told_bind hrange fun _ => rfl
  | array hlength hitems =>
    have hrange := hitems 0 _ rfl
    have hmessage := told_item (hitems 1 _ rfl)
    exact told_bind (told_requireItem hlength hrange) fun _ => told_bind hmessage fun _ =>
      told_bind (told_atMost hlength) fun _ => rfl

theorem unnoticed_decodeResponse
    (h : AlikeRecord [("coveredPercent", Unnoticed Value.asFloat),
      ("uncoveredRanges", Unnoticed (Value.asList decodeUncovered)),
      ("defaultMessage", Unnoticed asText)] v w) :
    Unnoticed Response.decode v w := by
  cases h with
  | same => rfl
  | table hfields =>
    have hpercent := told_field (hfields _ (.head _))
    have huncovered := told_field (hfields _ (.tail _ (.head _)))
    have hmessage := told_field (hfields _ (.tail _ (.tail _ (.head _))))
    exact told_bind hpercent fun _ => told_bind hmessage fun _ => told_bind huncovered fun _ => rfl
  | array hlength hitems =>
    have hpercent := hitems 0 _ rfl
    have huncovered := told_item (hitems 1 _ rfl)
    have hmessage := told_item (hitems 2 _ rfl)
    exact told_bind (told_requireItem hlength hpercent) fun _ => told_bind huncovered fun _ =>
      told_bind hmessage fun _ => told_bind (told_atMost hlength) fun _ => rfl

/-! ## Reordered tables -/

theorem asWord_of_reordered (v w : Value) (h : Reordered v w) : Unnoticed Value.asWord v w := by
  cases h <;> rfl

theorem asFloat_of_reordered (v w : Value) (h : Reordered v w) : Unnoticed Value.asFloat v w := by
  cases h <;> rfl

theorem asText_of_reordered (v w : Value) (h : Reordered v w) : Unnoticed asText v w := by
  cases h <;> rfl

theorem decodePosition_of_reordered (v w : Value) (h : Reordered v w) :
    Unnoticed decodePosition v w :=
  unnoticed_decodePosition (h.alikeRecord (by simpa using asWord_of_reordered))

theorem decodeRange_of_reordered (v w : Value) (h : Reordered v w) : Unnoticed decodeRange v w :=
  unnoticed_decodeRange (h.alikeRecord (by simpa using decodePosition_of_reordered))

theorem decodeUncovered_of_reordered (v w : Value) (h : Reordered v w) :
    Unnoticed decodeUncovered v w := by
  refine unnoticed_decodeUncovered (h.alikeRecord ?_)
  simpa using ⟨decodeRange_of_reordered, asText_of_reordered⟩

theorem decodeResponse_of_reordered (v w : Value) (h : Reordered v w) :
    Unnoticed Response.decode v w := by
  refine unnoticed_decodeResponse (h.alikeRecord ?_)
  have huncovered (v w : Value) (h : Reordered v w) :
      Unnoticed (Value.asList decodeUncovered) v w :=
    h.unnoticed_asList decodeUncovered_of_reordered
  simpa using ⟨asFloat_of_reordered, huncovered, asText_of_reordered⟩

/-! ## Fields that are not known -/

/-- A position without the fields that are not known. -/
def knownPosition : Value → Value := keep [("line", id), ("character", id)]

/-- A range without the fields that are not known. -/
def knownRange : Value → Value := keep [("start", knownPosition), ("end", knownPosition)]

/-- An uncovered range without the fields that are not known. -/
def knownUncovered : Value → Value := keep [("range", knownRange), ("message", id)]

/-- A reply without the fields that are not known. -/
def knownResponse : Value → Value :=
  keep [("coveredPercent", id), ("uncoveredRanges", onItems knownUncovered), ("defaultMessage", id)]

theorem unnoticed_knownPosition (v : Value) : Unnoticed decodePosition v (knownPosition v) :=
  unnoticed_decodePosition (alikeRecord_keep (by decide)
    (.cons ⟨rfl, fun _ => rfl⟩ (.cons ⟨rfl, fun _ => rfl⟩ .nil)) v)

theorem unnoticed_knownRange (v : Value) : Unnoticed decodeRange v (knownRange v) :=
  unnoticed_decodeRange (alikeRecord_keep (by decide)
    (.cons ⟨rfl, unnoticed_knownPosition⟩ (.cons ⟨rfl, unnoticed_knownPosition⟩ .nil)) v)

theorem unnoticed_knownUncovered (v : Value) : Unnoticed decodeUncovered v (knownUncovered v) :=
  unnoticed_decodeUncovered (alikeRecord_keep (by decide)
    (.cons ⟨rfl, unnoticed_knownRange⟩ (.cons ⟨rfl, fun _ => rfl⟩ .nil)) v)

theorem unnoticed_knownResponse (v : Value) : Unnoticed Response.decode v (knownResponse v) :=
  unnoticed_decodeResponse (alikeRecord_keep (by decide)
    (.cons ⟨rfl, fun _ => rfl⟩ (.cons ⟨rfl, unnoticed_onItems unnoticed_knownUncovered⟩
      (.cons ⟨rfl, fun _ => rfl⟩ .nil))) v)

end CoverageTracker.Wire
