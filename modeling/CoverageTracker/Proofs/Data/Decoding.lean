import CoverageTracker.Data.Decode
import Mathlib.Data.List.Forall2
set_option autoImplicit false

/-!
# What decoders accept

When each way of putting decoders together is successful, and with what result.  A field of a record
is read from what is found at its place, if anything is (`field_eq_ok`, `item_eq_ok`), and a list item
by item (`mapM_eq_ok`); so a decoder accepts what the parts that it reads say, whatever it says of
the others.
-/

namespace CoverageTracker

/-- A text is read as the URI that keeps it. -/
theorem Uri.parse_eq_ok {text : String} {uri : Uri} : Uri.parse text = .ok uri ↔ uri.text = text := by
  unfold Uri.parse
  split
  case h_1 hvalid =>
    rw [Except.ok.injEq]
    exact ⟨fun h => h ▸ rfl, fun h => by cases uri; cases h; rfl⟩
  case h_2 fault hfault =>
    refine iff_of_false (by simp) fun h => ?_
    rw [← h, uri.valid] at hfault
    cases hfault

namespace Data

variable {α β : Type} {read : Value → Decoded α} {es : List (String × Value)} {vs : List Value}

namespace Decoded

variable {ε : Type}

theorem bind_eq_ok {x : Except ε α} {f : α → Except ε β} {b : β} :
    (x >>= f) = .ok b ↔ ∃ a, x = .ok a ∧ f a = .ok b := by
  cases x <;> simp [bind, Except.bind]

theorem pure_eq_ok {a b : α} : (pure a : Except ε α) = .ok b ↔ a = b := by
  simp [pure, Except.pure]

theorem map_eq_ok {x : Except ε α} {f : α → β} {b : β} :
    x.map f = .ok b ↔ ∃ a, x = .ok a ∧ f a = b := by
  cases x <;> simp [Except.map]

/-- A list is read if each of its items is. -/
theorem mapM_eq_ok {f : α → Except ε β} {as : List α} {bs : List β} :
    as.mapM f = .ok bs ↔ List.Forall₂ (fun a b => f a = .ok b) as bs := by
  induction as generalizing bs with
  | nil => rw [List.mapM_nil, pure_eq_ok, List.forall₂_nil_left_iff, eq_comm]
  | cons a as ih =>
    rw [List.mapM_cons, List.forall₂_cons_left_iff, bind_eq_ok]
    simp only [bind_eq_ok, pure_eq_ok, ih]
    constructor
    · rintro ⟨b, hb, bs', hbs, rfl⟩
      exact ⟨b, bs', hb, hbs, rfl⟩
    · rintro ⟨b, bs', hb, hbs, rfl⟩
      exact ⟨b, hb, bs', hbs, rfl⟩

/-- What is read from a list is read from its items. -/
theorem mem_of_mapM_eq_ok {f : α → Except ε β} {as : List α} {bs : List β}
    (h : as.mapM f = .ok bs) (b : β) : b ∈ bs ↔ ∃ a ∈ as, f a = .ok b := by
  rw [mapM_eq_ok] at h
  induction h with
  | nil => simp
  | cons ha _ ih => simp [ih, ha, eq_comm]

theorem exists_mapM_eq_ok {f : α → Except ε β} {as : List α} :
    (∃ bs, as.mapM f = .ok bs) ↔ ∀ a ∈ as, ∃ b, f a = .ok b := by
  induction as with
  | nil => simp [pure, Except.pure]
  | cons a as ih =>
    rw [List.forall_mem_cons, ← ih]
    simp only [mapM_eq_ok, List.forall₂_cons_left_iff]
    constructor
    · rintro ⟨_, b, bs, hb, hbs, rfl⟩
      exact ⟨⟨b, hb⟩, bs, hbs⟩
    · rintro ⟨⟨b, hb⟩, bs, hbs⟩
      exact ⟨_, b, bs, hb, hbs, rfl⟩

/-- A list is refused for the first item that is. -/
theorem mapM_eq_error {f : α → Except ε β} {as : List α} {e : ε} :
    as.mapM f = .error e ↔ ∃ before a after, as = before ++ a :: after ∧
      (∀ a' ∈ before, ∃ b, f a' = .ok b) ∧ f a = .error e := by
  induction as with
  | nil => simp [pure, Except.pure]
  | cons a as ih =>
    have hcons : (a :: as).mapM f = .error e ↔
        f a = .error e ∨ (∃ b, f a = .ok b) ∧ as.mapM f = .error e := by
      rw [List.mapM_cons]
      cases f a <;> cases as.mapM f <;> simp [bind, Except.bind, pure, Except.pure]
    rw [hcons, ih]
    constructor
    · rintro (ha | ⟨ha, before, a', after, rfl, hbefore, ha'⟩)
      · exact ⟨[], a, as, rfl, by simp, ha⟩
      · exact ⟨a :: before, a', after, rfl, List.forall_mem_cons.2 ⟨ha, hbefore⟩, ha'⟩
    · rintro ⟨_ | ⟨_, before⟩, a', after, has, hbefore, ha'⟩
      · obtain ⟨rfl, -⟩ := List.cons.inj has
        exact .inl ha'
      · obtain ⟨rfl, rfl⟩ := List.cons.inj has
        obtain ⟨ha, hbefore⟩ := List.forall_mem_cons.1 hbefore
        exact .inr ⟨ha, before, a', after, rfl, hbefore, ha'⟩

end Decoded

open Decoded

/-! ## Scalars and lists -/

theorem Value.refuse_ne_ok (expected : String) (v : Value) (a : α) : v.refuse expected ≠ .ok a := by
  cases v <;> simp [Value.refuse]

/-! ## Fields -/

theorem rel_none {R : Value → α → Prop} {o : Option α} : Option.Rel R none o ↔ o = none := by
  constructor
  · rintro ⟨⟩
    rfl
  · rintro rfl
    exact .none

theorem rel_some {R : Value → α → Prop} {found : Option Value} {a : α} :
    Option.Rel R found (some a) ↔ ∃ v, found = some v ∧ R v a := by
  constructor
  · rintro ⟨h⟩
    exact ⟨_, rfl, h⟩
  · rintro ⟨v, rfl, h⟩
    exact .some h

theorem field_eq_ok {key : String} {o : Option α} :
    field es key read = .ok o ↔ Option.Rel (fun v a => read v = .ok a) (lookup es key) o := by
  unfold field
  cases lookup es key with
  | none => rw [rel_none, Except.ok.injEq, eq_comm]
  | some v => cases o <;> simp [map_eq_ok]

theorem item_eq_ok {index : Nat} {o : Option α} :
    item vs index read = .ok o ↔ Option.Rel (fun v a => read v = .ok a) vs[index]? o := by
  unfold item
  cases vs[index]? with
  | none => rw [rel_none, Except.ok.injEq, eq_comm]
  | some v => cases o <;> simp [map_eq_ok]

theorem require_eq_ok {key : String} {o : Option α} {a : α} :
    require key o = .ok a ↔ o = some a := by
  cases o <;> simp [require]

theorem requireItem_eq_ok {index : Nat} {expected : String} {a : α} :
    requireItem vs index expected read = .ok a ↔ ∃ v, vs[index]? = some v ∧ read v = .ok a := by
  unfold requireItem
  cases vs[index]? <;> simp

theorem atMost_eq_ok {fields : Nat} {u : Unit} : atMost fields vs = .ok u ↔ vs.length ≤ fields := by
  unfold atMost
  split <;> simp [*]

end Data

end CoverageTracker
