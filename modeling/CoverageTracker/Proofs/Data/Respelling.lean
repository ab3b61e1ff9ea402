import CoverageTracker.Data.Decode
import Mathlib.Data.List.Forall2
import Mathlib.Data.List.Perm.Basic
set_option autoImplicit false

/-!
# What a reader does not notice

A reader does not notice the difference between two values if it reads the same thing from both or
refuses both with the same text (`Unnoticed`).  A record is read by its fields, so nobody notices
what else a table has, nor in which order (`AlikeRecord`): that is true of values whose tables are
reordered (`Reordered`) and of values without the fields that no reader knows (`keep`).
-/

namespace CoverageTracker.Data

variable {α β : Type} {read : Value → Decoded α} {v w : Value} {vs ws : List Value}
  {es fs : List (String × Value)}

/-- What a reader tells: what it read, or the text of its refusal. -/
def Decoded.told (x : Decoded α) : Except String α := x.mapError (DecodeError.message .json)

/-- A reader tells the same of two values. -/
def Unnoticed (read : Value → Decoded α) (v w : Value) : Prop := (read w).told = (read v).told

namespace Decoded

theorem told_bind {x y : Decoded α} {f g : α → Decoded β} (hx : y.told = x.told)
    (hf : ∀ a, (g a).told = (f a).told) : (y >>= g).told = (x >>= f).told := by
  cases x <;> cases y <;> simp_all [told, Except.mapError, bind, Except.bind]

theorem told_map {x y : Decoded α} (f : α → β) (hx : y.told = x.told) :
    told (y.map f) = told (x.map f) := by
  cases x <;> cases y <;> simp_all [told, Except.mapError, Except.map]

end Decoded

open Decoded

/-! ## Fields and items -/

theorem told_field {key : String}
    (h : Option.Rel (Unnoticed read) (lookup es key) (lookup fs key)) :
    (field fs key read).told = (field es key read).told := by
  unfold field
  revert h
  cases lookup es key <;> cases lookup fs key <;> rintro ⟨h⟩
  · rfl
  · exact told_map some ‹_›

theorem told_item {index : Nat} (h : Option.Rel (Unnoticed read) vs[index]? ws[index]?) :
    (item ws index read).told = (item vs index read).told := by
  unfold item
  revert h
  cases vs[index]? <;> cases ws[index]? <;> rintro ⟨h⟩
  · rfl
  · exact told_map some ‹_›

theorem told_requireItem {index : Nat} {expected : String} (hlength : ws.length = vs.length)
    (h : Option.Rel (Unnoticed read) vs[index]? ws[index]?) :
    (requireItem ws index expected read).told = (requireItem vs index expected read).told := by
  unfold requireItem
  rw [hlength]
  revert h
  cases vs[index]? <;> cases ws[index]? <;> rintro ⟨h⟩
  · rfl
  · exact ‹_›

theorem told_mapM (h : List.Forall₂ (Unnoticed read) vs ws) :
    (ws.mapM read).told = (vs.mapM read).told := by
  induction h with
  | nil => rfl
  | cons hv _ ih =>
    rw [List.mapM_cons, List.mapM_cons]
    exact told_bind hv fun a => told_bind ih fun as => rfl

/-! ## Records and lists -/

/-- Two values are tables in which each field that is known is there in both, and its reader does
not notice a difference, or in none; or they are arrays of the same length with such fields at their
places; or they are the same. -/
inductive AlikeRecord (keys : List (String × (Value → Value → Prop))) : Value → Value → Prop where
  | same (v : Value) : AlikeRecord keys v v
  | table {es fs : List (String × Value)}
    (hfields : ∀ k ∈ keys, Option.Rel k.2 (lookup es k.1) (lookup fs k.1)) :
    AlikeRecord keys (.table es) (.table fs)
  | array {vs ws : List Value} (hlength : ws.length = vs.length)
    (hitems : ∀ (i : Nat) (k : String × (Value → Value → Prop)), keys[i]? = some k →
      Option.Rel k.2 vs[i]? ws[i]?) :
    AlikeRecord keys (.array vs) (.array ws)

/-! ## Reordering -/

/-- Two values are the same up to the order of the entries in their tables, whose keys stand there
once. -/
inductive Reordered : Value → Value → Prop where
  | same (v : Value) : Reordered v v
  | array {vs ws : List Value} (hitems : List.Forall₂ Reordered vs ws) :
    Reordered (.array vs) (.array ws)
  | table {es fs gs : List (String × Value)} (hkeys : (es.map Prod.fst).Nodup) (hperm : es.Perm fs)
    (hsame : fs.map Prod.fst = gs.map Prod.fst)
    (hvalues : List.Forall₂ Reordered (fs.map Prod.snd) (gs.map Prod.snd)) :
    Reordered (.table es) (.table gs)

theorem lookup_cons {γ : Type} (e : String × γ) (entries : List (String × γ)) (key : String) :
    lookup (e :: entries) key = if e.1 = key then some e.2 else lookup entries key := by
  unfold lookup
  rw [List.find?_cons]
  by_cases h : e.1 = key
  · simp [h]
  · simp [h, beq_eq_false_iff_ne.2 h]

theorem lookup_eq_some {γ : Type} {es : List (String × γ)} (hkeys : (es.map Prod.fst).Nodup)
    {key : String} {v : γ} : lookup es key = some v ↔ (key, v) ∈ es := by
  induction es with
  | nil => simp [lookup]
  | cons e es ih =>
    rw [List.map_cons, List.nodup_cons] at hkeys
    rw [lookup_cons, List.mem_cons, ← ih hkeys.2]
    by_cases hkey : e.1 = key
    · -- the key does not stand behind its first entry
      have hbehind : lookup es key ≠ some v := fun h =>
        hkeys.1 (hkey ▸ List.mem_map_of_mem (f := Prod.fst) ((ih hkeys.2).1 h))
      simp [hkey, hbehind, Prod.ext_iff, eq_comm]
    · simp [hkey, Prod.ext_iff, Ne.symm hkey]

/-- A key that stands there once has its value wherever it stands. -/
theorem lookup_perm (hkeys : (es.map Prod.fst).Nodup) (hperm : es.Perm fs) (key : String) :
    lookup es key = lookup fs key := by
  have hkeys' : (fs.map Prod.fst).Nodup := (hperm.map Prod.fst).nodup_iff.1 hkeys
  refine Option.ext fun v => ?_
  rw [lookup_eq_some hkeys, lookup_eq_some hkeys', hperm.mem_iff]

theorem lookup_forall₂ {R : Value → Value → Prop} (hsame : es.map Prod.fst = fs.map Prod.fst)
    (hvalues : List.Forall₂ R (es.map Prod.snd) (fs.map Prod.snd)) (key : String) :
    Option.Rel R (lookup es key) (lookup fs key) := by
  induction es generalizing fs with
  | nil =>
    rw [List.map_nil, eq_comm, List.map_eq_nil_iff] at hsame
    rw [hsame]
    exact .none
  | cons e es ih =>
    obtain _ | ⟨f, fs⟩ := fs
    · cases hsame
    rw [List.map_cons, List.map_cons, List.cons.injEq] at hsame
    rw [List.map_cons, List.map_cons, List.forall₂_cons] at hvalues
    rw [lookup_cons, lookup_cons, hsame.1]
    split
    · exact .some hvalues.1
    · exact ih hsame.2 hvalues.2

theorem getElem?_forall₂ {R : α → β → Prop} {as : List α} {bs : List β} (h : List.Forall₂ R as bs)
    (i : Nat) : Option.Rel R as[i]? bs[i]? := by
  induction h generalizing i with
  | nil => exact .none
  | cons hab _ ih =>
    cases i with
    | zero => exact .some hab
    | succ i => exact ih i

theorem rel_imp {R S : Value → Value → Prop} {o p : Option Value} (h : ∀ v w, R v w → S v w) :
    Option.Rel R o p → Option.Rel S o p := by
  rintro (⟨hr⟩ | _)
  · exact .some (h _ _ hr)
  · exact .none

/-- Reordering changes no field of a record. -/
theorem Reordered.alikeRecord (h : Reordered v w) {keys : List (String × (Value → Value → Prop))}
    (hkeys : ∀ k ∈ keys, ∀ v w, Reordered v w → k.2 v w) : AlikeRecord keys v w := by
  cases h with
  | same => exact .same v
  | array hitems =>
    refine .array hitems.length_eq.symm fun i k hk => ?_
    exact rel_imp (hkeys k (List.mem_of_getElem? hk)) (getElem?_forall₂ hitems i)
  | table hnodup hperm hsame hvalues =>
    refine .table fun k hk => ?_
    rw [lookup_perm hnodup hperm]
    exact rel_imp (hkeys k hk) (lookup_forall₂ hsame hvalues k.1)

theorem Reordered.unnoticed_asList (h : Reordered v w)
    (hread : ∀ v w, Reordered v w → Unnoticed read v w) : Unnoticed (Value.asList read) v w := by
  cases h with
  | same => exact rfl
  | array hitems => exact told_mapM (hitems.imp hread)
  | table => exact rfl

/-! ## Fields that no reader knows -/

/-- A record without the fields that are not among these, each of them changed by its function. -/
def keep (keys : List (String × (Value → Value))) : Value → Value
  | .table es => .table (es.filterMap fun e => (lookup keys e.1).map fun f => (e.1, f e.2))
  | .array vs => .array (vs.mapIdx fun i v => (keys[i]?.map fun k => k.2 v).getD v)
  | v => v

/-- A list with its items changed. -/
def onItems (f : Value → Value) : Value → Value
  | .array vs => .array (vs.map f)
  | v => v

theorem lookup_keep {keys : List (String × (Value → Value))} {key : String} {f : Value → Value}
    (hkey : lookup keys key = some f) :
    lookup (es.filterMap fun e => (lookup keys e.1).map fun f => (e.1, f e.2)) key =
      (lookup es key).map f := by
  induction es with
  | nil => rfl
  | cons e es ih =>
    rw [List.filterMap_cons, lookup_cons]
    by_cases he : e.1 = key
    · rw [he, hkey, if_pos rfl, Option.map_some, Option.map_some, lookup_cons, if_pos rfl]
    · rw [if_neg he, ← ih]
      cases lookup keys e.1 with
      | none => rfl
      | some g => rw [Option.map_some, lookup_cons, if_neg he]

theorem unnoticed_onItems {f : Value → Value} (hread : ∀ v, Unnoticed read v (f v)) (v : Value) :
    Unnoticed (Value.asList read) v (onItems f v) := by
  cases v with
  | array vs =>
    refine told_mapM (List.forall₂_map_right_iff.2 ?_)
    exact List.forall₂_same.2 fun v _ => hread v
  | _ => exact rfl

/-- Nobody notices that fields are gone which are not known, nor how those that are known changed if
their readers do not. -/
theorem alikeRecord_keep {keys : List (String × (Value → Value → Prop))}
    {changes : List (String × (Value → Value))} (hchanges : (changes.map Prod.fst).Nodup)
    (h : List.Forall₂ (fun k f => k.1 = f.1 ∧ ∀ v, k.2 v (f.2 v)) keys changes) (v : Value) :
    AlikeRecord keys v (keep changes v) := by
  have hrel {R : Value → Value → Prop} {f : Value → Value} (hf : ∀ v, R v (f v))
      (o : Option Value) : Option.Rel R o (o.map f) := by
    cases o with
    | none => exact .none
    | some v => exact .some (hf v)
  have hchange (i : Nat) (k : String × (Value → Value → Prop)) (hk : keys[i]? = some k) :
      ∃ f, changes[i]? = some (k.1, f) ∧ ∀ v, k.2 v (f v) := by
    have hat := getElem?_forall₂ h i
    rw [hk] at hat
    rcases hf : changes[i]? with _ | ⟨key, f⟩ <;> rw [hf] at hat <;> cases hat
    obtain ⟨rfl, hunnoticed⟩ := ‹k.1 = key ∧ _›
    exact ⟨f, rfl, hunnoticed⟩
  cases v with
  | table es =>
    refine .table fun k hk => ?_
    obtain ⟨i, hi⟩ := List.getElem?_of_mem hk
    obtain ⟨f, hf, hunnoticed⟩ := hchange i k hi
    rw [lookup_keep ((lookup_eq_some hchanges).2 (List.mem_of_getElem? hf))]
    exact hrel hunnoticed _
  | array vs =>
    refine .array List.length_mapIdx fun i k hk => ?_
    obtain ⟨f, hf, hunnoticed⟩ := hchange i k hk
    rw [List.getElem?_mapIdx, hf]
    exact hrel hunnoticed _
  | _ => exact .same _

end CoverageTracker.Data
