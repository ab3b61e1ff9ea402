import CoverageTracker.Proofs.Data.Decoding
import CoverageTracker.Proofs.Data.Json
import Mathlib.Data.String.Basic
set_option autoImplicit false

/-!
# Values that a document denotes

Two things are asked of a value at every depth: that each key stands once in its table
(`Value.keysOnce`), and that each number can be held (`Value.isHeld`), which is what it takes to
pass over the value.  Every JSON value has both.  Readers keep the keys of a table in ascending
order (`KeysAscend`), so that no key stands there twice.
-/

namespace CoverageTracker.Data

open Decoded

namespace Value

/-! ## Conditions at every depth -/

/-- What is true of an array if it is true of its items, of a table if it is true of the values of
its entries, and of everything else, is true of every value. -/
@[elab_as_elim]
theorem induction {motive : Value → Prop} (array : ∀ vs, (∀ v ∈ vs, motive v) → motive (.array vs))
    (table : ∀ es, (∀ e ∈ es, motive e.2) → motive (.table es)) (null : motive .null)
    (boolean : ∀ b, motive (.boolean b)) (integer : ∀ n, motive (.integer n))
    (float : ∀ x, motive (.float x)) (string : ∀ s, motive (.string s))
    (moment : ∀ text, motive (.moment text)) (overflow : ∀ kind, motive (.overflow kind)) :
    ∀ v, motive v
  | .array vs => array vs fun v _ =>
    induction array table null boolean integer float string moment overflow v
  | .table es => table es fun e _ =>
    induction array table null boolean integer float string moment overflow e.2
  | .null => null
  | .boolean b => boolean b
  | .integer n => integer n
  | .float x => float x
  | .string s => string s
  | .moment text => moment text
  | .overflow kind => overflow kind
decreasing_by
  · have := List.sizeOf_lt_of_mem ‹v ∈ vs›
    simp only [Value.array.sizeOf_spec]
    omega
  · have := List.sizeOf_lt_of_mem ‹e ∈ es›
    obtain ⟨key, v⟩ := e
    simp only [Value.table.sizeOf_spec, Prod.mk.sizeOf_spec] at this ⊢
    omega

mutual

/-- Whether a value and everything in it meets a condition. -/
def all (p : Value → Bool) : Value → Bool
  | .array vs => p (.array vs) && allItems p vs
  | .table es => p (.table es) && allEntries p es
  | v => p v

/-- Whether each item and everything in it meets a condition. -/
def allItems (p : Value → Bool) : List Value → Bool
  | [] => true
  | v :: vs => v.all p && allItems p vs

/-- Whether the value of each entry and everything in it meets a condition. -/
def allEntries (p : Value → Bool) : List (String × Value) → Bool
  | [] => true
  | (_, v) :: es => v.all p && allEntries p es

end

variable {p : Value → Bool} {v : Value} {vs : List Value} {es : List (String × Value)}

theorem allItems_iff : allItems p vs = true ↔ ∀ v ∈ vs, v.all p = true := by
  induction vs with
  | nil => simp [allItems]
  | cons v vs ih => simp [allItems, ih]

theorem allEntries_iff : allEntries p es = true ↔ ∀ e ∈ es, e.2.all p = true := by
  induction es with
  | nil => simp [allEntries]
  | cons e es ih => simp [allEntries, ih]

theorem all_array : (array vs).all p = true ↔ p (.array vs) = true ∧ ∀ v ∈ vs, v.all p = true := by
  rw [all, Bool.and_eq_true, allItems_iff]

theorem all_table :
    (table es).all p = true ↔ p (.table es) = true ∧ ∀ e ∈ es, e.2.all p = true := by
  rw [all, Bool.and_eq_true, allEntries_iff]

/-! ## Equality -/

mutual

/-- Whether two values are equal. -/
def same : Value → Value → Bool
  | .null, .null => true
  | .boolean a, .boolean b => a == b
  | .integer a, .integer b => a == b
  | .float a, .float b => a == b
  | .string a, .string b => a == b
  | .moment a, .moment b => a == b
  | .overflow a, .overflow b => a == b
  | .array vs, .array ws => sameItems vs ws
  | .table es, .table fs => sameEntries es fs
  | _, _ => false

/-- Whether two lists of items are equal. -/
def sameItems : List Value → List Value → Bool
  | [], [] => true
  | v :: vs, w :: ws => v.same w && sameItems vs ws
  | _, _ => false

/-- Whether two lists of entries are equal. -/
def sameEntries : List (String × Value) → List (String × Value) → Bool
  | [], [] => true
  | (k, v) :: es, (l, w) :: fs => k == l && v.same w && sameEntries es fs
  | _, _ => false

end

theorem sameItems_iff (h : ∀ v ∈ vs, ∀ w, v.same w = true ↔ v = w) {ws : List Value} :
    sameItems vs ws = true ↔ vs = ws := by
  induction vs generalizing ws with
  | nil => cases ws <;> simp [sameItems]
  | cons v vs ih =>
    obtain ⟨hv, hvs⟩ := List.forall_mem_cons.1 h
    cases ws with
    | nil => simp [sameItems]
    | cons w ws => simp [sameItems, hv w, ih hvs]

theorem sameEntries_iff (h : ∀ e ∈ es, ∀ w, e.2.same w = true ↔ e.2 = w)
    {fs : List (String × Value)} : sameEntries es fs = true ↔ es = fs := by
  induction es generalizing fs with
  | nil => cases fs <;> simp [sameEntries]
  | cons e es ih =>
    obtain ⟨he, hes⟩ := List.forall_mem_cons.1 h
    cases fs with
    | nil => simp [sameEntries]
    | cons f fs => simp [sameEntries, he f.2, ih hes, Prod.ext_iff]

theorem same_iff (v w : Value) : v.same w = true ↔ v = w := by
  induction v using Value.induction generalizing w with
  | array vs ih => cases w <;> simp [same, sameItems_iff ih]
  | table es ih => cases w <;> simp [same, sameEntries_iff ih]
  | _ => cases w <;> simp [same]

instance : DecidableEq Value := fun v w => decidable_of_iff _ (v.same_iff w)

/-! ## Keys and numbers -/

/-- Whether each key stands once in its table, at every depth. -/
def keysOnce (v : Value) : Bool :=
  v.all fun
    | .table es => decide (es.map Prod.fst).Nodup
    | _ => true

/-- Whether each number can be held, at every depth. -/
def isHeld (v : Value) : Bool :=
  v.all fun
    | .overflow _ => false
    | _ => true

theorem keysOnce_table : (table es).keysOnce = true ↔
    (es.map Prod.fst).Nodup ∧ ∀ e ∈ es, e.2.keysOnce = true := by
  unfold keysOnce
  rw [all_table, decide_eq_true_eq]

theorem keysOnce_array : (array vs).keysOnce = true ↔ ∀ v ∈ vs, v.keysOnce = true := by
  unfold keysOnce
  rw [all_array, eq_self, true_and]

theorem isHeld_table : (table es).isHeld = true ↔ ∀ e ∈ es, e.2.isHeld = true := by
  unfold isHeld
  rw [all_table, eq_self, true_and]

theorem isHeld_array : (array vs).isHeld = true ↔ ∀ v ∈ vs, v.isHeld = true := by
  unfold isHeld
  rw [all_array, eq_self, true_and]

/-! ## Passing over a value -/

theorem skipItems_eq_ok {u : Unit} : skipItems vs = .ok u ↔ ∀ v ∈ vs, v.skip = .ok () := by
  induction vs with
  | nil => simp [skipItems]
  | cons v vs ih =>
    rw [skipItems, bind_eq_ok, List.forall_mem_cons, ← ih]
    exact ⟨fun ⟨_, hv, hvs⟩ => ⟨hv, hvs⟩, fun ⟨hv, hvs⟩ => ⟨_, hv, hvs⟩⟩

theorem skipEntries_eq_ok {u : Unit} : skipEntries es = .ok u ↔ ∀ e ∈ es, e.2.skip = .ok () := by
  induction es with
  | nil => simp [skipEntries]
  | cons e es ih =>
    rw [skipEntries, bind_eq_ok, List.forall_mem_cons, ← ih]
    exact ⟨fun ⟨_, hv, hes⟩ => ⟨hv, hes⟩, fun ⟨hv, hes⟩ => ⟨_, hv, hes⟩⟩

/-- A value can be passed over exactly if each number in it can be held. -/
theorem skip_eq_ok {u : Unit} : v.skip = .ok u ↔ v.isHeld = true := by
  induction v using Value.induction with
  | array vs ih => rw [skip, skipItems_eq_ok, isHeld_array, forall₂_congr ih]
  | table es ih => rw [skip, skipEntries_eq_ok, isHeld_table, forall₂_congr ih]
  | overflow kind => exact iff_of_false (by simp [skip]) (by simp [isHeld, all])
  | _ => exact iff_of_true rfl rfl

/-! ## JSON values -/

/-- A condition that every JSON value meets is met at every depth. -/
theorem all_of_isJson (hp : ∀ v : Value, v.isJson = true → p v = true) (hv : v.isJson = true) :
    v.all p = true := by
  induction v using Value.induction with
  | array vs ih =>
    refine all_array.2 ⟨hp _ hv, fun v hmem => ih v hmem ?_⟩
    rw [isJson] at hv
    exact areJson_iff.1 hv v hmem
  | table es ih =>
    refine all_table.2 ⟨hp _ hv, fun e hmem => ih e hmem ?_⟩
    rw [isJson, Bool.and_eq_true] at hv
    exact entriesAreJson_iff.1 hv.2 e hmem
  | _ => exact hp _ hv

theorem keysOnce_of_isJson (hv : v.isJson = true) : v.keysOnce = true := by
  refine all_of_isJson (fun v hv => ?_) hv
  split
  · rw [isJson, Bool.and_eq_true] at hv
    exact hv.1
  · rfl

theorem isHeld_of_isJson (hv : v.isJson = true) : v.isHeld = true := by
  refine all_of_isJson (fun v hv => ?_) hv
  split
  · simp [isJson] at hv
  · rfl

end Value

/-! ## Keys -/

section Keys

variable {α : Type} {es : List (String × α)} {key : String} {a : α} {e : String × α}

theorem mem_of_lookup (h : lookup es key = some a) : (key, a) ∈ es := by
  obtain ⟨e, hfind, rfl⟩ := Option.map_eq_some_iff.1 h
  obtain rfl : e.1 = key := by simpa using List.find?_some hfind
  exact List.mem_of_find?_eq_some hfind

theorem lookup_eq_none (h : key ∉ es.map Prod.fst) : lookup es key = none := by
  rw [lookup, Option.map_eq_none_iff, List.find?_eq_none]
  rintro e he hkey
  exact h (beq_iff_eq.1 hkey ▸ List.mem_map_of_mem he)

/-- The keys stand in ascending order, each of them once. -/
def KeysAscend (es : List (String × α)) : Prop := es.Pairwise fun e f => e.1 < f.1

theorem KeysAscend.nodup (h : KeysAscend es) : (es.map Prod.fst).Nodup :=
  List.pairwise_map.2 (h.imp fun hlt => hlt.ne)

/-- What is found in a table after an insertion was put there or was there before. -/
theorem mem_of_mem_insert (h : e ∈ insert es key a) : e = (key, a) ∨ e ∈ es := by
  induction es with
  | nil => exact .inl (List.mem_singleton.1 h)
  | cons f es ih =>
    rw [insert] at h
    split at h
    · exact (List.mem_cons.1 h).imp_right (List.mem_cons_of_mem _)
    split at h
    · exact List.mem_cons.1 h
    · rcases List.mem_cons.1 h with rfl | h
      · exact .inr List.mem_cons_self
      · exact (ih h).imp_right (List.mem_cons_of_mem _)

theorem KeysAscend.insert (h : KeysAscend es) : KeysAscend (insert es key a) := by
  induction es with
  | nil => exact List.pairwise_singleton _ _
  | cons f es ih =>
    obtain ⟨hfirst, hrest⟩ := List.pairwise_cons.1 h
    rw [Data.insert]
    split
    case isTrue hkey => exact List.pairwise_cons.2 ⟨fun e he => hkey ▸ hfirst e he, hrest⟩
    split
    case isTrue hlt =>
      refine List.pairwise_cons.2 ⟨fun e he => ?_, h⟩
      rcases List.mem_cons.1 he with rfl | he
      · exact hlt
      · exact hlt.trans (hfirst e he)
    case isFalse hne hnlt =>
      refine List.pairwise_cons.2 ⟨fun e he => ?_, ih hrest⟩
      rcases mem_of_mem_insert he with rfl | he
      · exact lt_of_le_of_ne (not_lt.1 hnlt) (Ne.symm hne)
      · exact hfirst e he

end Keys

end CoverageTracker.Data
