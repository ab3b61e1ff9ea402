import CoverageTracker.Proofs.Data.Documents
import CoverageTracker.Toml.Reader
set_option autoImplicit false

/-!
# The keys of a document

A TOML document denotes a table in which each key stands once, at every depth (`keysOnce_parse`).
Tables grow by insertion alone, which keeps their keys in ascending order, and each edit of a table
under construction keeps it so at every depth (`Entries.IsProper`).
-/

namespace CoverageTracker.Toml

open CoverageTracker.Data

/-! ## Tables under construction -/

/-- The keys of each table in a node ascend, and each closed value has its keys once. -/
inductive Node.IsProper : Node → Prop where
  | closed {v : Value} (hv : v.keysOnce = true) : IsProper (.closed v)
  | table {origin : Origin} {es : Entries} (hkeys : KeysAscend es)
    (hnodes : ∀ e ∈ es, e.2.IsProper) : IsProper (.table origin es)
  | tables {latestFirst : List Entries} (hkeys : ∀ es ∈ latestFirst, KeysAscend es)
    (hnodes : ∀ es ∈ latestFirst, ∀ e ∈ es, e.2.IsProper) : IsProper (.tables latestFirst)

/-- The keys of a table and of all tables in it ascend. -/
structure Entries.IsProper (es : Entries) : Prop where
  keys : KeysAscend es
  nodes : ∀ e ∈ es, e.2.IsProper

namespace Entries

variable {made origin : Origin} {act : Origin → Entries → Option Entries} {path : List String}
  {key : String} {node : Node} {es es' : Entries} {v : Value}

theorem isProper_nil : IsProper [] := ⟨.nil, by simp⟩

theorem IsProper.table (h : es.IsProper) : (Node.table origin es).IsProper := .table h.keys h.nodes

theorem isProper_of_table (h : (Node.table origin es).IsProper) : es.IsProper := by
  cases h with
  | table hkeys hnodes => exact ⟨hkeys, hnodes⟩

theorem isProper_tables {latestFirst : List Entries} :
    (Node.tables latestFirst).IsProper ↔ ∀ es ∈ latestFirst, IsProper es := by
  constructor
  · rintro (_ | _ | ⟨hkeys, hnodes⟩) es hes
    exact ⟨hkeys es hes, hnodes es hes⟩
  · exact fun h => .tables (fun es hes => (h es hes).keys) fun es hes => (h es hes).nodes

theorem IsProper.insert (h : es.IsProper) (hnode : node.IsProper) :
    IsProper (insert es key node) := by
  refine ⟨h.keys.insert, fun e he => ?_⟩
  rcases mem_of_mem_insert he with rfl | he
  · exact hnode
  · exact h.nodes e he

theorem IsProper.lookup (h : es.IsProper) (hlookup : lookup es key = some node) : node.IsProper :=
  h.nodes _ (mem_of_lookup hlookup)

/-- An edit at the end of a path keeps what the edit itself keeps. -/
theorem IsProper.edit
    (hact : ∀ origin es es', IsProper es → act origin es = some es' → IsProper es') :
    ∀ {path : List String} {origin : Origin} {es es' : Entries}, es.IsProper →
      Entries.edit made act path origin es = some es' → es'.IsProper
  | [], origin, es, es', h, hedit => hact origin es es' h hedit
  | key :: path, origin, es, es', h, hedit => by
    rw [Entries.edit] at hedit
    split at hedit
    -- the key is new, a table, a repeated table, or nothing that a path leads through
    · obtain ⟨inner, hinner, rfl⟩ := Option.map_eq_some_iff.1 hedit
      exact h.insert (IsProper.edit hact isProper_nil hinner).table
    · rename_i origin' content hlookup
      split at hedit
      · cases hedit
      · obtain ⟨inner, hinner, rfl⟩ := Option.map_eq_some_iff.1 hedit
        exact h.insert (IsProper.edit hact (isProper_of_table (h.lookup hlookup)) hinner).table
    · rename_i latest older hlookup
      obtain ⟨inner, hinner, rfl⟩ := Option.map_eq_some_iff.1 hedit
      obtain ⟨hlatest, holder⟩ := List.forall_mem_cons.1 (isProper_tables.1 (h.lookup hlookup))
      exact h.insert (isProper_tables.2 (List.forall_mem_cons.2 ⟨hlatest.edit hact hinner, holder⟩))
    · cases hedit
    · cases hedit

theorem IsProper.assign (hv : v.keysOnce = true) (h : es.IsProper)
    (hassign : Entries.assign path key v origin es = some es') : es'.IsProper := by
  refine h.edit (fun _ inner inner' hinner hact => ?_) hassign
  split at hact
  · cases hact
    exact hinner.insert (.closed hv)
  · cases hact

theorem IsProper.openTable (h : es.IsProper) (hopen : Entries.openTable path key es = some es') :
    es'.IsProper := by
  refine h.edit (fun _ inner inner' hinner hact => ?_) hopen
  split at hact
  · cases hact
    exact hinner.insert isProper_nil.table
  · rename_i hlookup
    cases hact
    exact hinner.insert (isProper_of_table (hinner.lookup hlookup)).table
  · cases hact

theorem IsProper.openRepeated (h : es.IsProper)
    (hopen : Entries.openRepeated path key es = some es') : es'.IsProper := by
  refine h.edit (fun _ inner inner' hinner hact => ?_) hopen
  split at hact
  · cases hact
    exact hinner.insert (isProper_tables.2 (by simp [isProper_nil]))
  · rename_i hlookup
    cases hact
    exact hinner.insert (isProper_tables.2 (List.forall_mem_cons.2
      ⟨isProper_nil, isProper_tables.1 (hinner.lookup hlookup)⟩))
  · cases hact

/-- A section keeps what the assignments in it keep. -/
theorem IsProper.inSection {place : List String} (hv : v.keysOnce = true) (h : es.IsProper)
    (hassign : Entries.inSection place (Entries.assign path key v) es = some es') :
    es'.IsProper :=
  h.edit (fun _ _ _ hinner hact => hinner.assign hv hact) hassign

/-! ## Finished tables -/

theorem values_eq_map (es : Entries) : Node.values es = es.map fun e => (e.1, e.2.value) := by
  induction es with
  | nil => rfl
  | cons e es ih => rw [Node.values, ih, List.map_cons]

theorem elements_eq_map (latestFirst : List Entries) :
    Node.elements latestFirst = latestFirst.map fun es => .table (Node.values es) := by
  induction latestFirst with
  | nil => rfl
  | cons es latestFirst ih => rw [Node.elements, ih, List.map_cons]

theorem keysOnce_values_of (hkeys : KeysAscend es) (h : ∀ e ∈ es, e.2.value.keysOnce = true) :
    (Value.table (Node.values es)).keysOnce = true := by
  rw [values_eq_map, Value.keysOnce_table, List.map_map]
  exact ⟨hkeys.nodup, List.forall_mem_map.2 h⟩

theorem keysOnce_value (h : node.IsProper) : node.value.keysOnce = true := by
  induction h with
  | closed hv => exact hv
  | table hkeys _ ih => exact keysOnce_values_of hkeys ih
  | tables hkeys _ ih =>
    rw [Node.value, Value.keysOnce_array, elements_eq_map]
    simp only [List.mem_reverse, List.forall_mem_map]
    exact fun es hes => keysOnce_values_of (hkeys es hes) (ih es hes)

theorem IsProper.keysOnce_values (h : es.IsProper) :
    (Value.table (Node.values es)).keysOnce = true :=
  keysOnce_values_of h.keys fun e he => keysOnce_value (h.nodes e he)

end Entries

/-! ## Words -/

section Words

variable {cs : List Char} {v : Value}

theorem keysOnce_ofInt (n : Int) : (ofInt n).keysOnce = true := by
  unfold ofInt
  split <;> rfl

theorem keysOnce_integerOf (base : Nat) (cs : List Char) : (integerOf base cs).keysOnce = true := by
  unfold integerOf
  dsimp only
  split
  · rfl
  · exact keysOnce_ofInt _

theorem keysOnce_basedOf {base : Nat} (h : basedOf base cs = some v) : v.keysOnce = true := by
  unfold basedOf at h
  split at h
  · obtain ⟨ds, -, rfl⟩ := Option.map_eq_some_iff.1 h
    exact keysOnce_integerOf base ds
  · cases h

theorem keysOnce_floatFrom (negative : Bool) (whole frac : List Char) (exp : Int) :
    (floatFrom negative whole frac exp).keysOnce = true := by
  unfold floatFrom
  dsimp only
  split <;> rfl

theorem keysOnce_floatOf (h : floatOf cs = some v) : v.keysOnce = true := by
  unfold floatOf at h
  simp only [Option.bind_eq_bind, Option.bind_eq_some_iff] at h
  obtain ⟨whole, -, h⟩ := h
  split at h
  · cases h
  · simp only [Option.bind_eq_some_iff, Option.ite_none_right_eq_some, Option.some.injEq] at h
    obtain ⟨_, -, _, -, _, -, -, rfl⟩ := h
    exact keysOnce_floatFrom _ _ _ _

theorem keysOnce_specialOf (h : specialOf cs = some v) : v.keysOnce = true := by
  unfold specialOf at h
  dsimp only at h
  split at h
  · cases h
    rfl
  split at h
  · cases h
    rfl
  · cases h

theorem keysOnce_momentOf (h : momentOf cs = some v) : v.keysOnce = true := by
  simp only [momentOf, Option.ite_none_right_eq_some, Option.some.injEq] at h
  rw [← h.2]
  rfl

theorem keysOnce_ofNumber {body : List Char} (h : ofNumber cs body = some v) :
    v.keysOnce = true := by
  unfold ofNumber at h
  dsimp only at h
  split at h
  · exact keysOnce_momentOf h
  split at h
  · cases h
  split at h
  · exact keysOnce_floatOf h
  split at h
  · cases h
  split at h
  · obtain ⟨ds, -, rfl⟩ := Option.map_eq_some_iff.1 h
    exact keysOnce_integerOf 10 ds
  · cases h

theorem keysOnce_ofWord (h : ofWord cs = some v) : v.keysOnce = true := by
  unfold ofWord at h
  split at h
  · exact keysOnce_basedOf h
  · exact keysOnce_basedOf h
  · exact keysOnce_basedOf h
  dsimp only at h
  split at h
  · exact keysOnce_ofNumber h
  split at h
  · cases h
    rfl
  split at h
  · cases h
    rfl
  · exact keysOnce_specialOf h

end Words

/-! ## Readers -/

section Readers

variable {fuel depth : Nat} {cs rest : List Char} {v : Value} {vs : List Value}
  {place : List String} {es es' : Entries}

/-- Whatever the readers of values read with some fuel keeps each key once.  They call each other
with less fuel, so that this is shown of all of them at once. -/
structure Reads (fuel : Nat) : Prop where
  value : ∀ {depth cs v rest}, value fuel depth cs = some (v, rest) → v.keysOnce = true
  items : ∀ {depth cs vs rest}, items fuel depth cs = some (vs, rest) →
    ∀ v ∈ vs, v.keysOnce = true
  members : ∀ {depth es cs es' rest}, members fuel depth es cs = some (es', rest) →
    es.IsProper → es'.IsProper
  assignment : ∀ {inline depth place es cs es' rest},
    assignment inline fuel depth place es cs = some (es', rest) → es.IsProper → es'.IsProper

theorem Reads.value_succ (hr : Reads fuel) (h : Toml.value (fuel + 1) depth cs = some (v, rest)) :
    v.keysOnce = true := by
  unfold Toml.value at h
  split at h
  · obtain ⟨p, -, hp⟩ := Option.map_eq_some_iff.1 h
    cases hp
    rfl
  · obtain ⟨p, -, hp⟩ := Option.map_eq_some_iff.1 h
    cases hp
    rfl
  · split at h
    · cases h
    · obtain ⟨p, hitems, hp⟩ := Option.map_eq_some_iff.1 h
      cases hp
      exact Value.keysOnce_array.2 (hr.items hitems)
  · split at h
    · cases h
    · obtain ⟨p, hmembers, hp⟩ := Option.map_eq_some_iff.1 h
      cases hp
      exact (hr.members hmembers Entries.isProper_nil).keysOnce_values
  · obtain ⟨w, hword, hp⟩ := Option.map_eq_some_iff.1 h
    cases hp
    exact keysOnce_ofWord hword

theorem Reads.items_succ (hr : Reads fuel) (h : Toml.items (fuel + 1) depth cs = some (vs, rest)) :
    ∀ v ∈ vs, v.keysOnce = true := by
  unfold Toml.items at h
  split at h
  · cases h
    simp
  simp only [Option.bind_eq_bind, Option.bind_eq_some_iff] at h
  obtain ⟨⟨v, left⟩, hvalue, h⟩ := h
  dsimp only at h
  split at h
  · obtain ⟨⟨ws, left'⟩, hitems, h⟩ := Option.bind_eq_some_iff.1 h
    cases h
    exact List.forall_mem_cons.2 ⟨hr.value hvalue, hr.items hitems⟩
  · cases h
    exact List.forall_mem_singleton.2 (hr.value hvalue)
  · cases h

theorem Reads.members_succ (hr : Reads fuel)
    (h : Toml.members (fuel + 1) depth es cs = some (es', rest)) (hes : es.IsProper) :
    es'.IsProper := by
  unfold Toml.members at h
  split at h
  · cases h
    exact hes
  simp only [Option.bind_eq_bind, Option.bind_eq_some_iff] at h
  obtain ⟨⟨inner, left⟩, hassignment, h⟩ := h
  have hinner := hr.assignment hassignment hes
  dsimp only at h
  split at h
  · exact hr.members h hinner
  · cases h
    exact hinner
  · cases h

theorem Reads.assignment_succ {inline : Bool} (hr : Reads fuel)
    (h : Toml.assignment inline (fuel + 1) depth place es cs = some (es', rest))
    (hes : es.IsProper) : es'.IsProper := by
  unfold Toml.assignment at h
  simp only [Option.bind_eq_bind, Option.bind_eq_some_iff] at h
  obtain ⟨⟨parts, left⟩, -, ⟨path, last⟩, -, h⟩ := h
  dsimp only at h
  split at h
  · simp only [Option.bind_eq_some_iff] at h
    obtain ⟨⟨v, left⟩, hvalue, inner, hassign, h⟩ := h
    cases h
    exact hes.inSection (hr.value hvalue) hassign
  · cases h

theorem reads : ∀ fuel, Reads fuel
  | 0 => ⟨nofun, nofun, nofun, nofun⟩
  | fuel + 1 =>
    have hr := reads fuel
    ⟨hr.value_succ, hr.items_succ, hr.members_succ, hr.assignment_succ⟩

/-! ## Documents -/

theorem isProper_document (h : document fuel place es cs = some es') (hes : es.IsProper) :
    es'.IsProper := by
  induction fuel generalizing place es cs with
  | zero => cases h
  | succ fuel ih =>
    unfold document at h
    split at h
    · cases h
      exact hes
    · simp only [Option.bind_eq_bind, Option.bind_eq_some_iff] at h
      obtain ⟨⟨repeated, parts, left⟩, -, ⟨path, last⟩, -, h⟩ := h
      dsimp only at h
      split at h
      · obtain ⟨opened, hopened, h⟩ := Option.bind_eq_some_iff.1 h
        obtain ⟨left', -, h⟩ := Option.bind_eq_some_iff.1 h
        exact ih h (hes.openRepeated hopened)
      · obtain ⟨opened, hopened, h⟩ := Option.bind_eq_some_iff.1 h
        obtain ⟨left', -, h⟩ := Option.bind_eq_some_iff.1 h
        exact ih h (hes.openTable hopened)
    · simp only [Option.bind_eq_bind, Option.bind_eq_some_iff] at h
      obtain ⟨⟨inner, left⟩, hassignment, left', -, h⟩ := h
      exact ih h ((reads _).assignment hassignment hes)

/-- A document denotes a table, and each key stands once in its table at every depth. -/
theorem keysOnce_parse {source : String} (h : parse source = some v) :
    ∃ entries, v = .table entries ∧ v.keysOnce = true := by
  obtain ⟨es, hdocument, rfl⟩ := Option.map_eq_some_iff.1 h
  exact ⟨_, rfl, (isProper_document hdocument Entries.isProper_nil).keysOnce_values⟩

end Readers

end CoverageTracker.Toml
