import CoverageTracker.Config
import CoverageTracker.Proofs.Toml.Keys
set_option autoImplicit false

/-!
# A configuration is laid over the default

Decoding goes through the entries of a table one by one and changes one field for each.  Since a
key stands there once, what comes out is told by the fields alone: what the value of its key says,
and the default if the key is not there (`Overlaid`).  Entries under other keys only have to be such
that they can be passed over.
-/

namespace CoverageTracker

open CoverageTracker.Data CoverageTracker.Data.Decoded

/-! ## Fields over a default -/

namespace Data

variable {α β γ : Type} {writes : Value → α → Prop} {read : Value → Decoded α}
  {found : Option Value} {base a : α} {v : Value} {es : List (String × Value)}

/-- A field is what its value says, and what it was before if it has no value. -/
def Overlaid (writes : Value → α → Prop) (found : Option Value) (base a : α) : Prop :=
  match found with
  | some v => writes v a
  | none => a = base

@[simp] theorem overlaid_none : Overlaid writes none base a ↔ a = base := .rfl

@[simp] theorem overlaid_some : Overlaid writes (some v) base a ↔ writes v a := .rfl

theorem exists_overlaid : (∃ a, Overlaid writes found base a) ↔ ∀ v ∈ found, ∃ a, writes v a := by
  cases found <;> simp

theorem overlaid_congr {reads : Value → α → Prop} (h : ∀ v ∈ found, ∀ a, reads v a ↔ writes v a) :
    Overlaid reads found base a ↔ Overlaid writes found base a := by
  cases found with
  | none => rfl
  | some v => exact h v rfl a

theorem item_getD_eq_ok {vs : List Value} {index : Nat} :
    (∃ o, item vs index read = .ok o ∧ o.getD base = a) ↔
      Overlaid (fun v a => read v = .ok a) vs[index]? base a := by
  simp only [item_eq_ok]
  constructor
  · rintro ⟨_, hrel, rfl⟩
    revert hrel
    cases vs[index]? <;> rintro ⟨⟩
    · rfl
    · assumption
  · cases vs[index]? with
    | none =>
      rintro rfl
      exact ⟨none, .none, rfl⟩
    | some v => exact fun hread => ⟨some a, .some hread, rfl⟩

/-- Going through the entries of a table with two known keys lays the fields under them over what
they were before, and passes over all other entries. -/
theorem foldlM_eq_ok {key₁ key₂ : String} {read₁ : Value → Decoded α} {read₂ : Value → Decoded β}
    {make : α → β → γ} {step : γ → String × Value → Decoded γ} (hne : key₁ ≠ key₂)
    (hstep : ∀ a b e, step (make a b) e =
      if e.1 = key₁ then (read₁ e.2).map fun a => make a b
      else if e.1 = key₂ then (read₂ e.2).map fun b => make a b
      else e.2.skip.map fun _ => make a b)
    (hkeys : (es.map Prod.fst).Nodup) {a₀ : α} {b₀ : β} {c : γ} :
    es.foldlM step (make a₀ b₀) = .ok c ↔ ∃ a b, c = make a b ∧
      Overlaid (fun v a => read₁ v = .ok a) (lookup es key₁) a₀ a ∧
      Overlaid (fun v b => read₂ v = .ok b) (lookup es key₂) b₀ b ∧
      ∀ e ∈ es, e.1 ≠ key₁ → e.1 ≠ key₂ → e.2.isHeld = true := by
  induction es generalizing a₀ b₀ with
  | nil =>
    rw [List.foldlM_nil, pure_eq_ok]
    constructor
    · rintro rfl
      exact ⟨a₀, b₀, rfl, rfl, rfl, by simp⟩
    · rintro ⟨a, b, rfl, ha, hb, -⟩
      rw [show a = a₀ from ha, show b = b₀ from hb]
  | cons e es ih =>
    obtain ⟨hfirst, hrest⟩ := List.nodup_cons.1 hkeys
    rw [List.foldlM_cons, bind_eq_ok, hstep]
    by_cases h₁ : e.1 = key₁
    · -- the key does not stand there again, so what it gives now is final
      have hgone : lookup es key₁ = none := lookup_eq_none (h₁ ▸ hfirst)
      have h₂ : e.1 ≠ key₂ := h₁ ▸ hne
      simp only [if_pos h₁, map_eq_ok, lookup_cons, if_neg h₂, overlaid_some, List.forall_mem_cons]
      constructor
      · rintro ⟨_, ⟨a₁, hread, rfl⟩, hfold⟩
        obtain ⟨a, b, rfl, ha, hb, hothers⟩ := (ih hrest).1 hfold
        rw [hgone, overlaid_none] at ha
        exact ⟨a, b, rfl, ha ▸ hread, hb, fun h => absurd h₁ h, hothers⟩
      · rintro ⟨a, b, rfl, hread, hb, -, hothers⟩
        refine ⟨_, ⟨a, hread, rfl⟩, (ih hrest).2 ⟨a, b, rfl, ?_, hb, hothers⟩⟩
        rw [hgone, overlaid_none]
    by_cases h₂ : e.1 = key₂
    · have hgone : lookup es key₂ = none := lookup_eq_none (h₂ ▸ hfirst)
      simp only [if_neg h₁, if_pos h₂, map_eq_ok, lookup_cons, overlaid_some, List.forall_mem_cons]
      constructor
      · rintro ⟨_, ⟨b₁, hread, rfl⟩, hfold⟩
        obtain ⟨a, b, rfl, ha, hb, hothers⟩ := (ih hrest).1 hfold
        rw [hgone, overlaid_none] at hb
        exact ⟨a, b, rfl, ha, hb ▸ hread, fun _ h => absurd h₂ h, hothers⟩
      · rintro ⟨a, b, rfl, ha, hread, -, hothers⟩
        refine ⟨_, ⟨b, hread, rfl⟩, (ih hrest).2 ⟨a, b, rfl, ha, ?_, hothers⟩⟩
        rw [hgone, overlaid_none]
    · simp only [if_neg h₁, if_neg h₂, map_eq_ok, lookup_cons, Value.skip_eq_ok,
        List.forall_mem_cons]
      constructor
      · rintro ⟨_, ⟨_, hheld, rfl⟩, hfold⟩
        obtain ⟨a, b, rfl, ha, hb, hothers⟩ := (ih hrest).1 hfold
        exact ⟨a, b, rfl, ha, hb, fun _ _ => hheld, hothers⟩
      · rintro ⟨a, b, rfl, ha, hb, hheld, hothers⟩
        exact ⟨_, ⟨(), hheld h₁ h₂, rfl⟩, (ih hrest).2 ⟨a, b, rfl, ha, hb, hothers⟩⟩

end Data

/-! ## What a value says -/

/-- A list of texts. -/
def WritesTexts (v : Value) (texts : List String) : Prop := v = .array (texts.map .string)

theorem asString_eq_ok {v : Value} {s : String} : v.asString = .ok s ↔ v = .string s := by
  cases v <;> simp [Value.asString, Value.refuse_ne_ok]

theorem asBoolean_eq_ok {v : Value} {b : Bool} : v.asBoolean = .ok b ↔ v = .boolean b := by
  cases v <;> simp [Value.asBoolean, Value.refuse_ne_ok]

theorem asList_asString_eq_ok {v : Value} {texts : List String} :
    v.asList Value.asString = .ok texts ↔ WritesTexts v texts := by
  unfold WritesTexts
  cases v with
  | array vs =>
    simp only [Value.asList, mapM_eq_ok, asString_eq_ok, Value.array.injEq]
    rw [← List.forall₂_map_right_iff (R := Eq), List.forall₂_eq_eq_eq]
  | _ => simp [Value.asList, Value.refuse_ne_ok]

/-- In JSON an array has no more items than the record has fields. -/
theorem checkItems_eq_ok {form : Form} {fields : Nat} {vs : List Value} {u : Unit} :
    form.checkItems fields vs = .ok u ↔ (form = .json → vs.length ≤ fields) := by
  cases form with
  | json => rw [Form.checkItems, atMost_eq_ok, eq_self, forall_true_left]
  | toml => exact iff_of_true rfl nofun

namespace SelectorConfig

variable {form : Form} {v : Value} {c : SelectorConfig}

/-- What a value says of the documents that are tracked.  A table lays what it has under the two
known keys over the default, and so does an array with its first two items; in JSON an array has no
more.  A date or time says nothing. -/
inductive Writes (form : Form) : Value → SelectorConfig → Prop where
  | table {es : List (String × Value)} {c : SelectorConfig}
    (hlanguages : Overlaid WritesTexts (lookup es "languages") default.languages c.languages)
    (hpatterns : Overlaid WritesTexts (lookup es "patterns") default.patterns c.patterns)
    (hothers : ∀ e ∈ es, e.1 ≠ "languages" → e.1 ≠ "patterns" → e.2.isHeld = true) :
    Writes form (.table es) c
  | array {vs : List Value} {c : SelectorConfig}
    (hlanguages : Overlaid WritesTexts vs[0]? default.languages c.languages)
    (hpatterns : Overlaid WritesTexts vs[1]? default.patterns c.patterns)
    (hlength : form = .json → vs.length ≤ 2) : Writes form (.array vs) c
  | moment (text : String) : Writes form (.moment text) default

theorem decodeEntry_eq (languages patterns : List String) (e : String × Value) :
    decodeEntry ⟨languages, patterns⟩ e =
      if e.1 = "languages" then (e.2.asList Value.asString).map fun ls => ⟨ls, patterns⟩
      else if e.1 = "patterns" then (e.2.asList Value.asString).map fun ps => ⟨languages, ps⟩
      else e.2.skip.map fun _ => ⟨languages, patterns⟩ := by
  obtain ⟨key, v⟩ := e
  simp only [decodeEntry]
  split
  · cases v.asList Value.asString <;> rfl
  split
  · cases v.asList Value.asString <;> rfl
  · cases v.skip <;> rfl

theorem decode_eq_ok (hv : v.keysOnce = true) : decode form v = .ok c ↔ Writes form v c := by
  cases v with
  | table es =>
    have hfold : decode form (.table es) = .ok c ↔ _ :=
      foldlM_eq_ok (by decide) decodeEntry_eq (Value.keysOnce_table.1 hv).1
    simp only [asList_asString_eq_ok] at hfold
    rw [hfold]
    constructor
    · rintro ⟨languages, patterns, rfl, hlanguages, hpatterns, hothers⟩
      exact .table hlanguages hpatterns hothers
    · rintro ⟨hlanguages, hpatterns, hothers⟩
      exact ⟨_, _, rfl, hlanguages, hpatterns, hothers⟩
  | array vs =>
    have hitems : decode form (.array vs) = .ok c ↔
        Overlaid (fun v ls => v.asList Value.asString = .ok ls) vs[0]? default.languages
            c.languages ∧
          Overlaid (fun v ps => v.asList Value.asString = .ok ps) vs[1]? default.patterns
            c.patterns ∧ (form = .json → vs.length ≤ 2) := by
      rw [← item_getD_eq_ok, ← item_getD_eq_ok, ← checkItems_eq_ok (u := ())]
      simp only [decode, bind_eq_ok, pure_eq_ok]
      constructor
      · rintro ⟨languages, hlanguages, patterns, hpatterns, _, hlength, rfl⟩
        exact ⟨⟨languages, hlanguages, rfl⟩, ⟨patterns, hpatterns, rfl⟩, hlength⟩
      · rintro ⟨⟨languages, hlanguages, hl⟩, ⟨patterns, hpatterns, hp⟩, hlength⟩
        exact ⟨languages, hlanguages, patterns, hpatterns, _, hlength, by rw [hl, hp]⟩
    simp only [asList_asString_eq_ok] at hitems
    rw [hitems]
    constructor
    · rintro ⟨hlanguages, hpatterns, hlength⟩
      exact .array hlanguages hpatterns hlength
    · rintro (_ | ⟨hlanguages, hpatterns, hlength⟩)
      exact ⟨hlanguages, hpatterns, hlength⟩
  | moment text =>
    rw [decode, Except.ok.injEq]
    constructor
    · rintro rfl
      exact .moment text
    · rintro ⟨⟩
      rfl
  | _ => exact iff_of_false (by rintro ⟨⟩) (by rintro ⟨⟩)

/-- A value is right for a selector: what it has of the two fields are lists of texts, and in a
table each number under an unknown key can be held. -/
inductive IsTyped (form : Form) : Value → Prop where
  | table {es : List (String × Value)}
    (hlanguages : ∀ v ∈ lookup es "languages", ∃ ls, WritesTexts v ls)
    (hpatterns : ∀ v ∈ lookup es "patterns", ∃ ps, WritesTexts v ps)
    (hothers : ∀ e ∈ es, e.1 ≠ "languages" → e.1 ≠ "patterns" → e.2.isHeld = true) :
    IsTyped form (.table es)
  | array {vs : List Value} (hlanguages : ∀ v ∈ vs[0]?, ∃ ls, WritesTexts v ls)
    (hpatterns : ∀ v ∈ vs[1]?, ∃ ps, WritesTexts v ps) (hlength : form = .json → vs.length ≤ 2) :
    IsTyped form (.array vs)
  | moment (text : String) : IsTyped form (.moment text)

theorem exists_writes : (∃ c, Writes form v c) ↔ IsTyped form v := by
  constructor
  · rintro ⟨c, ⟨hlanguages, hpatterns, hothers⟩ | ⟨hlanguages, hpatterns, hlength⟩ | text⟩
    · exact .table (exists_overlaid.1 ⟨_, hlanguages⟩) (exists_overlaid.1 ⟨_, hpatterns⟩) hothers
    · exact .array (exists_overlaid.1 ⟨_, hlanguages⟩) (exists_overlaid.1 ⟨_, hpatterns⟩) hlength
    · exact .moment text
  · rintro (⟨hlanguages, hpatterns, hothers⟩ | ⟨hlanguages, hpatterns, hlength⟩ | text)
    · obtain ⟨ls, hlanguages⟩ := exists_overlaid.2 hlanguages
      obtain ⟨ps, hpatterns⟩ := exists_overlaid.2 hpatterns
      exact ⟨⟨ls, ps⟩, .table hlanguages hpatterns hothers⟩
    · obtain ⟨ls, hlanguages⟩ := exists_overlaid.2 hlanguages
      obtain ⟨ps, hpatterns⟩ := exists_overlaid.2 hpatterns
      exact ⟨⟨ls, ps⟩, .array hlanguages hpatterns hlength⟩
    · exact ⟨default, .moment text⟩

theorem keysOnce_encode (c : SelectorConfig) : c.encode.keysOnce = true := by
  rw [encode, Value.keysOnce_table]
  refine ⟨by simp, ?_⟩
  simp only [List.forall_mem_cons, Value.keysOnce_array, List.forall_mem_map]
  exact ⟨fun _ _ => rfl, fun _ _ => rfl, nofun⟩

theorem writes_encode (form : Form) (c : SelectorConfig) : Writes form c.encode c := by
  refine .table rfl rfl ?_
  simp

end SelectorConfig

namespace Config

variable {form : Form} {es : List (String × Value)} {c : Config}

/-- What a table says of the configuration: it lays what it has under the two known keys over the
default. -/
structure Writes (form : Form) (es : List (String × Value)) (c : Config) : Prop where
  showUncovered : Overlaid (fun v b => v = .boolean b) (lookup es "show-uncovered")
    default.showUncovered c.showUncovered
  selector : Overlaid (SelectorConfig.Writes form) (lookup es "selector") default.selector
    c.selector
  others : ∀ e ∈ es, e.1 ≠ "show-uncovered" → e.1 ≠ "selector" → e.2.isHeld = true

/-- A table is right for a configuration: what it has of the two fields is a truth value and right
for a selector, and each number under an unknown key can be held. -/
structure IsTyped (form : Form) (es : List (String × Value)) : Prop where
  showUncovered : ∀ v ∈ lookup es "show-uncovered", ∃ b, v = .boolean b
  selector : ∀ v ∈ lookup es "selector", SelectorConfig.IsTyped form v
  others : ∀ e ∈ es, e.1 ≠ "show-uncovered" → e.1 ≠ "selector" → e.2.isHeld = true

theorem exists_writes : (∃ c, Writes form es c) ↔ IsTyped form es := by
  constructor
  · rintro ⟨c, hshow, hselector, hothers⟩
    refine ⟨exists_overlaid.1 ⟨_, hshow⟩, fun v hv => ?_, hothers⟩
    exact SelectorConfig.exists_writes.1 (exists_overlaid.1 ⟨_, hselector⟩ v hv)
  · rintro ⟨hshow, hselector, hothers⟩
    obtain ⟨b, hshow⟩ := exists_overlaid.2 hshow
    obtain ⟨s, hselector⟩ := exists_overlaid.2 fun v hv =>
      SelectorConfig.exists_writes.2 (hselector v hv)
    exact ⟨⟨b, s⟩, hshow, hselector, hothers⟩

theorem decodeEntry_eq (form : Form) (b : Bool) (s : SelectorConfig) (e : String × Value) :
    decodeEntry form ⟨b, s⟩ e =
      if e.1 = "show-uncovered" then e.2.asBoolean.map fun b => ⟨b, s⟩
      else if e.1 = "selector" then (SelectorConfig.decode form e.2).map fun s => ⟨b, s⟩
      else e.2.skip.map fun _ => ⟨b, s⟩ := by
  obtain ⟨key, v⟩ := e
  simp only [decodeEntry]
  split
  · cases v.asBoolean <;> rfl
  split
  · cases SelectorConfig.decode form v <;> rfl
  · cases v.skip <;> rfl

theorem decode_eq_ok (hes : (Value.table es).keysOnce = true) :
    decode form (.table es) = .ok c ↔ Writes form es c := by
  obtain ⟨hkeys, hvalues⟩ := Value.keysOnce_table.1 hes
  have hfold : decode form (.table es) = .ok c ↔ _ :=
    foldlM_eq_ok (by decide) (decodeEntry_eq form) hkeys
  have hselector (s : SelectorConfig) : Overlaid (fun v s => SelectorConfig.decode form v = .ok s)
      (lookup es "selector") default.selector s ↔
        Overlaid (SelectorConfig.Writes form) (lookup es "selector") default.selector s :=
    overlaid_congr fun v hv s => SelectorConfig.decode_eq_ok (hvalues _ (mem_of_lookup hv))
  simp only [asBoolean_eq_ok] at hfold
  rw [hfold]
  constructor
  · rintro ⟨b, s, rfl, hshow, hs, hothers⟩
    exact ⟨hshow, (hselector s).1 hs, hothers⟩
  · rintro ⟨hshow, hs, hothers⟩
    exact ⟨_, _, rfl, hshow, (hselector c.selector).2 hs, hothers⟩

theorem decode_encode (form : Form) (c : Config) : decode form c.encode = .ok c := by
  have hkeys : c.encode.keysOnce = true := by
    rw [encode, Value.keysOnce_table]
    refine ⟨by simp, ?_⟩
    simp only [List.forall_mem_cons]
    exact ⟨c.selector.keysOnce_encode, rfl, nofun⟩
  refine (decode_eq_ok hkeys).2 ⟨rfl, c.selector.writes_encode form, ?_⟩
  simp

/-- Decoding lays a configuration over the default, field by field.  A table in which each key
stands once is decoded exactly if it is of the right type, and then each field is what the value of
its key says, or the default if the key is not there; a known key with a value that is not right
makes decoding fail.  What is not known only has to be such that its numbers can be held, which is
so in JSON, and a date or time for the selector, which TOML has, says nothing.  JSON values and TOML
documents have each key once; and what a configuration is encoded as is decoded to it. -/
theorem decode_overlays_default :
    (∀ form es, (Value.table es).keysOnce = true →
      (IsTyped form es → ∃ c, decode form (.table es) = .ok c ∧ Writes form es c) ∧
      (¬ IsTyped form es → ∃ e, decode form (.table es) = .error e)) ∧
    (∀ v : Value, v.isJson = true → v.keysOnce = true ∧ v.isHeld = true ∧
      ofJson v = decode .json v) ∧
    (∀ source v, Toml.parse source = some v → ∃ es, v = .table es ∧ v.keysOnce = true ∧
      ofToml source = (decode .toml v).mapError .typeError) ∧
    ∀ form c, decode form (encode c) = .ok c := by
  refine ⟨fun form es hes => ⟨fun htyped => ?_, fun htyped => ?_⟩,
    fun v hv => ⟨Value.keysOnce_of_isJson hv, Value.isHeld_of_isJson hv, rfl⟩,
    fun source v hparse => ?_, decode_encode⟩
  · obtain ⟨c, hc⟩ := exists_writes.2 htyped
    exact ⟨c, (decode_eq_ok hes).2 hc, hc⟩
  · cases hdecode : decode form (.table es) with
    | ok c => exact absurd (exists_writes.1 ⟨c, (decode_eq_ok hes).1 hdecode⟩) htyped
    | error e => exact ⟨e, rfl⟩
  · obtain ⟨es, hv, hkeys⟩ := Toml.keysOnce_parse hparse
    exact ⟨es, hv, hkeys, by rw [ofToml, hparse]⟩

/-- A selector without languages and two unknown keys: the languages are the default ones. -/
theorem decode_overlays_default_of_patterns :
    ofToml "x = 1\n[selector]\npatterns = [\"*.flow\"]\ny = 2" =
      .ok ⟨false, ⟨["javascript", "javascriptreact"], ["*.flow"]⟩⟩ := by
  obtain ⟨hdecode, -, htoml, -⟩ := decode_overlays_default
  let selector : List (String × Value) :=
    [("patterns", .array [.string "*.flow"]), ("y", .integer 2)]
  have hparse : Toml.parse "x = 1\n[selector]\npatterns = [\"*.flow\"]\ny = 2" =
      some (.table [("selector", .table selector), ("x", .integer 1)]) := by decide +kernel
  obtain ⟨_, ⟨⟩, hkeys, hread⟩ := htoml _ _ hparse
  have hpatterns : WritesTexts (.array [.string "*.flow"]) ["*.flow"] := rfl
  have htyped : SelectorConfig.IsTyped .toml (.table selector) :=
    SelectorConfig.exists_writes.1 ⟨⟨SelectorConfig.default.languages, ["*.flow"]⟩,
      .table rfl hpatterns (by simp [selector, Value.isHeld, Value.all])⟩
  obtain ⟨⟨showUncovered, languages, patterns⟩, hc, hshow, hselector, -⟩ :=
    (hdecode .toml _ hkeys).1
      ⟨by simp [lookup], by simpa [lookup] using htyped, by simp [Value.isHeld, Value.all]⟩
  obtain rfl : showUncovered = false := hshow
  obtain ⟨hlanguages, hwritten, -⟩ : SelectorConfig.Writes .toml (.table selector) _ := hselector
  obtain rfl : languages = SelectorConfig.default.languages := hlanguages
  obtain rfl : patterns = ["*.flow"] := by
    have hsame : WritesTexts (.array [.string "*.flow"]) patterns := hwritten
    rw [← asList_asString_eq_ok] at hsame hpatterns
    exact Except.ok.inj (hsame.symm.trans hpatterns)
  rw [hread, hc]
  rfl

/-- A date for the selector is taken for a table of unknown keys, and a number that cannot be held
makes decoding fail under a key that nobody knows. -/
theorem selector_of_date :
    Toml.parse "selector = 1979-05-27" =
      some (.table [("selector", .moment "1979-05-27")]) ∧
    ofToml "selector = 1979-05-27" = .ok default ∧
    Toml.parse "x = 1e400" = some (.table [("x", .overflow .float)]) ∧
    ofToml "x = 1e400" = .error (.typeError (.overflow .float)) := by
  have hdate : Toml.parse "selector = 1979-05-27" =
      some (.table [("selector", .moment "1979-05-27")]) := by decide +kernel
  have hbeyond : Toml.parse "x = 1e400" = some (.table [("x", .overflow .float)]) := by
    decide +kernel
  refine ⟨hdate, ?_, hbeyond, ?_⟩
  · rw [ofToml, hdate]
    rfl
  · rw [ofToml, hbeyond]
    rfl

end Config

end CoverageTracker
