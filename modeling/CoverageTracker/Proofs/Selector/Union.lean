import CoverageTracker.Proofs.Data.Decoding
import CoverageTracker.Selector
set_option autoImplicit false

/-!
# A selector is the union of its entries

A selector is compiled exactly if each of its patterns can be used, and otherwise the first pattern
that cannot be read is the error (`Selector.compile_eq_error`).  Once it is compiled, it accepts the
documents that one of its entries selects, a language or a pattern (`Selector.accepts_iff`), so that
neither their order nor their number matters.  Nothing here looks into a pattern: the reader and the
matcher of patterns could be any others.
-/

namespace CoverageTracker

open CoverageTracker.Data.Decoded

variable {config a b : SelectorConfig} {s sa sb : Selector}

namespace SelectorConfig

/-- The entries of two selectors. -/
def append (a b : SelectorConfig) : SelectorConfig :=
  ⟨a.languages ++ b.languages, a.patterns ++ b.patterns⟩

/-- An entry of a selector selects a document: its language is listed, or it has a path and a
pattern matches the path. -/
def Selects (config : SelectorConfig) (d : Document) : Prop :=
  d.language ∈ config.languages ∨
    ∃ path, d.path = some path ∧
      ∃ pattern ∈ config.patterns, ∃ g, Glob.parse pattern = .ok g ∧ g.accepts path = true

/-- The patterns that can be read can be used together. -/
def IsBuildable (config : SelectorConfig) : Prop :=
  ∀ pattern ∈ config.patterns, ∀ g, Glob.parse pattern = .ok g → g.isTooDeep = false

theorem selects_append (d : Document) :
    (a.append b).Selects d ↔ a.Selects d ∨ b.Selects d := by
  simp only [Selects, append, List.mem_append]
  constructor
  · rintro ((hlanguage | hlanguage) | ⟨path, hpath, pattern, hpattern | hpattern, hmatch⟩)
    · exact .inl (.inl hlanguage)
    · exact .inr (.inl hlanguage)
    · exact .inl (.inr ⟨path, hpath, pattern, hpattern, hmatch⟩)
    · exact .inr (.inr ⟨path, hpath, pattern, hpattern, hmatch⟩)
  · rintro ((hlanguage | ⟨path, hpath, pattern, hpattern, hmatch⟩) |
      (hlanguage | ⟨path, hpath, pattern, hpattern, hmatch⟩))
    · exact .inl (.inl hlanguage)
    · exact .inr ⟨path, hpath, pattern, .inl hpattern, hmatch⟩
    · exact .inl (.inr hlanguage)
    · exact .inr ⟨path, hpath, pattern, .inr hpattern, hmatch⟩

/-- More entries select more documents. -/
theorem Selects.mono {d : Document} (h : a.Selects d) (hlanguages : a.languages ⊆ b.languages)
    (hpatterns : a.patterns ⊆ b.patterns) : b.Selects d := by
  rcases h with hlanguage | ⟨path, hpath, pattern, hpattern, hmatch⟩
  · exact .inl (hlanguages hlanguage)
  · exact .inr ⟨path, hpath, pattern, hpatterns hpattern, hmatch⟩

end SelectorConfig

namespace Selector

/-! ## Compiling -/

theorem compile_eq_ok :
    compile config = .ok s ↔ s.languages = config.languages ∧
      config.patterns.mapM Glob.parse = .ok s.patterns ∧ ∀ g ∈ s.patterns, g.isTooDeep = false := by
  rw [compile, bind_eq_ok]
  constructor
  · rintro ⟨gs, hgs, h⟩
    split at h
    · cases h
    · rename_i hshallow
      cases h
      exact ⟨rfl, hgs, by simpa using hshallow⟩
  · rintro ⟨hlanguages, hgs, hshallow⟩
    refine ⟨s.patterns, hgs, ?_⟩
    rw [if_neg (by simpa using hshallow), ← hlanguages]

/-- A selector is compiled if each of its patterns can be read and used. -/
theorem exists_compile_eq_ok :
    (∃ s, compile config = .ok s) ↔
      ∀ pattern ∈ config.patterns, ∃ g, Glob.parse pattern = .ok g ∧ g.isTooDeep = false := by
  simp only [compile_eq_ok]
  constructor
  · rintro ⟨s, -, hgs, hshallow⟩ pattern hpattern
    obtain ⟨g, hg⟩ := exists_mapM_eq_ok.1 ⟨_, hgs⟩ pattern hpattern
    exact ⟨g, hg, hshallow g ((mem_of_mapM_eq_ok hgs g).2 ⟨pattern, hpattern, hg⟩)⟩
  · intro h
    obtain ⟨gs, hgs⟩ := exists_mapM_eq_ok.2 fun pattern hpattern =>
      (h pattern hpattern).imp fun _ hg => hg.1
    refine ⟨⟨config.languages, gs⟩, rfl, hgs, fun g hmem => ?_⟩
    obtain ⟨pattern, hpattern, hg⟩ := (mem_of_mapM_eq_ok hgs g).1 hmem
    obtain ⟨g', hg', hshallow⟩ := h pattern hpattern
    rw [hg, Except.ok.injEq] at hg'
    exact hg' ▸ hshallow

/-- Patterns that can be used together only need to be read. -/
theorem compile_of_isBuildable (hbuildable : config.IsBuildable) :
    compile config = (config.patterns.mapM Glob.parse).map (Selector.mk config.languages) := by
  cases hgs : config.patterns.mapM Glob.parse with
  | error e =>
    rw [compile, hgs]
    rfl
  | ok gs =>
    refine compile_eq_ok.2 ⟨rfl, hgs, fun g hmem => ?_⟩
    obtain ⟨pattern, hpattern, hg⟩ := (mem_of_mapM_eq_ok hgs g).1 hmem
    exact hbuildable pattern hpattern g hg

/-- The first pattern that cannot be read is the error. -/
theorem compile_eq_error (hbuildable : config.IsBuildable) {e : GlobError} :
    compile config = .error e ↔ ∃ before pattern after,
      config.patterns = before ++ pattern :: after ∧
      (∀ p ∈ before, ∃ g, Glob.parse p = .ok g) ∧ Glob.parse pattern = .error e := by
  rw [← mapM_eq_error, compile_of_isBuildable hbuildable]
  cases config.patterns.mapM Glob.parse <;> simp [Except.map]

/-- There is no error but for a pattern that cannot be read. -/
theorem exists_compile_eq_error (hbuildable : config.IsBuildable) :
    (∃ e, compile config = .error e) ↔
      ∃ pattern ∈ config.patterns, ∃ e, Glob.parse pattern = .error e := by
  constructor
  · rintro ⟨e, h⟩
    obtain ⟨before, pattern, after, hpatterns, -, hpattern⟩ := (compile_eq_error hbuildable).1 h
    exact ⟨pattern, by simp [hpatterns], e, hpattern⟩
  · rintro ⟨pattern, hpattern, e, he⟩
    cases hcompile : compile config with
    | error e' => exact ⟨e', rfl⟩
    | ok s =>
      obtain ⟨g, hg, -⟩ := exists_compile_eq_ok.1 ⟨s, hcompile⟩ pattern hpattern
      rw [he] at hg
      cases hg

/-! ## Accepting -/

/-- A compiled selector accepts the documents that an entry selects. -/
theorem accepts_iff (h : compile config = .ok s) (d : Document) :
    s.accepts d = true ↔ config.Selects d := by
  obtain ⟨hlanguages, hpatterns, -⟩ := compile_eq_ok.1 h
  have hlanguage : (s.languages.any (· == d.language)) = true ↔ d.language ∈ config.languages := by
    simp [hlanguages]
  unfold accepts SelectorConfig.Selects
  rw [Bool.or_eq_true, hlanguage]
  refine or_congr_right ?_
  cases d.path with
  | none => simp
  | some path =>
    simp only [List.any_eq_true, mem_of_mapM_eq_ok hpatterns, Option.some.injEq, exists_eq_left']
    constructor
    · rintro ⟨g, ⟨pattern, hpattern, hg⟩, hmatch⟩
      exact ⟨pattern, hpattern, g, hg, hmatch⟩
    · rintro ⟨pattern, hpattern, g, hg, hmatch⟩
      exact ⟨g, ⟨pattern, hpattern, hg⟩, hmatch⟩

/-- Selectors accept the same documents if the same documents are selected. -/
theorem accepts_congr (ha : compile a = .ok sa) (hb : compile b = .ok sb) {d e : Document}
    (h : a.Selects d ↔ b.Selects e) : sa.accepts d = sb.accepts e := by
  rw [Bool.eq_iff_iff, accepts_iff ha, accepts_iff hb, h]

/-- A selector is the union of its entries.  Provided that patterns which can be read can be used
together, a selector is compiled unless a pattern cannot be read, and the first such pattern is the
error.  The selector of the entries of two others accepts what one of them accepts.  So neither the
order nor the repetition of entries matters, more entries accept more documents, the URI of a
document plays no role, and a document without a path is accepted for its language alone, byte for
byte. -/
theorem accepts_union :
    (∀ config : SelectorConfig, config.IsBuildable →
      (∀ e, compile config = .error e ↔ ∃ before pattern after,
        config.patterns = before ++ pattern :: after ∧
        (∀ p ∈ before, ∃ g, Glob.parse p = .ok g) ∧ Glob.parse pattern = .error e) ∧
      ((∃ e, compile config = .error e) ↔
        ∃ pattern ∈ config.patterns, ∃ e, Glob.parse pattern = .error e)) ∧
    ∀ (a b : SelectorConfig) (sa sb : Selector), compile a = .ok sa → compile b = .ok sb →
      (∃ s, compile (a.append b) = .ok s ∧ ∀ d, s.accepts d = (sa.accepts d || sb.accepts d)) ∧
      (∀ c : SelectorConfig, c.patterns ⊆ a.patterns → ∃ s, compile c = .ok s) ∧
      ((∀ l, l ∈ a.languages ↔ l ∈ b.languages) → (∀ p, p ∈ a.patterns ↔ p ∈ b.patterns) →
        ∀ d, sa.accepts d = sb.accepts d) ∧
      (a.languages ⊆ b.languages → a.patterns ⊆ b.patterns →
        ∀ d, sa.accepts d = true → sb.accepts d = true) ∧
      (∀ d uri, sa.accepts { d with uri } = sa.accepts d) ∧
      ∀ d, d.path = none →
        (sa.accepts d = true ↔ ∃ l ∈ a.languages, l.toByteArray = d.language.toByteArray) := by
  refine ⟨fun config hbuildable =>
    ⟨fun e => compile_eq_error hbuildable, exists_compile_eq_error hbuildable⟩, ?_⟩
  intro a b sa sb ha hb
  have hcompiles (c : SelectorConfig) (hc : c.patterns ⊆ a.patterns ++ b.patterns) :
      ∃ s, compile c = .ok s := by
    rw [exists_compile_eq_ok]
    intro pattern hpattern
    rcases List.mem_append.1 (hc hpattern) with hmem | hmem
    · exact exists_compile_eq_ok.1 ⟨sa, ha⟩ pattern hmem
    · exact exists_compile_eq_ok.1 ⟨sb, hb⟩ pattern hmem
  refine ⟨?_, ?_, ?_, ?_, ?_, ?_⟩
  · obtain ⟨s, hs⟩ := hcompiles (a.append b) (List.Subset.refl _)
    refine ⟨s, hs, fun d => ?_⟩
    rw [Bool.eq_iff_iff, Bool.or_eq_true, accepts_iff hs, accepts_iff ha, accepts_iff hb,
      SelectorConfig.selects_append]
  · exact fun c hc => hcompiles c (List.Subset.trans hc (List.subset_append_left _ _))
  · intro hlanguages hpatterns d
    refine accepts_congr ha hb ⟨fun h => ?_, fun h => ?_⟩
    · exact h.mono (fun l => (hlanguages l).1) fun p => (hpatterns p).1
    · exact h.mono (fun l => (hlanguages l).2) fun p => (hpatterns p).2
  · intro hlanguages hpatterns d h
    rw [accepts_iff ha] at h
    rw [accepts_iff hb]
    exact h.mono hlanguages hpatterns
  · exact fun d uri => accepts_congr ha ha Iff.rfl
  · intro d hpath
    rw [accepts_iff ha]
    simp [SelectorConfig.Selects, hpath, String.toByteArray_inj]

/-- The second of three patterns is the first that cannot be read; and a document without a listed
language is accepted for its path, by the pattern of one of two selectors. -/
theorem accepts_union_of_patterns :
    let a : SelectorConfig := ⟨["javascript"], ["**/*.js.flow"]⟩
    let b : SelectorConfig := ⟨[], ["*.ts"]⟩
    let broken : SelectorConfig := ⟨[], ["*.ts", "a/\x7bb", "["]⟩
    let d : Document := ⟨⟨"file:///a.js.flow", rfl⟩, "plaintext", some "/lib/a.js.flow"⟩
    broken.IsBuildable ∧
    compile broken = .error (.invalid "a/\x7bb" .unclosedAlternates) ∧
    ∃ sa sb s, compile a = .ok sa ∧ compile b = .ok sb ∧ compile (a.append b) = .ok s ∧
      s.accepts d = true ∧ sb.accepts d = false := by
  intro a b broken d
  obtain ⟨herrors, hunion⟩ := accepts_union
  have hbuildable : broken.IsBuildable := by
    have hshallow : ∀ pattern ∈ broken.patterns,
        (Glob.parse pattern).toOption.all (fun g => !g.isTooDeep) = true := by decide +kernel
    intro pattern hpattern g hg
    have hg' := hshallow pattern hpattern
    rw [hg] at hg'
    simpa [Except.toOption] using hg'
  refine ⟨hbuildable, ?_, ?_⟩
  · exact ((herrors broken hbuildable).1 _).2 ⟨["*.ts"], "a/\x7bb", ["["], rfl,
      by simpa using ⟨_, rfl⟩, rfl⟩
  · obtain ⟨sa, ha⟩ : ∃ sa, compile a = .ok sa := ⟨_, rfl⟩
    obtain ⟨sb, hb⟩ : ∃ sb, compile b = .ok sb := ⟨_, rfl⟩
    obtain ⟨s, hs, haccepts⟩ := (hunion a b sa sb ha hb).1
    have hsa : (compile a).toOption.any (fun s => s.accepts d) = true := by decide +kernel
    have hsb : (compile b).toOption.all (fun s => !s.accepts d) = true := by decide +kernel
    rw [ha] at hsa
    rw [hb] at hsb
    have haccepted : sa.accepts d = true := by simpa [Except.toOption] using hsa
    refine ⟨sa, sb, s, ha, hb, hs, ?_, by simpa [Except.toOption] using hsb⟩
    rw [haccepts, haccepted, Bool.true_or]

end Selector

end CoverageTracker
