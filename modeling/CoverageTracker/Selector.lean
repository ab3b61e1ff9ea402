import CoverageTracker.Config
import CoverageTracker.Document
import CoverageTracker.Glob.Matching
set_option autoImplicit false

/-!
# Document selectors

Which documents coverage is tracked for.  A selector is compiled from its configuration
once; it accepts a document whose language is listed, and a document with a path that one
of the patterns matches.
-/

namespace CoverageTracker

/-- A compiled selector. -/
structure Selector where
  languages : List String
  patterns : List Glob
  deriving Repr

namespace Selector

/-- Compiles a selector.  The first pattern that cannot be read is the error; patterns that
can all be read may still nest too deep. -/
def compile (config : SelectorConfig) : Except GlobError Selector := do
  let patterns ← config.patterns.mapM Glob.parse
  if patterns.any Glob.isTooDeep then .error .tooDeep
  else .ok ⟨config.languages, patterns⟩

/-- Whether a document is tracked. -/
def accepts (s : Selector) (d : Document) : Bool :=
  s.languages.any (· == d.language) ||
    match d.path with
    | some path => s.patterns.any fun g => g.accepts path
    | none => false

end Selector

end CoverageTracker
