import CoverageTracker.Uri
set_option autoImplicit false

/-!
# Documents

A document as the editor names it.  Its identity is its URI: two descriptions with equal
URIs are of the same document, whatever language or path they give.
-/

namespace CoverageTracker

/-- An editor document. -/
structure Document where
  uri : Uri
  language : String
  /-- its place in the file system, if it has one; paths that are not UTF-8 have no counterpart -/
  path : Option String
  deriving DecidableEq, Repr

/-- Whether two descriptions are of the same document. -/
def Document.same (a b : Document) : Bool := a.uri == b.uri

end CoverageTracker
