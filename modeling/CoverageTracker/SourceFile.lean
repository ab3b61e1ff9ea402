import CoverageTracker.Document
set_option autoImplicit false

/-!
# Source files by name

The script files below `/src`, known by their names.
-/

namespace CoverageTracker

/-- The script file of a name; the name must leave a URI. -/
def Document.sourceFile (name : String) : Except UriFault Document :=
  match Uri.parse ("file:///src/" ++ name) with
  | .ok uri => .ok ⟨uri, "javascript", some ("/src/" ++ name)⟩
  | .error fault => .error fault

end CoverageTracker
