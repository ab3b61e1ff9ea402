import CoverageTracker.Data.Value
import CoverageTracker.Proofs.Data.Respelling
set_option autoImplicit false

/-!
# JSON values

Which values a JSON text denotes: no moments and nothing that cannot be held, whole numbers of 64
bits, numbers that are finite, and tables in which each key stands once.
-/

namespace CoverageTracker.Data

namespace Value

mutual

/-- A value that a JSON text denotes. -/
def isJson : Value → Bool
  | .integer n => fitsWord n
  | .float x => x.isFinite
  | .moment _ => false
  | .overflow _ => false
  | .array vs => areJson vs
  | .table es => decide (es.map Prod.fst).Nodup && entriesAreJson es
  | _ => true

/-- Each item is a JSON value. -/
def areJson : List Value → Bool
  | [] => true
  | v :: vs => v.isJson && areJson vs

/-- The value of each entry is a JSON value. -/
def entriesAreJson : List (String × Value) → Bool
  | [] => true
  | (_, v) :: es => v.isJson && entriesAreJson es

end

variable {v : Value} {vs : List Value} {es : List (String × Value)}

theorem areJson_iff : areJson vs = true ↔ ∀ v ∈ vs, v.isJson = true := by
  induction vs with
  | nil => simp [areJson]
  | cons v vs ih => simp [areJson, ih]

theorem entriesAreJson_iff : entriesAreJson es = true ↔ ∀ e ∈ es, e.2.isJson = true := by
  induction es with
  | nil => simp [entriesAreJson]
  | cons e es ih => simp [entriesAreJson, ih]

end Value

end CoverageTracker.Data
