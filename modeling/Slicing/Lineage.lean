/-!
# Lineages

Both public slice types can be derived from without adding anything. Whether a value is of the
type itself or of the derived one matters for its name, for the order in which operators are
tried, and for hashing; everything else ignores it.
-/

namespace Slicing

/-- Whether a value belongs to a type itself or to the plain type derived from it. -/
inductive Lineage where
  | base
  | derived
  deriving DecidableEq

end Slicing
