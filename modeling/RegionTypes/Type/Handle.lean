/-!
# Handles

Types and symbols are named by **handles**: their positions, in order of allocation, in the store
that made them.  Two handles are equal exactly when they name the same allocation.
-/

namespace RegionTypes

structure TypeId where
  index : Nat
  deriving DecidableEq, Repr, Hashable, Inhabited

structure SymbolId where
  index : Nat
  deriving DecidableEq, Repr, Hashable, Inhabited

def TypeId.text (ty : TypeId) : String := s!"TypeId({ty.index})"

def SymbolId.text (sym : SymbolId) : String := s!"SymbolId({sym.index})"

end RegionTypes
