/-!
# Display options

How much detail a rendered type shows.
-/

namespace RegionTypes

structure DisplayOptions where
  /-- Tell type variables and anonymous classes apart, and show the bound of a wildcard's formal. -/
  verbose : Bool := false
  printRegions : Bool := false
  deriving DecidableEq, Repr, Inhabited

def DisplayOptions.describe (o : DisplayOptions) : String :=
  s!"DisplayOptions \x7b verbose: {o.verbose}, print_regions: {o.printRegions} \x7d"

end RegionTypes
