import RegionTypes.Log.Level

/-!
# Log events

An event has a level, a target that says which part of the program reports it, and named fields, the
message among them.
-/

namespace RegionTypes.Log

structure Event where
  level : Level
  target : String
  fields : List (String × String)
  deriving DecidableEq, Repr

def typesTarget : String := "dpj.types"

def configTarget : String := "dpj.config"

end RegionTypes.Log
