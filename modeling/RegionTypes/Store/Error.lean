/-!
# Errors of the type store

Three causes keep an operation from succeeding in the ordinary way: a write-once field that already
holds another value, a type of the wrong variant, and a completer that could not load a declaration.
Broken invariants are none of these: they end the whole run.

* `TypeError.message`, `CompletionError.text` — the wording, in one place.
-/

namespace RegionTypes

/-- A completer could not load a symbol's declaration. -/
structure CompletionError where
  symbol : String
  message : String
  deriving DecidableEq, Repr

def CompletionError.text (e : CompletionError) : String :=
  "failed to complete `" ++ e.symbol ++ "`: " ++ e.message

inductive Field where
  | typeParameters | regionParameters | effectParameters | supertypes | callActuals | upperBound
  | instantiation
  deriving DecidableEq, Repr

def Field.name : Field → String
  | typeParameters => "type parameters"
  | regionParameters => "region parameters"
  | effectParameters => "effect parameters"
  | supertypes => "supertypes"
  | callActuals => "call-site actuals"
  | upperBound => "upper bound"
  | instantiation => "instantiation"

/-- The variants an operation may insist on. -/
inductive Expected where
  | classType | methodType | typeVariable | inferenceVariable
  deriving DecidableEq, Repr

def Expected.name : Expected → String
  | classType => "class type"
  | methodType => "method type"
  | typeVariable => "type variable"
  | inferenceVariable => "inference variable"

/-- Misuse of a type that the caller can recover from.  Types are named by their texts. -/
inductive TypeError where
  /-- A write-once field was written a second time. -/
  | alreadySet (field : Field) (type : String)
  | unexpected (expected : Expected) (found : String)
  | completion (error : CompletionError)
  deriving DecidableEq, Repr

def TypeError.message : TypeError → String
  | alreadySet field type => field.name ++ " of `" ++ type ++ "` is already set"
  | unexpected expected found => "expected a " ++ expected.name ++ ", found `" ++ found ++ "`"
  | completion error => error.text

/-- Why a step of a script failed. -/
inductive Failure where
  | type (error : TypeError)
  | completion (error : CompletionError)
  deriving DecidableEq, Repr

def Failure.message : Failure → String
  | type error => error.message
  | completion error => error.text

/-- Why a whole run ends early. -/
inductive Stop where
  | violation (detail : String)
  /-- Operations nested more deeply than the run allows. -/
  | tooDeep
  /-- A script used a name that nothing was given. -/
  | unknownName (label : String)
  deriving DecidableEq, Repr

def Stop.message : Stop → String
  | violation detail => "internal error: " ++ detail
  | tooDeep => "operations are nested too deeply"
  | unknownName label => "nothing is named " ++ label

end RegionTypes
