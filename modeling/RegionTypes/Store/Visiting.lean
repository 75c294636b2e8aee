import RegionTypes.Store.Session

/-!
# Visiting types

A visitor treats each variant of type in a way of its own, or leaves it to a more general treatment:
a captured variable is treated like a type variable, and everything else like any type.

* `Visitor.label?` — what a visitor calls the variants that it treats on their own.
* `Visitor.treat` — the label a visitor gives to a variant, its own or the next more general one.
-/

namespace RegionTypes

open Run

namespace Visit

def ofKind : Kind → Visit
  | .primitive _ => primitive
  | .void | .missing => noType
  | .bottom => bottom
  | .package => package
  | .classType _ => classType
  | .error _ => errorType
  | .array _ => array
  | .method _ => method
  | .forAll _ => forAll
  | .typeVar _ => typeVar
  | .captured .. => captured
  | .wildcard _ => wildcard
  | .placeholder _ => placeholder

def name : Visit → String
  | type => "visit_type"
  | primitive => "visit_primitive"
  | classType => "visit_class_type"
  | errorType => "visit_error_type"
  | wildcard => "visit_wildcard_type"
  | array => "visit_array_type"
  | method => "visit_method_type"
  | package => "visit_package_type"
  | typeVar => "visit_type_var"
  | captured => "visit_captured_type"
  | forAll => "visit_for_all"
  | placeholder => "visit_undet_var"
  | noType => "visit_no_type"
  | bottom => "visit_bottom"

end Visit

namespace Visitor

/-- What a visitor calls a variant that it treats on its own. -/
def label? : Visitor → Visit → Option String
  | full, visit => some visit.name
  | describe, .classType => some "class"
  | describe, .typeVar => some "type variable"
  | describe, .errorType => some "error"
  | minimal, _ | describe, _ => none

/-- What a visitor calls any type that it does not treat on its own. -/
def fallback : Visitor → String
  | minimal => "type"
  | describe => "other"
  | full => Visit.type.name

def treat (v : Visitor) (visit : Visit) : String :=
  match visit with
  | .captured => ((v.label? .captured).or (v.label? .typeVar)).getD v.fallback
  | _ => (v.label? visit).getD v.fallback

end Visitor

def accept (visitor : Visitor) (ty : TypeId) : Run String := do
  return visitor.treat (Visit.ofKind (← kindOf ty))

end RegionTypes
