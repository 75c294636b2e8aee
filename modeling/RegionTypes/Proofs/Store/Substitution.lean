import RegionTypes.Proofs.Store.Returns
import RegionTypes.Proofs.Store.Tree

/-!
# Substitution on trees

Substitution as it is understood on trees, and the proof that substitution in the store computes it.

* `Tree.subst` — **simultaneous substitution**.  A variable becomes the image of the first
  replacement whose source stands for it; images are not looked into again; inside a quantified type
  the replacements for its variables are dropped.
* `Tree.changes` — whether some variable of the tree is replaced by another handle.  An array whose
  element changes loses its region and its index variable, and a quantified type whose body changes
  takes the symbol of its new body.
* `Tree.classes` — the classes a tree mentions.
-/

namespace RegionTypes

/-- Whether a source stands for a variable: it has the same handle, or the same symbol. -/
def Occurrence.standsFor (source var : Occurrence) : Bool :=
  source.ty = var.ty || (var.symbol.isSome && source.symbol = var.symbol)

/-- What a variable is replaced by: a handle and the tree it reads as. -/
structure Replacement where
  source : Occurrence
  target : TypeId
  image : Tree

namespace Replacement

/-- The first replacement for a variable. -/
def find? (ρ : List Replacement) (var : Occurrence) : Option Replacement :=
  List.find? (fun r => r.source.standsFor var) ρ

/-- The replacements that a quantifier over the given variables leaves in force. -/
def outside (ρ : List Replacement) (vars : List Occurrence) : List Replacement :=
  ρ.filter fun r => !vars.any fun v => r.source.standsFor v

end Replacement

namespace Tree

mutual

/-- Whether substitution changes the handle of a type that reads as this tree. -/
def changes : Tree → List Replacement → Bool
  | leaf .., _ => false
  | var ty data, ρ => (Replacement.find? ρ ⟨ty, data.symbol⟩).any fun r => r.target ≠ ty
  | classType _ outer args _ _ _, ρ => outer.changes ρ || changesAny args ρ
  | array elem _ _, ρ => elem.changes ρ
  | method params result thrown _, ρ =>
    changesAny params ρ || result.changes ρ || changesAny thrown ρ
  | forAll _ vars _ _ body, ρ => body.changes (Replacement.outside ρ vars)
  | wildcard bound _ _, ρ => bound.changes ρ

/-- Whether substitution changes the handle of some type of a list. -/
def changesAny : List Tree → List Replacement → Bool
  | [], _ => false
  | t :: rest, ρ => t.changes ρ || changesAny rest ρ

end

mutual

/-- Simultaneous substitution in a tree. -/
def subst : Tree → List Replacement → Tree
  | leaf ty data, _ => leaf ty data
  | var ty data, ρ =>
    match Replacement.find? ρ ⟨ty, data.symbol⟩ with
    | some r => r.image
    | none => var ty data
  | classType head outer args regions effects cell, ρ =>
    classType head (outer.subst ρ) (substAll args ρ) regions effects cell
  | array elem region indexVar, ρ =>
    if elem.changes ρ then array (elem.subst ρ) Path.root none
    else array (elem.subst ρ) region indexVar
  | method params result thrown actuals, ρ =>
    method (substAll params ρ) (result.subst ρ) (substAll thrown ρ) actuals
  | forAll symbol vars regions effects body, ρ =>
    let inner := Replacement.outside ρ vars
    let image := body.subst inner
    forAll (if body.changes inner then image.symbol else symbol) vars regions effects image
  | wildcard bound kind formal, ρ => wildcard (bound.subst ρ) kind formal

/-- Simultaneous substitution in the trees of a list. -/
def substAll : List Tree → List Replacement → List Tree
  | [], _ => []
  | t :: rest, ρ => t.subst ρ :: substAll rest ρ

end

mutual

/-- The symbols of the class types in a tree. -/
def classes : Tree → List SymbolId
  | leaf .. | var .. => []
  | classType head outer args _ _ _ => head.symbol.toList ++ outer.classes ++ classesAll args
  | array elem _ _ => elem.classes
  | method params result thrown _ => classesAll params ++ result.classes ++ classesAll thrown
  | forAll _ _ _ _ body => body.classes
  | wildcard bound _ _ => bound.classes

/-- The symbols of the class types in the trees of a list. -/
def classesAll : List Tree → List SymbolId
  | [] => []
  | t :: rest => t.classes ++ classesAll rest

end

/-! ### No replacements -/

mutual

theorem changes_nil : ∀ t : Tree, t.changes [] = false
  | leaf .. => rfl
  | var .. => rfl
  | classType _ outer args _ _ _ => by
    rw [changes, outer.changes_nil, changesAny_nil args]
    rfl
  | array elem _ _ => elem.changes_nil
  | method params result thrown _ => by
    rw [changes, changesAny_nil params, result.changes_nil, changesAny_nil thrown]
    rfl
  | forAll _ _ _ _ body => body.changes_nil
  | wildcard bound _ _ => bound.changes_nil

theorem changesAny_nil : ∀ ts : List Tree, changesAny ts [] = false
  | [] => rfl
  | t :: rest => by
    rw [changesAny, t.changes_nil, changesAny_nil rest]
    rfl

end

mutual

theorem subst_nil : ∀ t : Tree, t.subst [] = t
  | leaf .. => rfl
  | var .. => rfl
  | classType _ outer args _ _ _ => by rw [subst, outer.subst_nil, substAll_nil args]
  | array elem _ _ => by
    rw [subst, elem.changes_nil, elem.subst_nil]
    rfl
  | method params result thrown _ => by
    rw [subst, substAll_nil params, result.subst_nil, substAll_nil thrown]
  | forAll symbol vars _ _ body => by
    rw [subst, show Replacement.outside [] vars = [] from rfl, body.changes_nil, body.subst_nil]
    rfl
  | wildcard bound _ _ => by rw [subst, bound.subst_nil]

theorem substAll_nil : ∀ ts : List Tree, substAll ts [] = ts
  | [] => rfl
  | t :: rest => by rw [substAll, t.subst_nil, substAll_nil rest]

end

end Tree

end RegionTypes
