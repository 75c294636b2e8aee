import RegionTypes.Region.Element

/-!
# Region paths

A **path** names a region: `Root:A:B`, a parameter `P`, or a whole subtree `Root:A:*`.  The path
`Root` is what every omitted region argument stands for.

* `Path.subst` — simultaneous substitution of region parameters.  Only the *leading* parameter of a
  path is replaced, and the first formal that names it wins.
* `Path.includedIn` — nesting of regions: `Root:A:B` lies in `Root:A:*` and in itself.
* Paths are ordered lexicographically by element (`instOrdPath`), and the order tells any two paths
  apart.
-/

namespace RegionTypes

/-- A region path, outermost element first. -/
structure Path where
  elements : List Element
  deriving DecidableEq, Repr

namespace Path

def root : Path := ⟨[.root]⟩

instance : Inhabited Path := ⟨root⟩

def ofElements? (elements : List Element) : Option Path :=
  if elements.isEmpty then none else some ⟨elements⟩

def param (label : String) : Path := ⟨[.param label]⟩

def child (p : Path) (e : Element) : Path := ⟨p.elements ++ [e]⟩

def named (label : String) : Path := root.child (.name label)

/-- The path without its last element; a path of one element has no parent. -/
def parent? (p : Path) : Option Path :=
  if p.elements.length ≤ 1 then none else some ⟨p.elements.dropLast⟩

def isRoot (p : Path) : Bool := p.elements == [.root]

def leadingParam? (p : Path) : Option String :=
  match p.elements with
  | .param label :: _ => some label
  | _ => none

/-! ### Substitution -/

/-- Replaces a leading occurrence of the parameter `label` by `replacement`. -/
def substParam (p : Path) (label : String) (replacement : Path) : Path :=
  if p.leadingParam? = some label then ⟨replacement.elements ++ p.elements.tail⟩ else p

def isParam (p : Path) (label : String) : Bool := p.elements == [.param label]

/-- The actual that stands beside the first formal naming the parameter `label`. -/
def actualFor? (label : String) (formals actuals : List Path) : Option Path :=
  ((formals.zip actuals).find? fun pair => pair.1.isParam label).map Prod.snd

/-- Simultaneous substitution of the parameters `formals` by `actuals`.  Formals that are not a
single parameter are ignored, and so are entries without a counterpart. -/
def subst (p : Path) (formals actuals : List Path) : Path :=
  match p.leadingParam? with
  | none => p
  | some label =>
    match actualFor? label formals actuals with
    | none => p
    | some actual => p.substParam label actual

/-! ### Inclusion -/

/-- A path that ends in a star includes every path that continues what stands before the star; any
other path includes itself only. -/
def includedIn (p q : Path) : Bool :=
  if q.elements.getLast? = some .star then q.elements.dropLast.isPrefixOf p.elements
  else p == q

/-! ### Order and text -/

protected def compare (p q : Path) : Ordering := compare p.elements q.elements

instance : Ord Path := ⟨Path.compare⟩

instance : Std.TransOrd Path where
  eq_swap {a b} := Std.OrientedOrd.eq_swap (α := List Element) (a := a.elements) (b := b.elements)
  isLE_trans {_ b _} hab hbc :=
    Std.TransOrd.isLE_trans (α := List Element) (b := b.elements) hab hbc

theorem compare_eq_iff_eq {p q : Path} : compare p q = .eq ↔ p = q := by
  show compare p.elements q.elements = .eq ↔ p = q
  rw [Std.LawfulEqOrd.compare_eq_iff_eq]
  constructor
  · intro h; cases p; cases q; simpa using h
  · rintro rfl; rfl

instance : Std.LawfulEqOrd Path where
  eq_of_compare := compare_eq_iff_eq.1

def text (p : Path) : String := ":".intercalate (p.elements.map Element.text)

/-- Paths in increasing order; equal paths all stay. -/
def sort (paths : List Path) : List Path := paths.mergeSort fun p q => (compare p q).isLE

end Path

end RegionTypes
