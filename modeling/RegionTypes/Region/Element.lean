/-!
# Elements of region paths

A region path such as `Root:A:*` is a list of **elements**.  This module gives the six kinds of
element, their text and their order.

* `Element.compare` — elements are ordered by kind (`Root`, star, name, parameter, variable, index)
  and, within one kind, by name in code point order.
* `Element.compare_eq_iff_eq` — the order tells any two elements apart.
-/

namespace RegionTypes

/-- One segment of a region path. -/
inductive Element where
  | root
  /-- Any sequence of regions below the preceding prefix. -/
  | star
  | name (label : String)
  /-- A formal region parameter of a class or method. -/
  | param (label : String)
  | var (label : String)
  | index (label : String)
  deriving DecidableEq, Repr, Inhabited

namespace Element

def rank : Element → Nat
  | root => 0
  | star => 1
  | name _ => 2
  | param _ => 3
  | var _ => 4
  | index _ => 5

/-- The name an element carries; empty for `root` and `star`. -/
def label : Element → String
  | root | star => ""
  | name l | param l | var l | index l => l

protected def compare : Element → Element → Ordering :=
  compareLex (compareOn rank) (compareOn label)

instance : Ord Element := ⟨Element.compare⟩

theorem eq_of_rank_label {a b : Element} (hr : a.rank = b.rank) (hl : a.label = b.label) :
    a = b := by
  cases a <;> cases b <;> simp_all [rank, label]

instance : Std.TransOrd Element :=
  inferInstanceAs (Std.TransCmp (compareLex (compareOn rank) (compareOn label)))

theorem compare_eq_iff_eq {a b : Element} : compare a b = .eq ↔ a = b := by
  show compareLex (compareOn rank) (compareOn label) a b = .eq ↔ a = b
  rw [compareLex_eq_eq]
  constructor
  · rintro ⟨hr, hl⟩
    exact eq_of_rank_label (Std.LawfulEqOrd.eq_of_compare hr) (Std.LawfulEqOrd.eq_of_compare hl)
  · rintro rfl
    exact ⟨Std.ReflOrd.compare_self, Std.ReflOrd.compare_self⟩

instance : Std.LawfulEqOrd Element where
  eq_of_compare := compare_eq_iff_eq.1

/-- Names, parameters and variables are written as they are; an index stands in brackets. -/
def text : Element → String
  | root => "Root"
  | star => "*"
  | name l | param l | var l => l
  | index l => "[" ++ l ++ "]"

end Element

end RegionTypes
