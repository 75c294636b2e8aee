import RegionTypes.Region.Path

/-!
# Effects

An **effect** is a read or a write of a region, or an effect variable that stands for a summary yet
unknown.

* `Effect.coveredBy` — a write covers a read of the same region, and a wider region covers a
  narrower one; a variable is covered by itself only.
* Effects are ordered: reads, then writes, then variables (`Effect.compare`), and the order tells any
  two effects apart.
-/

namespace RegionTypes

/-- What a piece of code does to the heap. -/
inductive Effect where
  | read (region : Path)
  /-- Writes, and perhaps reads, the cells of a region. -/
  | write (region : Path)
  | var (label : String)
  deriving DecidableEq, Repr

namespace Effect

/-- Whether `f` permits whatever `e` does. -/
def coveredBy : Effect → Effect → Bool
  | read r, read s | read r, write s | write r, write s => r.includedIn s
  | var a, var b => a == b
  | _, _ => false

def substRegions (e : Effect) (formals actuals : List Path) : Effect :=
  match e with
  | read r => read (r.subst formals actuals)
  | write r => write (r.subst formals actuals)
  | var label => var label

/-! ### Order and text -/

def rank : Effect → Nat
  | read _ => 0
  | write _ => 1
  | var _ => 2

/-- The region an effect touches; a variable touches none yet. -/
def elements : Effect → List Element
  | read r | write r => r.elements
  | var _ => []

def label : Effect → String
  | read _ | write _ => ""
  | var l => l

protected def compare : Effect → Effect → Ordering :=
  compareLex (compareOn rank) (compareLex (compareOn elements) (compareOn label))

instance : Ord Effect := ⟨Effect.compare⟩

instance : Std.TransOrd Effect :=
  inferInstanceAs
    (Std.TransCmp (compareLex (compareOn rank) (compareLex (compareOn elements) (compareOn label))))

theorem eq_of_parts {a b : Effect} (hr : a.rank = b.rank) (he : a.elements = b.elements)
    (hl : a.label = b.label) : a = b := by
  rcases a with ⟨⟨_⟩⟩ | ⟨⟨_⟩⟩ | _ <;> rcases b with ⟨⟨_⟩⟩ | ⟨⟨_⟩⟩ | _ <;>
    simp_all [rank, elements, label]

theorem compare_eq_iff_eq {a b : Effect} : compare a b = .eq ↔ a = b := by
  show compareLex (compareOn rank) (compareLex (compareOn elements) (compareOn label)) a b = .eq ↔
    a = b
  rw [compareLex_eq_eq, compareLex_eq_eq]
  constructor
  · rintro ⟨hr, he, hl⟩
    exact eq_of_parts (Std.LawfulEqOrd.eq_of_compare hr) (Std.LawfulEqOrd.eq_of_compare he)
      (Std.LawfulEqOrd.eq_of_compare hl)
  · rintro rfl
    exact ⟨Std.ReflOrd.compare_self, Std.ReflOrd.compare_self, Std.ReflOrd.compare_self⟩

instance : Std.LawfulEqOrd Effect where
  eq_of_compare := compare_eq_iff_eq.1

def text : Effect → String
  | read r => "reads " ++ r.text
  | write r => "writes " ++ r.text
  | var l => "effect " ++ l

end Effect

end RegionTypes
