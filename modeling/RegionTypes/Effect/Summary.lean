import RegionTypes.Effect.Basic

/-!
# Effect summaries

A **summary** is a finite set of effects: what a method may do to the heap.  It is kept as a list
that is strictly increasing in the order of effects, so a set has one representation.

* `Summary.insert`, `Summary.union`, `Summary.ofList` — built by insertion into the increasing list.
* `Summary.mem_insert`, `Summary.mem_union`, `Summary.mem_ofList` — what each holds.
* `Summary.subeffectOf` — every effect is covered by some effect of the other summary.
* `Summary.substRegions`, `Summary.substVar` — instantiation of region and effect parameters.
-/

namespace RegionTypes

/-- Strictly increasing lists of effects. -/
def Increasing (es : List Effect) : Prop := es.Pairwise fun a b => compare a b = .lt

/-- Puts an effect in its place, unless it is there already. -/
def insertEffect (e : Effect) : List Effect → List Effect
  | [] => [e]
  | f :: rest =>
    match compare e f with
    | .lt => e :: f :: rest
    | .eq => f :: rest
    | .gt => f :: insertEffect e rest

theorem mem_insertEffect {e x : Effect} {es : List Effect} :
    x ∈ insertEffect e es ↔ x = e ∨ x ∈ es := by
  induction es with
  | nil => simp [insertEffect]
  | cons f rest ih =>
    rw [insertEffect]
    split
    · simp
    · next h =>
      obtain rfl := Effect.compare_eq_iff_eq.1 h
      simp
    · simp only [List.mem_cons, ih]
      constructor
      · rintro (h | h | h) <;> simp [h]
      · rintro (h | h | h) <;> simp [h]

theorem increasing_insertEffect {e : Effect} {es : List Effect} (h : Increasing es) :
    Increasing (insertEffect e es) := by
  induction es with
  | nil => simp [insertEffect, Increasing]
  | cons f rest ih =>
    obtain ⟨hf, hrest⟩ := List.pairwise_cons.1 h
    rw [insertEffect]
    split
    · next hlt =>
      refine List.pairwise_cons.2 ⟨fun g hg => ?_, h⟩
      rcases List.mem_cons.1 hg with rfl | hg
      · exact hlt
      · exact Std.TransCmp.lt_trans hlt (hf g hg)
    · exact h
    · next hgt =>
      refine List.pairwise_cons.2 ⟨fun g hg => ?_, ih hrest⟩
      rcases mem_insertEffect.1 hg with rfl | hg
      · exact Std.OrientedCmp.gt_iff_lt.1 hgt
      · exact hf g hg

/-- A finite set of effects; the empty one is `pure`. -/
structure Summary where
  toList : List Effect
  increasing : Increasing toList := by exact List.Pairwise.nil
  deriving DecidableEq

namespace Summary

instance : Repr Summary := ⟨fun s n => reprPrec s.toList n⟩

/-- The summary of code that touches nothing. -/
def pure : Summary := { toList := [] }

instance : Inhabited Summary := ⟨pure⟩

instance : Membership Effect Summary := ⟨fun s e => e ∈ s.toList⟩

def insert (s : Summary) (e : Effect) : Summary :=
  ⟨insertEffect e s.toList, increasing_insertEffect s.increasing⟩

@[simp] theorem mem_insert {s : Summary} {e x : Effect} : x ∈ s.insert e ↔ x = e ∨ x ∈ s :=
  mem_insertEffect

@[simp] theorem not_mem_pure {x : Effect} : ¬ x ∈ pure := List.not_mem_nil

def insertAll (s : Summary) (es : List Effect) : Summary := es.foldl insert s

@[simp] theorem mem_insertAll {s : Summary} {es : List Effect} {x : Effect} :
    x ∈ s.insertAll es ↔ x ∈ s ∨ x ∈ es := by
  induction es generalizing s with
  | nil => simp [insertAll]
  | cons e es ih =>
    show x ∈ (s.insert e).insertAll es ↔ _
    rw [ih, mem_insert, List.mem_cons]
    constructor
    · rintro ((h | h) | h) <;> simp [h]
    · rintro (h | h | h) <;> simp [h]

def ofList (es : List Effect) : Summary := pure.insertAll es

@[simp] theorem mem_ofList {es : List Effect} {x : Effect} : x ∈ ofList es ↔ x ∈ es := by
  simp [ofList]

def single (e : Effect) : Summary := pure.insert e

def ofVar (label : String) : Summary := single (.var label)

def union (s t : Summary) : Summary := s.insertAll t.toList

@[simp] theorem mem_union {s t : Summary} {x : Effect} : x ∈ s.union t ↔ x ∈ s ∨ x ∈ t :=
  mem_insertAll

def isPure (s : Summary) : Bool := s.toList.isEmpty

def size (s : Summary) : Nat := s.toList.length

/-- Whether every effect of `s` is covered by some effect of `t`. -/
def subeffectOf (s t : Summary) : Bool :=
  s.toList.all fun e => t.toList.any fun f => e.coveredBy f

def substRegions (s : Summary) (formals actuals : List Path) : Summary :=
  ofList (s.toList.map (·.substRegions formals actuals))

/-- The effects an effect stands for once the variable `label` means `replacement`. -/
def expand (label : String) (replacement : Summary) (e : Effect) : List Effect :=
  if e = .var label then replacement.toList else [e]

def substVar (s : Summary) (label : String) (replacement : Summary) : Summary :=
  ofList (s.toList.flatMap (expand label replacement))

protected def compare (s t : Summary) : Ordering := compare s.toList t.toList

instance : Ord Summary := ⟨Summary.compare⟩

/-- The effects' texts joined by blanks; the empty summary is `pure`. -/
def text (s : Summary) : String :=
  if s.isPure then "pure" else " ".intercalate (s.toList.map Effect.text)

end Summary

end RegionTypes
