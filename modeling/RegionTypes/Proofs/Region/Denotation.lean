import Mathlib.Data.Set.Basic
import RegionTypes.Region.Path

/-!
# What a region path stands for

A **concrete path** is a list of elements without a star.  A region path stands for the concrete
paths that it matches, where a star, at any position, matches any sequence of elements.

* `Matches` — the matching relation, one rule for each kind of element.
* `matches_append_iff` — matching a concatenation is matching its two parts one after the other.
* `Path.denotes` — the set of concrete paths a region path stands for.
* `Path.includedIn_iff` — what the inclusion test decides, branch by branch.
* `Path.denotes_subset_of_includedIn` — **the inclusion test is sound**: the concrete paths of an
  included path are among those of the including one.
-/

namespace RegionTypes

/-- A path that names one region: it has no star. -/
structure ConcretePath where
  elements : List Element
  starFree : Element.star ∉ elements

/-- A pattern of elements matches a sequence of elements: a star takes any sequence, any other
element takes itself. -/
inductive Matches : List Element → List Element → Prop
  | nil : Matches [] []
  | elem {e : Element} {p c : List Element} (ordinary : e ≠ .star) (rest : Matches p c) :
      Matches (e :: p) (e :: c)
  | star {p c : List Element} (taken : List Element) (rest : Matches p c) :
      Matches (.star :: p) (taken ++ c)

/-! ### Matching a concatenation -/

variable {p q c : List Element}

theorem Matches.append {d : List Element} (hp : Matches p c) (hq : Matches q d) :
    Matches (p ++ q) (c ++ d) := by
  induction hp with
  | nil => exact hq
  | elem ordinary _ ih => exact .elem ordinary ih
  | star taken _ ih =>
    rw [List.append_assoc]
    exact .star taken ih

theorem Matches.split (h : Matches (p ++ q) c) :
    ∃ c₁ c₂, c = c₁ ++ c₂ ∧ Matches p c₁ ∧ Matches q c₂ := by
  induction p generalizing c with
  | nil => exact ⟨[], c, rfl, .nil, h⟩
  | cons e p ih =>
    cases h with
    | elem ordinary rest =>
      obtain ⟨c₁, c₂, rfl, h₁, h₂⟩ := ih rest
      exact ⟨e :: c₁, c₂, rfl, .elem ordinary h₁, h₂⟩
    | star taken rest =>
      obtain ⟨c₁, c₂, rfl, h₁, h₂⟩ := ih rest
      exact ⟨taken ++ c₁, c₂, (List.append_assoc ..).symm, .star taken h₁, h₂⟩

theorem matches_append_iff :
    Matches (p ++ q) c ↔ ∃ c₁ c₂, c = c₁ ++ c₂ ∧ Matches p c₁ ∧ Matches q c₂ := by
  constructor
  · exact Matches.split
  · rintro ⟨c₁, c₂, rfl, h₁, h₂⟩
    exact h₁.append h₂

theorem matches_star (c : List Element) : Matches [.star] c := by
  have h := Matches.star c .nil
  rwa [List.append_nil] at h

namespace Path

/-- The concrete paths that a region path matches. -/
def denotes (p : Path) : Set ConcretePath := {c | Matches p.elements c.elements}

theorem mem_denotes {p : Path} {c : ConcretePath} :
    c ∈ p.denotes ↔ Matches p.elements c.elements := Iff.rfl

/-! ### Inclusion -/

/-- A path is included in the paths that end in a star after a part it starts with, and in
itself. -/
theorem includedIn_iff {p q : Path} :
    p.includedIn q ↔ (∃ front, q.elements = front ++ [.star] ∧ front <+: p.elements) ∨ p = q := by
  unfold includedIn
  split
  · next hlast =>
    obtain ⟨front, hq⟩ := List.getLast?_eq_some_iff.1 hlast
    rw [hq, List.dropLast_concat, List.isPrefixOf_iff_prefix]
    constructor
    · intro h
      exact .inl ⟨front, rfl, h⟩
    · rintro (⟨front', heq, h⟩ | rfl)
      · rwa [List.append_cancel_right heq]
      · exact ⟨[.star], hq.symm⟩
  · next hlast =>
    rw [beq_iff_eq]
    constructor
    · exact .inr
    · rintro (⟨front, hq, -⟩ | h)
      · exact absurd (by rw [hq, List.getLast?_concat]) hlast
      · exact h

theorem includedIn_refl (p : Path) : p.includedIn p := includedIn_iff.2 (.inr rfl)

/-- **Inclusion is sound.**  Whatever an included path stands for, the including path stands for
too. -/
theorem denotes_subset_of_includedIn {p q : Path} (h : p.includedIn q) :
    p.denotes ⊆ q.denotes := by
  rcases includedIn_iff.1 h with ⟨front, hq, rest, hp⟩ | rfl
  · intro c hc
    rw [mem_denotes, ← hp, matches_append_iff] at hc
    obtain ⟨c₁, c₂, hsplit, hfront, -⟩ := hc
    -- the final star takes over whatever the included path says after the common part
    rw [mem_denotes, hq, hsplit]
    exact hfront.append (matches_star c₂)
  · exact Set.Subset.rfl

end Path

end RegionTypes
