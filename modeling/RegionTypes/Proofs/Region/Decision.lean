import RegionTypes.Proofs.Region.Denotation

/-!
# Inclusion of region paths is inclusion of what they stand for

The inclusion test compares elements one by one and takes only a final star of the including path as a
wildcard.  If that path has no other star, the test misses nothing: whenever it fails, the included
path matches some concrete path that the including one does not match.

* `matches_starless` — a path without its stars is the shortest sequence that it matches.
* `prefix_of_forall_matches` — what all sequences matched by a path start with, the path starts with:
  a star can always begin with something else.
* `starFree_of_forall_matches` — a path that matches one sequence only has no star.
* `Path.includedIn_iff_denotes_subset` — **the inclusion test decides inclusion of the sets of concrete
  paths**, for paths with stars anywhere against paths with no star but a final one.
-/

namespace RegionTypes

/-! ### Sequences that a path matches -/

/-- The elements without the stars. -/
def starless (p : List Element) : List Element := p.filter (· ≠ .star)

theorem star_notMem_starless (p : List Element) : Element.star ∉ starless p := by
  simp [starless]

theorem matches_starless (p : List Element) : Matches p (starless p) := by
  induction p with
  | nil => exact .nil
  | cons e p ih =>
    by_cases he : e = .star
    · subst he
      exact .star [] ih
    · have hkeep : starless (e :: p) = e :: starless p := List.filter_cons_of_pos (by simpa using he)
      rw [hkeep]
      exact .elem he ih

variable {p : List Element}

theorem starless_eq_self (h : Element.star ∉ p) : starless p = p :=
  List.filter_eq_self.2 fun e he => by
    rw [decide_eq_true_eq]
    rintro rfl
    exact h he

theorem Matches.eq_of_starFree {c : List Element} (h : Matches p c) (hp : Element.star ∉ p) :
    c = p := by
  induction h with
  | nil => rfl
  | elem _ _ ih => rw [ih fun hmem => hp (List.mem_cons_of_mem _ hmem)]
  | star => exact absurd List.mem_cons_self hp

/-- There is always another element for a star to begin with. -/
theorem exists_ordinary_ne (e : Element) : ∃ x : Element, x ≠ .star ∧ x ≠ e := by
  by_cases he : e = .root
  · exact ⟨.name "", nofun, by rw [he]; nofun⟩
  · exact ⟨.root, nofun, fun h => he h.symm⟩

/-! ### What all matched sequences have in common -/

/-- If all sequences that a path matches start with the same elements, so does the path.  The
induction is on these elements; a star at the place of one of them could begin with another. -/
theorem prefix_of_forall_matches {front : List Element}
    (h : ∀ c, Element.star ∉ c → Matches p c → front <+: c) : front <+: p := by
  induction front generalizing p with
  | nil => exact List.nil_prefix
  | cons e front ih =>
    have hshortest := h _ (star_notMem_starless p) (matches_starless p)
    cases p with
    | nil => exact absurd hshortest (by simp [starless])
    | cons x p =>
      have hcons {y : Element} (hy : y ≠ .star) {c : List Element} (hc : Element.star ∉ c) :
          Element.star ∉ y :: c := by
        rw [List.mem_cons, not_or]
        exact ⟨hy.symm, hc⟩
      by_cases hx : x = .star
      · subst hx
        obtain ⟨y, hy, hne⟩ := exists_ordinary_ne e
        have hother := h _ (hcons hy (star_notMem_starless p)) (.star [y] (matches_starless p))
        exact absurd (List.cons_prefix_cons.1 hother).1.symm hne
      · have hrest (c : List Element) (hc : Element.star ∉ c) (hmatch : Matches p c) :
            e = x ∧ front <+: c :=
          List.cons_prefix_cons.1 (h _ (hcons hx hc) (.elem hx hmatch))
        obtain ⟨rfl, -⟩ := hrest _ (star_notMem_starless p) (matches_starless p)
        exact List.cons_prefix_cons.2 ⟨rfl, ih fun c hc hmatch => (hrest c hc hmatch).2⟩

/-- A path that matches a single sequence has no star: a star could take nothing or something. -/
theorem starFree_of_forall_matches {d : List Element} (h : ∀ c, Element.star ∉ c → Matches p c → c = d) :
    Element.star ∉ p := by
  intro hstar
  obtain ⟨before, after, rfl⟩ := List.append_of_mem hstar
  have htaken (taken : List Element) (hfree : Element.star ∉ taken) :
      starless before ++ (taken ++ starless after) = d := by
    refine h _ ?_ ((matches_starless before).append (.star taken (matches_starless after)))
    simp [star_notMem_starless, hfree]
  have hlength := congrArg List.length ((htaken [] nofun).trans (htaken [.root] (by simp)).symm)
  simp at hlength

namespace Path

/-- **The inclusion test decides inclusion.**  If the including path has no star but a final one, the
test succeeds exactly when every concrete path that the included path matches is matched by the
including one.  The included path may have stars anywhere. -/
theorem includedIn_iff_denotes_subset (p q : Path) (hq : Element.star ∉ q.elements.dropLast) :
    p.includedIn q ↔ p.denotes ⊆ q.denotes := by
  refine ⟨denotes_subset_of_includedIn, fun h => ?_⟩
  have h : ∀ c, Element.star ∉ c → Matches p.elements c → Matches q.elements c :=
    fun c hc hmatch => @h ⟨c, hc⟩ hmatch
  by_cases hlast : q.elements.getLast? = some .star
  · -- a final star: what stands before it begins all that `q` matches, hence all that `p` matches
    obtain ⟨front, hfront⟩ := List.getLast?_eq_some_iff.1 hlast
    rw [hfront, List.dropLast_concat] at hq
    refine includedIn_iff.2 (.inl ⟨front, hfront, prefix_of_forall_matches fun c hc hmatch => ?_⟩)
    have hmatch' := h c hc hmatch
    rw [hfront] at hmatch'
    obtain ⟨c₁, c₂, rfl, hc₁, -⟩ := hmatch'.split
    rw [hc₁.eq_of_starFree hq]
    exact List.prefix_append front c₂
  · -- no star at all: `q` matches itself only, so `p` matches nothing else and is the same path
    have hfree : Element.star ∉ q.elements := by
      intro hmem
      have hne : q.elements ≠ [] := List.ne_nil_of_mem hmem
      rw [← List.dropLast_concat_getLast hne, List.mem_append, List.mem_singleton] at hmem
      rcases hmem with hmem | hmem
      · exact hq hmem
      · exact hlast (by rw [List.getLast?_eq_some_getLast hne, ← hmem])
    have honly (c : List Element) (hc : Element.star ∉ c) (hmatch : Matches p.elements c) :
        c = q.elements := (h c hc hmatch).eq_of_starFree hfree
    have hp := starFree_of_forall_matches honly
    have hself := matches_starless p.elements
    rw [starless_eq_self hp] at hself
    have heq := honly _ hp hself
    refine includedIn_iff.2 (.inr ?_)
    cases p
    cases q
    exact congrArg Path.mk heq

/-- `Root:*:A` lies in `Root:*`.  It does not lie in `Root:A:*`, since its star may begin with
something else than `A`; nor does `Root:*` lie in `Root`. -/
theorem includedIn_iff_denotes_subset_inner_star :
    let p : Path := ⟨[.root, .star, .name "A"]⟩
    let q : Path := ⟨[.root, .star]⟩
    let r : Path := ⟨[.root, .name "A", .star]⟩
    (Element.star ∉ q.elements.dropLast ∧ p.denotes ⊆ q.denotes) ∧
      (Element.star ∉ r.elements.dropLast ∧ ¬ p.denotes ⊆ r.denotes) ∧
      (Element.star ∉ root.elements.dropLast ∧ ¬ q.denotes ⊆ root.denotes) := by
  intro p q r
  have hq : Element.star ∉ q.elements.dropLast := by decide
  have hr : Element.star ∉ r.elements.dropLast := by decide
  have hroot : Element.star ∉ root.elements.dropLast := by decide
  refine ⟨⟨hq, ?_⟩, ⟨hr, ?_⟩, hroot, ?_⟩
  · exact (includedIn_iff_denotes_subset p q hq).1 (by decide)
  · exact fun h => absurd ((includedIn_iff_denotes_subset p r hr).2 h) (by decide)
  · exact fun h => absurd ((includedIn_iff_denotes_subset q root hroot).2 h) (by decide)

end Path

end RegionTypes
