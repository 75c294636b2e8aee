import RegionTypes.Proofs.Effect.Soundness

/-!
# Instantiation keeps subeffects

Replacing region parameters by region arguments, or an effect variable by a summary, on both sides
of an inclusion gives an inclusion again.

* `Path.subst_append` — substitution acts on the front of a path and leaves the rest alone.
* `Path.includedIn_subst` — inclusion of paths under substitution of region parameters.
* `Effect.coveredBy_substRegions` — the same for coverage.
* `Summary.subeffecting_instantiation` — **subeffecting survives instantiation**, of region
  parameters and of effect variables.
-/

namespace RegionTypes

variable {formals actuals : List Path}

namespace Path

/-! ### Substitution and inclusion of paths -/

/-- What a leading parameter is replaced by. -/
def actual? (p : Path) (formals actuals : List Path) : Option Path :=
  p.leadingParam?.bind fun label => actualFor? label formals actuals

theorem actual?_append {front : List Element} (h : front ≠ []) (rest : List Element)
    (formals actuals : List Path) :
    actual? ⟨front ++ rest⟩ formals actuals = actual? ⟨front⟩ formals actuals := by
  cases front with
  | nil => exact absurd rfl h
  | cons e => cases e <;> rfl

variable {p : Path}

theorem subst_of_actual?_eq_none (h : p.actual? formals actuals = none) : p.subst formals actuals = p := by
  unfold subst
  cases hlead : p.leadingParam? with
  | none => rfl
  | some =>
    rw [actual?, hlead, Option.bind_some] at h
    simp only [h]

theorem subst_of_actual?_eq_some {actual : Path} (h : p.actual? formals actuals = some actual) :
    p.subst formals actuals = ⟨actual.elements ++ p.elements.tail⟩ := by
  obtain ⟨label, hlead, hfor⟩ := Option.bind_eq_some_iff.1 h
  unfold subst
  simp only [hlead, hfor, substParam, if_pos]

/-- Only the front of a path is looked at; what follows is kept. -/
theorem subst_append {front : List Element} (h : front ≠ []) (rest : List Element)
    (formals actuals : List Path) :
    subst ⟨front ++ rest⟩ formals actuals =
      ⟨(subst ⟨front⟩ formals actuals).elements ++ rest⟩ := by
  have hfront := actual?_append h rest formals actuals
  cases hact : actual? ⟨front⟩ formals actuals with
  | none => rw [subst_of_actual?_eq_none (hfront.trans hact), subst_of_actual?_eq_none hact]
  | some =>
    rw [subst_of_actual?_eq_some (hfront.trans hact), subst_of_actual?_eq_some hact]
    simp only [List.tail_append_of_ne_nil h, List.append_assoc]

/-- **Inclusion survives substitution.** -/
theorem includedIn_subst {q : Path} (formals actuals : List Path) (h : p.includedIn q) :
    (p.subst formals actuals).includedIn (q.subst formals actuals) := by
  obtain ⟨ps⟩ := p
  obtain ⟨qs⟩ := q
  rcases includedIn_iff.1 h with ⟨front, hq, rest, hp⟩ | heq
  · have hp' : front ++ rest = ps := hp
    have hq' : qs = front ++ [.star] := hq
    subst hp' hq'
    by_cases hfront : front = []
    · -- a bare star has no parameter to replace
      subst hfront
      exact includedIn_iff.2 (.inl ⟨[], rfl, List.nil_prefix⟩)
    · -- the common front is replaced alike on both sides
      rw [subst_append hfront, subst_append hfront]
      exact includedIn_iff.2 (.inl ⟨_, rfl, List.prefix_append _ rest⟩)
  · rw [heq]
    exact includedIn_refl _

end Path

/-! ### Coverage and subeffecting -/

variable {f : Effect}

theorem Effect.coveredBy_substRegions {e : Effect} (formals actuals : List Path) (h : e.coveredBy f) :
    (e.substRegions formals actuals).coveredBy (f.substRegions formals actuals) := by
  cases e with
  | read =>
    cases f with
    | read | write => exact Path.includedIn_subst formals actuals h
    | var => exact absurd h (by simp [coveredBy])
  | write =>
    cases f with
    | read | var => exact absurd h (by simp [coveredBy])
    | write => exact Path.includedIn_subst formals actuals h
  | var =>
    cases f with
    | read | write => exact absurd h (by simp [coveredBy])
    | var => exact h

theorem Effect.var_coveredBy_iff {label : String} :
    (Effect.var label).coveredBy f ↔ f = .var label := by
  cases f with
  | read | write => simp [coveredBy]
  | var =>
    rw [coveredBy, beq_iff_eq, Effect.var.injEq]
    exact eq_comm

theorem Effect.ne_var_of_coveredBy {e : Effect} {label : String} (h : e.coveredBy f) (he : e ≠ .var label) :
    f ≠ .var label := by
  rintro rfl
  cases e with
  | read | write => exact absurd h (by simp [coveredBy])
  | var =>
    rw [var_coveredBy_iff] at h
    exact he h.symm

namespace Summary

variable {s : Summary}

theorem mem_substRegions {x : Effect} :
    x ∈ s.substRegions formals actuals ↔ ∃ e ∈ s, e.substRegions formals actuals = x := by
  rw [substRegions, mem_ofList, List.mem_map]
  rfl

theorem subeffectOf_substRegions {t : Summary} (formals actuals : List Path) (h : s.subeffectOf t) :
    (s.substRegions formals actuals).subeffectOf (t.substRegions formals actuals) := by
  rw [subeffectOf_iff] at h ⊢
  intro x hx
  obtain ⟨e, he, rfl⟩ := mem_substRegions.1 hx
  obtain ⟨f, hf, hcov⟩ := h e he
  exact ⟨_, mem_substRegions.2 ⟨f, hf, rfl⟩, Effect.coveredBy_substRegions formals actuals hcov⟩

theorem subeffectOf_substVar {t r u : Summary} (label : String) (h : s.subeffectOf t)
    (hr : r.subeffectOf u) : (s.substVar label r).subeffectOf (t.substVar label u) := by
  rw [subeffectOf_iff] at h hr ⊢
  intro x hx
  rcases mem_substVar.1 hx with ⟨hxs, hother⟩ | ⟨hvar, hxr⟩
  · -- an effect that stays is covered by one that stays
    obtain ⟨f, hf, hcov⟩ := h x hxs
    exact ⟨f, mem_substVar.2 (.inl ⟨hf, Effect.ne_var_of_coveredBy hcov hother⟩), hcov⟩
  · -- the variable itself is covered by the variable only, so its replacement comes in
    obtain ⟨f, hf, hcov⟩ := h _ hvar
    obtain rfl := Effect.var_coveredBy_iff.1 hcov
    obtain ⟨g, hg, hxg⟩ := hr x hxr
    exact ⟨g, mem_substVar.2 (.inr ⟨hf, hg⟩), hxg⟩

/-- **Subeffecting survives instantiation.**  Inclusion of region paths and subeffecting are kept
when region parameters are substituted, and subeffecting is kept when an effect variable is replaced
by a summary on the left and by a larger one on the right. -/
theorem subeffecting_instantiation :
    (∀ (p q : Path) (formals actuals : List Path), p.includedIn q →
        (p.subst formals actuals).includedIn (q.subst formals actuals)) ∧
      (∀ (s t : Summary) (formals actuals : List Path), s.subeffectOf t →
        (s.substRegions formals actuals).subeffectOf (t.substRegions formals actuals)) ∧
      ∀ (s t r u : Summary) (label : String), s.subeffectOf t → r.subeffectOf u →
        (s.substVar label r).subeffectOf (t.substVar label u) :=
  ⟨fun _ _ formals actuals h => Path.includedIn_subst formals actuals h,
    fun _ _ formals actuals h => subeffectOf_substRegions formals actuals h,
    fun _ _ _ _ label h hr => subeffectOf_substVar label h hr⟩

/-- `P:A` lies in `P:*`, and still does when `P` becomes a path that ends in a star itself; what is
said of `E` is kept when `E` is replaced by a read on the left and by a write on the right. -/
theorem subeffecting_instantiation_star_argument :
    (Path.subst ⟨[.param "P", .name "A"]⟩ [.param "P"] [⟨[.root, .star]⟩]).includedIn
        (Path.subst ⟨[.param "P", .star]⟩ [.param "P"] [⟨[.root, .star]⟩]) ∧
      ((single (.read ⟨[.param "P"]⟩)).substRegions [.param "P"] [⟨[.star]⟩]).subeffectOf
        ((single (.write ⟨[.param "P", .star]⟩)).substRegions [.param "P"] [⟨[.star]⟩]) ∧
      ((ofVar "E").substVar "E" (single (.read .root))).subeffectOf
        ((ofVar "E").substVar "E" (single (.write ⟨[.root, .star]⟩))) :=
  ⟨subeffecting_instantiation.1 _ _ _ _ (by decide),
    subeffecting_instantiation.2.1 _ _ _ _ (by decide),
    subeffecting_instantiation.2.2 _ _ _ _ _ (by decide) (by decide)⟩

end Summary

end RegionTypes
