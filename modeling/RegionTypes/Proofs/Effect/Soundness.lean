import Mathlib.Logic.Function.Basic
import RegionTypes.Effect.Summary
import RegionTypes.Proofs.Region.Denotation

/-!
# What an effect summary permits

An **access** reads or writes one concrete path.  Under an interpretation of the effect variables, a
summary permits a set of accesses; this is what effect checking is about.

* `Effect.permits`, `Summary.permits` — the accesses that an effect and a summary permit.
* `Effect.permits_subset_of_coveredBy` — coverage is sound, one case for each line of its table.
* `Summary.subeffectOf_iff` — subeffecting as a statement about members.
* `Summary.subeffecting_sound` — **effect checking is sound**: a subeffect permits nothing that the
  larger summary does not permit, and replacing an effect variable by a summary means what it says.
-/

namespace RegionTypes

/-- What an access does to a region. -/
inductive Mode where
  | reading | writing
  deriving DecidableEq, Repr

/-- One access to the heap. -/
structure Access where
  mode : Mode
  path : ConcretePath

/-- A meaning for the effect variables. -/
abbrev Interpretation := String → Set Access

/-- The accesses an effect permits.  The permission to write a region includes reading it. -/
def Effect.permits (ι : Interpretation) : Effect → Set Access
  | read r => {a | a.mode = .reading ∧ a.path ∈ r.denotes}
  | write r => {a | a.path ∈ r.denotes}
  | var label => ι label

/-- The accesses that some effect of a summary permits. -/
def Summary.permits (ι : Interpretation) (s : Summary) : Set Access :=
  {a | ∃ e ∈ s, a ∈ e.permits ι}

/-! ### Coverage -/

/-- **Coverage is sound.**  An effect permits whatever the effects it covers permit. -/
theorem Effect.permits_subset_of_coveredBy {e f : Effect} (ι : Interpretation)
    (h : e.coveredBy f) : e.permits ι ⊆ f.permits ι := by
  cases e with
  | read =>
    cases f with
    | read => exact fun a ha => ⟨ha.1, Path.denotes_subset_of_includedIn h ha.2⟩
    | write => exact fun a ha => Path.denotes_subset_of_includedIn h ha.2
    | var => exact absurd h (by simp [coveredBy])
  | write =>
    cases f with
    | read | var => exact absurd h (by simp [coveredBy])
    | write => exact fun a ha => Path.denotes_subset_of_includedIn h ha
  | var l =>
    cases f with
    | read | write => exact absurd h (by simp [coveredBy])
    | var m =>
      have hlm : l = m := by simpa [coveredBy] using h
      rw [hlm]

namespace Summary

variable {s : Summary}

theorem subeffectOf_iff {t : Summary} :
    s.subeffectOf t ↔ ∀ e ∈ s, ∃ f ∈ t, e.coveredBy f := by
  simp only [subeffectOf, List.all_eq_true, List.any_eq_true]
  rfl

/-- The effects of a summary after a variable has been replaced: the others stay, and the
replacement comes in if the variable was there. -/
theorem mem_substVar {r : Summary} {label : String} {x : Effect} :
    x ∈ s.substVar label r ↔ (x ∈ s ∧ x ≠ .var label) ∨ (.var label ∈ s ∧ x ∈ r) := by
  unfold substVar
  rw [mem_ofList, List.mem_flatMap]
  constructor
  · rintro ⟨e, he, hx⟩
    unfold expand at hx
    split at hx
    · next hvar =>
      subst hvar
      exact .inr ⟨he, hx⟩
    · next hother =>
      obtain rfl := List.mem_singleton.1 hx
      exact .inl ⟨he, hother⟩
  · rintro (⟨hx, hother⟩ | ⟨hvar, hx⟩)
    · exact ⟨x, hx, by rw [expand, if_neg hother]; exact List.mem_singleton.2 rfl⟩
    · exact ⟨.var label, hvar, by rw [expand, if_pos rfl]; exact hx⟩

theorem permits_subset_of_subeffectOf {t : Summary} (ι : Interpretation) (h : s.subeffectOf t) :
    s.permits ι ⊆ t.permits ι := by
  rintro a ⟨e, he, ha⟩
  obtain ⟨f, hf, hcov⟩ := subeffectOf_iff.1 h e he
  exact ⟨f, hf, Effect.permits_subset_of_coveredBy ι hcov ha⟩

/-- An effect other than the variable `label` means the same whatever `label` means. -/
theorem permits_update_of_ne {e : Effect} {label : String} (ι : Interpretation)
    (accesses : Set Access) (h : e ≠ .var label) :
    e.permits (Function.update ι label accesses) = e.permits ι := by
  cases e with
  | read | write => rfl
  | var l =>
    have hne : l ≠ label := fun heq => h (by rw [heq])
    show Function.update ι label accesses l = ι l
    rw [Function.update_of_ne hne]

/-- Replacing a variable by a summary is giving the variable the meaning of the summary. -/
theorem permits_substVar (ι : Interpretation) (s r : Summary) (label : String) :
    (s.substVar label r).permits ι = s.permits (Function.update ι label (r.permits ι)) := by
  have hself : Effect.permits (Function.update ι label (r.permits ι)) (.var label) =
      r.permits ι := by
    show Function.update ι label (r.permits ι) label = r.permits ι
    rw [Function.update_self]
  ext a
  constructor
  · rintro ⟨x, hx, ha⟩
    rcases mem_substVar.1 hx with ⟨hxs, hother⟩ | ⟨hvar, hxr⟩
    · exact ⟨x, hxs, by rwa [permits_update_of_ne ι _ hother]⟩
    · exact ⟨.var label, hvar, by rw [hself]; exact ⟨x, hxr, ha⟩⟩
  · rintro ⟨e, he, ha⟩
    by_cases hvar : e = .var label
    · subst hvar
      rw [hself] at ha
      obtain ⟨x, hxr, hax⟩ := ha
      exact ⟨x, mem_substVar.2 (.inr ⟨he, hxr⟩), hax⟩
    · rw [permits_update_of_ne ι _ hvar] at ha
      exact ⟨e, mem_substVar.2 (.inl ⟨he, hvar⟩), ha⟩

/-- **Effect checking is sound.**  Under every interpretation of the effect variables a subeffect
permits only what the larger summary permits; and what a summary permits after an effect variable
was replaced is what it permits when the variable means the accesses of the replacement. -/
theorem subeffecting_sound :
    (∀ (s t : Summary) (ι : Interpretation), s.subeffectOf t → s.permits ι ⊆ t.permits ι) ∧
      ∀ (s r : Summary) (label : String) (ι : Interpretation),
        (s.substVar label r).permits ι = s.permits (Function.update ι label (r.permits ι)) :=
  ⟨fun _ _ ι h => permits_subset_of_subeffectOf ι h,
    fun s r label ι => permits_substVar ι s r label⟩

/-- Reading `Root:*:A:B` and the variable `E` is a subeffect of writing `Root:*:A:*` and `E`, where
only the last star of the path is a wildcard for the test. -/
theorem subeffecting_sound_inner_star :
    let s := ofList [.read ⟨[.root, .star, .name "A", .name "B"]⟩, .var "E"]
    let t := ofList [.write ⟨[.root, .star, .name "A", .star]⟩, .var "E"]
    s.subeffectOf t ∧ s.permits (fun _ => ∅) ⊆ t.permits (fun _ => ∅) :=
  ⟨by decide, subeffecting_sound.1 _ _ _ (by decide)⟩

end Summary

end RegionTypes
