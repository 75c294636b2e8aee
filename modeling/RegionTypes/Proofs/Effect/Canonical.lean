import Mathlib.Data.Set.Card
import Mathlib.Data.String.Basic
import RegionTypes.Proofs.Region.Nonempty
import RegionTypes.Proofs.Serial.Spelling

/-!
# A summary is a set of effects in one order

Summaries are made by inserting, uniting, substituting, collecting lists and reading serial values.
Whatever way a summary was made, it lists the effects that it should have as a set, each once and in
the order of effects.  So summaries that are the same as sets are the same in every respect.

* `Element.Before`, `Path.Before`, `Effect.Before` — the order: elements by kind and then by name,
  paths lexicographically, reads before writes before variables.
* `Effect.compare_eq_lt_iff` — comparison of effects decides this order.
* `Made` — the ways to make a summary, each with the set of effects that should come of it.
* `Made.mem_iff` — **a summary has the effects that it should have**, by induction on how it was made.
* `Summary.summaries_canonical` — increasing, without repetition, and one summary for each set.
-/

namespace RegionTypes

/-! ### The order of effects -/

/-- Elements come by kind, and elements of one kind by name. -/
inductive Element.Before : Element → Element → Prop
  | kind {a b : Element} (h : a.rank < b.rank) : Before a b
  | name {a b : Element} (hkind : a.rank = b.rank) (h : a.label < b.label) : Before a b

/-- Paths come in lexicographic order. -/
def Path.Before (p q : Path) : Prop := List.Lex Element.Before p.elements q.elements

/-- Reads come before writes, writes before variables; reads and writes come by region, variables by
name. -/
inductive Effect.Before : Effect → Effect → Prop
  | readWrite (p q : Path) : Before (.read p) (.write q)
  | readVar (p : Path) (l : String) : Before (.read p) (.var l)
  | writeVar (p : Path) (l : String) : Before (.write p) (.var l)
  | read {p q : Path} (h : p.Before q) : Before (.read p) (.read q)
  | write {p q : Path} (h : p.Before q) : Before (.write p) (.write q)
  | var {l m : String} (h : l < m) : Before (.var l) (.var m)

theorem Element.compare_eq_lt_iff {a b : Element} : compare a b = .lt ↔ a.Before b := by
  show (compare a.rank b.rank).then (compare a.label b.label) = .lt ↔ a.Before b
  rw [Ordering.then_eq_lt, Nat.compare_eq_lt, Nat.compare_eq_eq, compare_lt_iff_lt]
  constructor
  · rintro (h | ⟨hkind, h⟩)
    · exact .kind h
    · exact .name hkind h
  · rintro (h | ⟨hkind, h⟩)
    · exact .inl h
    · exact .inr ⟨hkind, h⟩

/-- Lists of elements compare element by element, and a list before those that continue it. -/
theorem compare_elements_eq_lt_iff {as bs : List Element} :
    compare as bs = .lt ↔ List.Lex Element.Before as bs := by
  rw [List.compare_eq_compareLex]
  induction as generalizing bs with
  | nil =>
    cases bs with
    | nil => exact iff_of_false nofun nofun
    | cons => exact iff_of_true rfl .nil
  | cons a as ih =>
    cases bs with
    | nil => exact iff_of_false nofun nofun
    | cons =>
      rw [List.compareLex_cons_cons, Ordering.then_eq_lt, Element.compare_eq_lt_iff,
        Element.compare_eq_iff_eq, ih, List.cons_lex_cons_iff]

namespace Effect

theorem before_read_iff {p q : Path} : Before (.read p) (.read q) ↔ p.Before q := by
  refine ⟨fun h => ?_, .read⟩
  cases h with
  | read h => exact h

theorem before_write_iff {p q : Path} : Before (.write p) (.write q) ↔ p.Before q := by
  refine ⟨fun h => ?_, .write⟩
  cases h with
  | write h => exact h

theorem before_var_iff {l m : String} : Before (.var l) (.var m) ↔ l < m := by
  refine ⟨fun h => ?_, .var⟩
  cases h with
  | var h => exact h

theorem before_iff_of_rank_ne {a b : Effect} (h : a.rank ≠ b.rank) :
    a.Before b ↔ a.rank < b.rank := by
  constructor
  · intro hab
    cases hab <;> simp_all [rank]
  · intro hab
    cases a <;> cases b <;> simp_all [rank] <;> constructor

/-- **Comparison of effects decides their order.** -/
theorem compare_eq_lt_iff {a b : Effect} : compare a b = .lt ↔ a.Before b := by
  show (compare a.rank b.rank).then
    ((compare a.elements b.elements).then (compare a.label b.label)) = .lt ↔ a.Before b
  rw [Ordering.then_eq_lt, Ordering.then_eq_lt, Nat.compare_eq_lt, Nat.compare_eq_eq]
  by_cases hrank : a.rank = b.rank
  · have hregion {p q : Path} : compare p.elements q.elements = .lt ↔ p.Before q :=
      compare_elements_eq_lt_iff
    cases a with
    | read =>
      cases b with
      | read => simp [before_read_iff, rank, elements, label, hregion]
      | write | var => simp [rank] at hrank
    | write =>
      cases b with
      | write => simp [before_write_iff, rank, elements, label, hregion]
      | read | var => simp [rank] at hrank
    | var =>
      cases b with
      | var => simp [before_var_iff, rank, elements, label, compare_lt_iff_lt]
      | read | write => simp [rank] at hrank
  · rw [before_iff_of_rank_ne hrank, or_iff_left fun h => hrank h.1]

end Effect

/-! ### How summaries are made -/

open Serial in
/-- A summary that was made by some of the operations, and the set of effects that should come of
them. -/
inductive Made : Summary → Set Effect → Prop
  | pure : Made .pure ∅
  | single (e : Effect) : Made (.single e) {e}
  | ofVar (label : String) : Made (.ofVar label) {.var label}
  | insert {s : Summary} {A : Set Effect} (hs : Made s A) (e : Effect) :
    Made (s.insert e) (A ∪ {e})
  | union {s t : Summary} {A B : Set Effect} (hs : Made s A) (ht : Made t B) :
    Made (s.union t) (A ∪ B)
  | substRegions {s : Summary} {A : Set Effect} (hs : Made s A) (formals actuals : List Path) :
    Made (s.substRegions formals actuals) {x | ∃ e ∈ A, e.substRegions formals actuals = x}
  | substVar {s r : Summary} {A B : Set Effect} (hs : Made s A) (label : String) (hr : Made r B) :
    Made (s.substVar label r) {x | (x ∈ A ∧ x ≠ .var label) ∨ (.var label ∈ A ∧ x ∈ B)}
  | ofList (es : List Effect) : Made (.ofList es) {e | e ∈ es}
  | read {v : Value} {s : Summary} (h : summary? v = some s) :
    Made s {e | ∃ items, RecordOf "set" (.list items) v ∧ ∃ item ∈ items, SpellsEffect item e}

theorem Summary.mem_single {e x : Effect} : x ∈ single e ↔ x = e := by
  rw [single, mem_insert, or_iff_left not_mem_pure]

variable {s : Summary}

namespace Serial

theorem RecordOf.unique {name : String} {v content content' : Value} (h : RecordOf name content v)
    (h' : RecordOf name content' v) : content = content' :=
  Option.some.inj ((onlyField?_eq_some_iff.2 h).symm.trans (onlyField?_eq_some_iff.2 h'))

/-- The effects of a summary that was read are those that its items spell. -/
theorem mem_iff_of_summary? {v : Value} (h : summary? v = some s) {e : Effect} :
    e ∈ s ↔ ∃ items, RecordOf "set" (.list items) v ∧ ∃ item ∈ items, SpellsEffect item e := by
  obtain ⟨items, es, hrecord, hspells, hmem⟩ := summary?_eq_some_iff.1 h
  have hread : items.mapM effect? = some es :=
    (mapM_eq_some_iff_forall₂ fun _ _ => effect?_eq_some_iff).2 hspells
  have hes : e ∈ es ↔ ∃ item ∈ items, SpellsEffect item e := by
    rw [← List.mem_map_of_injective (Option.some_injective Effect), ← mapM_eq_some_iff.1 hread,
      List.mem_map]
    simp only [effect?_eq_some_iff]
  rw [hmem, hes]
  constructor
  · exact fun hitem => ⟨items, hrecord, hitem⟩
  · rintro ⟨items', hrecord', hitem⟩
    rwa [Value.list.inj (hrecord.unique hrecord')]

end Serial

/-- **A summary has the effects that it should have**, however it was made. -/
theorem Made.mem_iff {A : Set Effect} (h : Made s A) (e : Effect) :
    e ∈ s ↔ e ∈ A := by
  induction h generalizing e with
  | pure => exact iff_of_false Summary.not_mem_pure (Set.notMem_empty e)
  | single | ofVar => exact Summary.mem_single
  | insert hs f ih => rw [Summary.mem_insert, ih, or_comm]; rfl
  | union hs ht ihs iht => rw [Summary.mem_union, ihs, iht]; rfl
  | substRegions hs formals actuals ih =>
    rw [Summary.mem_substRegions]
    simp only [ih]
    rfl
  | substVar hs label hr ihs ihr =>
    rw [Summary.mem_substVar, ihs, ihs, ihr]
    rfl
  | ofList => exact Summary.mem_ofList
  | read h => exact Serial.mem_iff_of_summary? h

namespace Summary

/-! ### One summary for each set -/

theorem increasing_before (s : Summary) : s.toList.Pairwise Effect.Before :=
  s.increasing.imp Effect.compare_eq_lt_iff.1

theorem encard_members (s : Summary) : {e | e ∈ s}.encard = s.size := by
  have hset : {e | e ∈ s} = (s.toList.toFinset : Set Effect) := by
    ext e
    rw [Finset.mem_coe, List.mem_toFinset]
    rfl
  rw [hset, Set.encard_coe_eq_coe_finsetCard, List.toFinset_card_of_nodup s.nodup_toList]
  rfl

theorem compare_eq_iff_eq {t : Summary} : compare s t = .eq ↔ s = t := by
  show compare s.toList t.toList = .eq ↔ s = t
  rw [Std.LawfulEqOrd.compare_eq_iff_eq]
  constructor
  · intro h
    refine ext_of_mem fun e => ?_
    show e ∈ s.toList ↔ e ∈ t.toList
    rw [h]
  · rintro rfl
    rfl

/-- **A summary is a set of effects in one order.**  However a summary was made, its effects are
strictly increasing in the order of effects, they are those that the operations give as operations on
sets, and its size is the number of different ones.  Of two summaries, however they were made, the
following are the same: that they have the same effects, that they are equal, and that they compare as
equal; and then their texts are the same. -/
theorem summaries_canonical :
    (∀ (s : Summary) (A : Set Effect), Made s A →
        s.toList.Pairwise Effect.Before ∧ (∀ e, e ∈ s.toList ↔ e ∈ A) ∧ s.size = A.encard) ∧
      ∀ (s t : Summary) (A B : Set Effect), Made s A → Made t B →
        (s = t ↔ A = B) ∧ (compare s t = .eq ↔ A = B) ∧ (A = B → s.text = t.text) := by
  have hset {s : Summary} {A : Set Effect} (h : Made s A) : {e | e ∈ s} = A := Set.ext h.mem_iff
  refine ⟨fun s A h => ⟨s.increasing_before, h.mem_iff, ?_⟩, fun s t A B hs ht => ?_⟩
  · rw [← hset h, encard_members]
  · have heq : s = t ↔ A = B := by
      rw [← hset hs, ← hset ht]
      constructor
      · rintro rfl
        rfl
      · exact fun h => ext_of_mem (Set.ext_iff.1 h)
    exact ⟨heq, compare_eq_iff_eq.trans heq, fun h => by rw [heq.2 h]⟩

/-- Reads of two parameters fall together when both parameters become `Root`, and come before the write
that stood for a variable.  The same summary is read from a value with its items in another order. -/
theorem summaries_canonical_merged :
    let reads := ((ofVar "E").insert (.read (.param "Q"))).union (single (.read (.param "P")))
    let made := (reads.substVar "E" (single (.write .root))).substRegions
      [.param "P", .param "Q"] [.root, .root]
    let path : Serial.Value := .object [("elements", .list [.text "Root"])]
    let v : Serial.Value :=
      .object [("set", .list [.object [("Write", path)], .object [("Read", path)]])]
    ∃ (s : Summary) (A B : Set Effect), Serial.summary? v = some s ∧ Made made A ∧ Made s B ∧
      (made.toList.Pairwise Effect.Before ∧ (∀ e, e ∈ made.toList ↔ e ∈ A) ∧ made.size = A.encard) ∧
      A = B ∧ compare made s = .eq ∧ made.text = s.text := by
  intro reads made path v
  have hvalue : Serial.summary? v = some (ofList [.write .root, .read .root]) := by decide +kernel
  have hmade := ((((Made.ofVar "E").insert (.read (.param "Q"))).union
    (.single (.read (.param "P")))).substVar "E" (.single (.write .root))).substRegions
      [.param "P", .param "Q"] [.root, .root]
  have hread := Made.read hvalue
  obtain ⟨heq, hcompare, htext⟩ := summaries_canonical.2 _ _ _ _ hmade hread
  have hsame := heq.1 (by decide +kernel)
  exact ⟨_, _, _, hvalue, hmade, hread, summaries_canonical.1 _ _ hmade, hsame, hcompare.2 hsame,
    htext hsame⟩

end Summary

end RegionTypes
