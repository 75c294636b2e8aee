import Mathlib.Data.List.Forall2
import RegionTypes.Serial.Region

/-!
# What the serial forms of regions and effects spell

Reading accepts many spellings of one path or one summary, writing chooses one of them.  The
spellings are given here as relations between serial values and what they spell, and reading is shown
to accept exactly these.

* `RecordOf` — a record of one field: an object that has the key, whatever other keys it has, or the
  list of the field alone.
* `SpellsElement`, `SpellsPath`, `SpellsEffect`, `SpellsSummary` — the spellings; the effects of a
  summary come in any order and more than once.
* `path?_eq_some_iff`, `summary?_eq_some_iff` — **reading accepts exactly the spellings**.
* `Summary.ext_of_mem` — a set of effects has one representation.
* `summary?_eq_of_entries` — only the set of the entries counts.
* `serial_forms_faithful` — what is written reads back, what is read is kept by writing it, and lists
  of the same entries are read alike.
-/

namespace RegionTypes

namespace Summary

theorem nodup_toList (s : Summary) : s.toList.Nodup := by
  refine s.increasing.imp fun {a b} hlt => ?_
  rintro rfl
  rw [Std.ReflOrd.compare_self] at hlt
  cases hlt

theorem ext_of_mem {s t : Summary} (h : ∀ e, e ∈ s ↔ e ∈ t) : s = t := by
  have hperm : s.toList.Perm t.toList :=
    (List.perm_ext_iff_of_nodup s.nodup_toList t.nodup_toList).2 h
  have heq : s.toList = t.toList := by
    refine hperm.eq_of_pairwise (fun a b _ _ hab hba => ?_) s.increasing t.increasing
    have hself := Std.TransCmp.lt_trans hab hba
    rw [Std.ReflOrd.compare_self] at hself
    cases hself
  cases s
  cases t
  cases heq
  rfl

end Summary

namespace Serial

/-! ### Records and lists -/

/-- A value is a record whose only field is `content`. -/
inductive RecordOf (name : String) (content : Value) : Value → Prop
  | keyed {before after : List (String × Value)} (h : ∀ entry ∈ before, entry.1 ≠ name) :
    RecordOf name content (.object (before ++ (name, content) :: after))
  | positional : RecordOf name content (.list [content])

theorem recordOf_single (name : String) (content : Value) :
    RecordOf name content (.object [(name, content)]) :=
  @RecordOf.keyed name content [] [] fun _ hentry => nomatch hentry

theorem onlyField?_object (name : String) (entries : List (String × Value)) :
    onlyField? name (.object entries) = entries.lookup name := by
  simp only [onlyField?, fields, List.map_cons, List.map_nil]
  cases entries.lookup name <;> rfl

variable {name : String} {items : List Value}

theorem onlyField?_list_eq_some_iff {content : Value} :
    onlyField? name (.list items) = some content ↔ items = [content] := by
  match items with
  | [] => simp [onlyField?, fields]
  | [x] => simp [onlyField?, fields]
  | x :: y :: rest => simp [onlyField?, fields]

variable {v : Value}

theorem onlyField?_eq_some_iff {content : Value} :
    onlyField? name v = some content ↔ RecordOf name content v := by
  constructor
  · intro h
    cases v with
    | object =>
      rw [onlyField?_object, List.lookup_eq_some_iff] at h
      obtain ⟨before, after, rfl, hbefore⟩ := h
      exact .keyed fun entry hentry => (bne_iff_ne.1 (hbefore entry hentry)).symm
    | list =>
      cases onlyField?_list_eq_some_iff.1 h
      exact .positional
    | null | bool b | number n | text s => simp [onlyField?, fields] at h
  · rintro (⟨hbefore⟩ | -)
    · rw [onlyField?_object, List.lookup_eq_some_iff]
      exact ⟨_, _, rfl, fun entry hentry => bne_iff_ne.2 (hbefore entry hentry).symm⟩
    · exact onlyField?_list_eq_some_iff.2 rfl

theorem items?_eq_some_iff :
    items? v = some items ↔ v = .list items := by
  cases v <;> simp [items?]

variable {α β : Type} {f : α → Option β} {xs : List α}

theorem mapM_eq_some_iff {ys : List β} :
    xs.mapM f = some ys ↔ xs.map f = ys.map some := by
  induction xs generalizing ys with
  | nil => cases ys <;> simp
  | cons x xs ih =>
    rw [List.mapM_cons, List.map_cons]
    constructor
    · intro h
      obtain ⟨y, hy, h⟩ := Option.bind_eq_some_iff.1 h
      obtain ⟨rest, hrest, h⟩ := Option.bind_eq_some_iff.1 h
      cases h
      rw [hy, ih.1 hrest, List.map_cons]
    · intro h
      cases ys with
      | nil => cases h
      | cons =>
        obtain ⟨hy, hrest⟩ := List.cons.inj h
        rw [hy, ih.2 hrest]
        rfl

theorem mapM_eq_none_iff :
    xs.mapM f = none ↔ none ∈ xs.map f := by
  induction xs with
  | nil => simp
  | cons x xs ih =>
    rw [List.mapM_cons, List.map_cons, List.mem_cons, ← ih]
    cases f x with
    | none => simp
    | some => cases xs.mapM f <;> simp

/-- `mapM_eq_some_iff` for items that are read where they stand in a relation to what is read. -/
theorem mapM_eq_some_iff_forall₂ {R : α → β → Prop} (hf : ∀ x y, f x = some y ↔ R x y) {ys : List β} :
    xs.mapM f = some ys ↔ List.Forall₂ R xs ys := by
  rw [mapM_eq_some_iff, ← List.forall₂_eq_eq_eq, List.forall₂_map_left_iff,
    List.forall₂_map_right_iff]
  simp only [hf]

/-! ### Spellings of paths -/

/-- The spellings of an alternative that carries nothing. -/
inductive BareVariant (name : String) : Value → Prop
  | text : BareVariant name (.text name)
  | keyed : BareVariant name (.object [(name, .null)])

/-- The spellings of a path element. -/
inductive SpellsElement : Value → Element → Prop
  | root {v : Value} (h : BareVariant "Root" v) : SpellsElement v .root
  | star {v : Value} (h : BareVariant "Star" v) : SpellsElement v .star
  | name (s : String) : SpellsElement (.object [("Name", .text s)]) (.name s)
  | param (s : String) : SpellsElement (.object [("Param", .text s)]) (.param s)
  | var (s : String) : SpellsElement (.object [("Var", .text s)]) (.var s)
  | index (s : String) : SpellsElement (.object [("Index", .text s)]) (.index s)

theorem variant?_eq_none_iff :
    variant? v = some (name, none) ↔ v = .text name := by
  unfold variant?
  split <;> simp_all

theorem variant?_eq_some_iff {carried : Value} :
    variant? v = some (name, some carried) ↔ v = .object [(name, carried)] := by
  unfold variant?
  split <;> simp_all

theorem bareVariant_of_variant? {carried : Option Value} (h : variant? v = some (name, carried))
    (hbare : isBare carried) : BareVariant name v := by
  match carried with
  | none =>
    cases variant?_eq_none_iff.1 h
    exact .text
  | some .null =>
    cases variant?_eq_some_iff.1 h
    exact .keyed

theorem variant?_of_bareVariant (h : BareVariant name v) :
    ∃ carried, variant? v = some (name, carried) ∧ isBare carried = true := by
  cases h with
  | text => exact ⟨none, rfl, rfl⟩
  | keyed => exact ⟨some .null, rfl, rfl⟩

/-- An alternative that carries a text is spelled in one way. -/
theorem eq_object_of_carriedText? {s : String} {carried : Option Value}
    (h : variant? v = some (name, carried)) (htext : carriedText? carried = some s) :
    v = .object [(name, .text s)] := by
  match carried with
  | some (.text t) =>
    cases htext
    exact variant?_eq_some_iff.1 h

theorem element?_eq_some_iff {e : Element} :
    element? v = some e ↔ SpellsElement v e := by
  constructor
  · intro h
    unfold element? at h
    split at h
    · next carried hv =>
      obtain ⟨hbare, rfl⟩ : isBare carried ∧ .root = e := by simpa using h
      exact .root (bareVariant_of_variant? hv hbare)
    · next carried hv =>
      obtain ⟨hbare, rfl⟩ : isBare carried ∧ .star = e := by simpa using h
      exact .star (bareVariant_of_variant? hv hbare)
    · next carried hv =>
      obtain ⟨s, hs, rfl⟩ := Option.map_eq_some_iff.1 h
      exact eq_object_of_carriedText? hv hs ▸ .name s
    · next carried hv =>
      obtain ⟨s, hs, rfl⟩ := Option.map_eq_some_iff.1 h
      exact eq_object_of_carriedText? hv hs ▸ .param s
    · next carried hv =>
      obtain ⟨s, hs, rfl⟩ := Option.map_eq_some_iff.1 h
      exact eq_object_of_carriedText? hv hs ▸ .var s
    · next carried hv =>
      obtain ⟨s, hs, rfl⟩ := Option.map_eq_some_iff.1 h
      exact eq_object_of_carriedText? hv hs ▸ .index s
    · cases h
  · intro h
    cases h with
    | root h | star h =>
      obtain ⟨carried, hv, hbare⟩ := variant?_of_bareVariant h
      simp [element?, hv, hbare]
    | name s | param s | var s | index s => rfl

/-- The spellings of a path. -/
def SpellsPath (v : Value) (p : Path) : Prop :=
  ∃ items, RecordOf "elements" (.list items) v ∧ List.Forall₂ SpellsElement items p.elements

/-- **Reading accepts exactly the spellings of a path.** -/
theorem path?_eq_some_iff {p : Path} : path? v = some p ↔ SpellsPath v p := by
  have hitems {items : List Value} {es : List Element} :
      items.mapM element? = some es ↔ List.Forall₂ SpellsElement items es :=
    mapM_eq_some_iff_forall₂ fun _ _ => element?_eq_some_iff
  constructor
  · intro h
    obtain ⟨content, hcontent, h⟩ := Option.bind_eq_some_iff.1 h
    obtain ⟨items, hlist, h⟩ := Option.bind_eq_some_iff.1 h
    obtain ⟨es, hes, h⟩ := Option.bind_eq_some_iff.1 h
    cases h
    cases items?_eq_some_iff.1 hlist
    exact ⟨items, onlyField?_eq_some_iff.1 hcontent, hitems.1 hes⟩
  · rintro ⟨items, hrecord, hes⟩
    simp [path?, onlyField?_eq_some_iff.2 hrecord, items?, hitems.2 hes]

theorem spellsElement_ofElement (e : Element) : SpellsElement (ofElement e) e := by
  cases e with
  | root => exact .root .text
  | star => exact .star .text
  | name s => exact .name s
  | param s => exact .param s
  | var s => exact .var s
  | index s => exact .index s

theorem spellsPath_ofPath (p : Path) : SpellsPath (ofPath p) p := by
  refine ⟨p.elements.map ofElement, recordOf_single _ _, ?_⟩
  rw [List.forall₂_map_left_iff]
  exact List.forall₂_same.2 fun e _ => spellsElement_ofElement e

/-! ### Spellings of summaries -/

/-- The spellings of an effect. -/
inductive SpellsEffect : Value → Effect → Prop
  | read {v : Value} {p : Path} (h : SpellsPath v p) : SpellsEffect (.object [("Read", v)]) (.read p)
  | write {v : Value} {p : Path} (h : SpellsPath v p) :
    SpellsEffect (.object [("Write", v)]) (.write p)
  | var (s : String) : SpellsEffect (.object [("Variable", .text s)]) (.var s)

theorem effect?_eq_some_iff {e : Effect} : effect? v = some e ↔ SpellsEffect v e := by
  constructor
  · intro h
    unfold effect? at h
    split at h
    · next carried hv =>
      obtain ⟨p, hp, rfl⟩ := Option.map_eq_some_iff.1 h
      cases variant?_eq_some_iff.1 hv
      exact .read (path?_eq_some_iff.1 hp)
    · next carried hv =>
      obtain ⟨p, hp, rfl⟩ := Option.map_eq_some_iff.1 h
      cases variant?_eq_some_iff.1 hv
      exact .write (path?_eq_some_iff.1 hp)
    · next carried hv =>
      obtain ⟨s, hs, rfl⟩ := Option.map_eq_some_iff.1 h
      exact eq_object_of_carriedText? hv hs ▸ .var s
    · cases h
  · intro h
    cases h with
    | read h | write h => simp [effect?, variant?, path?_eq_some_iff.2 h]
    | var => rfl

/-- The spellings of a summary. -/
def SpellsSummary (v : Value) (s : Summary) : Prop :=
  ∃ items es, RecordOf "set" (.list items) v ∧ List.Forall₂ SpellsEffect items es ∧
    ∀ e, e ∈ s ↔ e ∈ es

theorem summary?_of_recordOf (h : RecordOf "set" (.list items) v) :
    summary? v = (items.mapM effect?).map Summary.ofList := by
  simp only [summary?, onlyField?_eq_some_iff.2 h, items?, Option.bind_eq_bind, Option.bind_some]
  cases items.mapM effect? <;> rfl

/-- **Reading accepts exactly the spellings of a summary.** -/
theorem summary?_eq_some_iff {s : Summary} :
    summary? v = some s ↔ SpellsSummary v s := by
  have hitems {items : List Value} {es : List Effect} :
      items.mapM effect? = some es ↔ List.Forall₂ SpellsEffect items es :=
    mapM_eq_some_iff_forall₂ fun _ _ => effect?_eq_some_iff
  constructor
  · intro h
    obtain ⟨content, hcontent, h⟩ := Option.bind_eq_some_iff.1 h
    obtain ⟨items, hlist, h⟩ := Option.bind_eq_some_iff.1 h
    obtain ⟨es, hes, h⟩ := Option.bind_eq_some_iff.1 h
    cases h
    cases items?_eq_some_iff.1 hlist
    exact ⟨items, es, onlyField?_eq_some_iff.1 hcontent, hitems.1 hes, fun e => Summary.mem_ofList⟩
  · rintro ⟨items, es, hrecord, hes, hmem⟩
    rw [summary?_of_recordOf hrecord, hitems.2 hes]
    exact congrArg some (Summary.ext_of_mem fun e => Summary.mem_ofList.trans (hmem e).symm)

theorem spellsEffect_ofEffect (e : Effect) : SpellsEffect (ofEffect e) e := by
  cases e with
  | read p => exact .read (spellsPath_ofPath p)
  | write p => exact .write (spellsPath_ofPath p)
  | var s => exact .var s

theorem spellsSummary_ofSummary (s : Summary) : SpellsSummary (ofSummary s) s := by
  refine ⟨s.toList.map ofEffect, s.toList, recordOf_single _ _, ?_,
    fun e => Iff.rfl⟩
  rw [List.forall₂_map_left_iff]
  exact List.forall₂_same.2 fun e _ => spellsEffect_ofEffect e

/-- Two records whose entries are read as the same set of effects are read alike: also as no summary,
when one of the entries is no effect. -/
theorem summary?_eq_of_entries {w : Value} {items' : List Value} (hv : RecordOf "set" (.list items) v)
    (hw : RecordOf "set" (.list items') w) (h : ∀ e, e ∈ items.map effect? ↔ e ∈ items'.map effect?) :
    summary? v = summary? w := by
  rw [summary?_of_recordOf hv, summary?_of_recordOf hw]
  cases hes : items.mapM effect? with
  | none =>
    have hes' : items'.mapM effect? = none := mapM_eq_none_iff.2 ((h none).1 (mapM_eq_none_iff.1 hes))
    rw [hes']
  | some =>
    cases hes' : items'.mapM effect? with
    | none =>
      have hnone := mapM_eq_none_iff.2 ((h none).2 (mapM_eq_none_iff.1 hes'))
      rw [hes] at hnone
      cases hnone
    | some =>
      rw [mapM_eq_some_iff.1 hes, mapM_eq_some_iff.1 hes'] at h
      refine congrArg some (Summary.ext_of_mem fun e => ?_)
      simpa using h (some e)

/-! ### Faithfulness -/

/-- **The serial forms are faithful.**  What is written reads back.  Whatever is read, in any of the
spellings, is kept by writing it and reading again.  Two lists with the same set of entries, however
spelled and in whatever order, are read as the same summary. -/
theorem serial_forms_faithful :
    (∀ p : Path, path? (ofPath p) = some p) ∧
    (∀ s : Summary, summary? (ofSummary s) = some s) ∧
    (∀ (v : Value) (p : Path), path? v = some p ↔ SpellsPath v p) ∧
    (∀ (v : Value) (s : Summary), summary? v = some s ↔ SpellsSummary v s) ∧
    (∀ (v : Value) (p : Path), path? v = some p → path? (ofPath p) = path? v) ∧
    (∀ (v : Value) (s : Summary), summary? v = some s → summary? (ofSummary s) = summary? v) ∧
    (∀ (v w : Value) (items items' : List Value), RecordOf "set" (.list items) v →
      RecordOf "set" (.list items') w → (∀ e, e ∈ items.map effect? ↔ e ∈ items'.map effect?) →
      summary? v = summary? w) := by
  have hpath (p : Path) : path? (ofPath p) = some p := path?_eq_some_iff.2 (spellsPath_ofPath p)
  have hsummary (s : Summary) : summary? (ofSummary s) = some s :=
    summary?_eq_some_iff.2 (spellsSummary_ofSummary s)
  refine ⟨hpath, hsummary, fun v p => path?_eq_some_iff, fun v s => summary?_eq_some_iff, ?_, ?_, ?_⟩
  · intro v p h
    rw [hpath, h]
  · intro v s h
    rw [hsummary, h]
  · intro v w items items' hv hw h
    exact summary?_eq_of_entries hv hw h

/-- A summary with a key that no record has, and the same summary as the list of its field, with the
effects the other way round, one of them twice and its path spelled in another way. -/
theorem serial_forms_faithful_spellings :
    let path : Value := .object [("elements", .list [.text "Root", .object [("Name", .text "A")]])]
    let path' : Value := .list [.list [.object [("Root", .null)], .object [("Name", .text "A")]]]
    let items : List Value := [.object [("Write", path)], .object [("Variable", .text "E")]]
    let items' : List Value :=
      [.object [("Variable", .text "E")], .object [("Write", path')], .object [("Write", path)]]
    let v : Value := .object [("comment", .null), ("set", .list items)]
    let w : Value := .list [.list items']
    RecordOf "set" (.list items) v ∧ RecordOf "set" (.list items') w ∧
    (∀ e, e ∈ items.map effect? ↔ e ∈ items'.map effect?) ∧
    path? path' = some (Path.named "A") ∧ path? (ofPath (Path.named "A")) = path? path' ∧
    summary? w = some (Summary.ofList [.var "E", .write (Path.named "A")]) ∧
    summary? (ofSummary (Summary.ofList [.var "E", .write (Path.named "A")])) = summary? w ∧
    summary? v = summary? w := by
  intro path path' items items' v w
  obtain ⟨-, -, -, -, hpath, hsummary, hentries⟩ := serial_forms_faithful
  have hv : RecordOf "set" (.list items) v := @RecordOf.keyed _ _ [("comment", .null)] [] (by simp)
  have hw : RecordOf "set" (.list items') w := .positional
  have hitems : items.map effect? = [some (.write (Path.named "A")), some (.var "E")] := rfl
  have hitems' : items'.map effect? =
      [some (.var "E"), some (.write (Path.named "A")), some (.write (Path.named "A"))] := rfl
  have hsame (e) : e ∈ items.map effect? ↔ e ∈ items'.map effect? := by
    rw [hitems, hitems']
    simp [or_comm]
  have hread : summary? w = some (Summary.ofList [.var "E", .write (Path.named "A")]) := by
    decide +kernel
  exact ⟨hv, hw, hsame, rfl, hpath path' _ rfl, hread, hsummary w _ hread, hentries v w _ _ hv hw hsame⟩

end Serial

end RegionTypes
