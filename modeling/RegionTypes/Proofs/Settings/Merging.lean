import Mathlib.Data.List.DropRight
import Mathlib.Data.List.Induction
import RegionTypes.Settings.Basic

/-!
# Merged filters

The configuration and the environment each say what is logged.  How filters are read is left open, as far
as a text is read part by part.

* `Reader.ByParts` — **what is assumed of a reader**: a filter text can be read when each of its parts is a
  directive, and then gives every target the level of the last part that names the target.
* `Reader.standard_byParts` — the filters of this program are read so.
* `Logging.filter_denotes` — neither side is lost when it can be read: the environment decides about
  the targets it names and the configuration about all others; one side alone stands for itself.
-/

namespace RegionTypes

namespace Log

section Assumption

variable {F T L : Type} [DecidableEq T]

/-- The level that the last of some directives for a target gives it. -/
def lastLevel (ds : List (Option T × L)) (target : Option T) : Option L := ds.reverse.lookup target

variable (directive? : List Char → Option (Option T × L))

/-- Whether every part of a text is a directive. -/
def Valid (text : String) : Prop := ∀ part ∈ Filter.parts text, (directive? part).isSome

instance (text : String) : Decidable (Valid directive? text) :=
  inferInstanceAs (Decidable (∀ _ ∈ _, _))

/-- The level that a text gives a target, or events of any target. -/
def levelsOf (text : String) : Option T → Option L :=
  lastLevel ((Filter.parts text).filterMap directive?)

/-- What is assumed of a reader of filters, where `levels` says which level a filter gives a target, or
events of any target. -/
structure Reader.ByParts (reader : Reader F) (levels : F → Option T → Option L) (info : L) : Prop where
  /-- A text can be read exactly if each part is a directive. -/
  valid : ∀ text, (reader.read? text).isSome ↔ Valid directive? text
  /-- The last part with a target decides. -/
  denotes : ∀ text f, reader.read? text = some f → levels f = levelsOf directive? text
  fallback : levels reader.fallback = lastLevel [(none, info)]

theorem lastLevel_append (ds es : List (Option T × L)) (target : Option T) :
    lastLevel (ds ++ es) target = (lastLevel es target).or (lastLevel ds target) := by
  rw [lastLevel, List.reverse_append, List.lookup_append, lastLevel, lastLevel]

theorem parts_append (a b : String) :
    Filter.parts (a ++ "," ++ b) = Filter.parts a ++ Filter.parts b := by
  simp [Filter.parts, List.splitOn_append_cons_self]

omit [DecidableEq T] in
theorem valid_append {a b : String} :
    Valid directive? (a ++ "," ++ b) ↔ Valid directive? a ∧ Valid directive? b := by
  rw [Valid, parts_append, List.forall_mem_append, Valid, Valid]

theorem levelsOf_append (a b : String) (target : Option T) : levelsOf directive? (a ++ "," ++ b) target =
    (levelsOf directive? b target).or (levelsOf directive? a target) := by
  rw [levelsOf, parts_append, List.filterMap_append, lastLevel_append, levelsOf, levelsOf]

variable {directive?} {reader : Reader F} {levels : F → Option T → Option L} {info : L} {text : String}

theorem Reader.ByParts.exists_of_valid (h : reader.ByParts directive? levels info)
    (hvalid : Valid directive? text) :
    ∃ f, reader.read? text = some f ∧ levels f = levelsOf directive? text := by
  obtain ⟨f, hf⟩ := Option.isSome_iff_exists.1 ((h.valid text).2 hvalid)
  exact ⟨f, hf, h.denotes text f hf⟩

theorem Reader.ByParts.read?_eq_none (h : reader.ByParts directive? levels info)
    (hinvalid : ¬ Valid directive? text) : reader.read? text = none :=
  Option.not_isSome_iff_eq_none.1 fun hsome => hinvalid ((h.valid text).1 hsome)

end Assumption

/-! ### The filters of this program -/

/-- What a directive says. -/
def Directive.says (d : Directive) : Option String × Threshold := (d.target, d.threshold)

/-- The level that a filter gives a target, or events of any target. -/
def Filter.levels (f : Filter) (target : Option String) : Option Threshold :=
  (f.directives.map Directive.says).lookup target

namespace Filter

variable {d : Directive} {target : Option String}

theorem lookup_cons (d : Directive) (l : List Directive) :
    ((d :: l).map Directive.says).lookup target =
      if target = d.target then some d.threshold else (l.map Directive.says).lookup target := by
  rw [List.map_cons, List.lookup_cons, Directive.says]
  cases hsame : target == d.target with
  | true => rw [if_pos (beq_iff_eq.1 hsame)]
  | false => rw [if_neg (beq_eq_false_iff_ne.1 hsame)]

theorem lookup_place {l : List Directive} (h : ∀ e ∈ l, e.target ≠ d.target) :
    ((place d l).map Directive.says).lookup target =
      if target = d.target then some d.threshold else (l.map Directive.says).lookup target := by
  induction l with
  | nil => exact lookup_cons d []
  | cons e l ih =>
    obtain ⟨he, hl⟩ := List.forall_mem_cons.1 h
    rw [place]
    split
    · exact lookup_cons d (e :: l)
    · rw [lookup_cons, lookup_cons, ih hl]
      by_cases htarget : target = e.target
      · simp [htarget, he]
      · simp [htarget]

theorem lookup_filter (l : List Directive) :
    ((l.filter fun e => e.target ≠ d.target).map Directive.says).lookup target =
      if target = d.target then none else (l.map Directive.says).lookup target := by
  induction l with
  | nil => simp
  | cons e l ih =>
    by_cases he : e.target = d.target
    · rw [List.filter_cons_of_neg (by simp [he]), ih, lookup_cons, he]
      split <;> rfl
    · rw [List.filter_cons_of_pos (by simp [he]), lookup_cons, ih, lookup_cons]
      by_cases htarget : target = e.target
      · simp [htarget, he]
      · simp [htarget]

/-- A directive replaces what was said before about its target. -/
theorem levels_insert (f : Filter) (d : Directive) :
    (f.insert d).levels target = if target = d.target then some d.threshold else f.levels target := by
  rw [levels, insert, lookup_place (by simp), lookup_filter, levels]
  split <;> rfl

theorem levels_ofList (ds : List Directive) : (ofList ds).levels = lastLevel (ds.map Directive.says) := by
  induction ds using List.reverseRecOn with
  | nil => rfl
  | append_singleton ds d ih =>
    funext target
    have hlast : lastLevel ([d].map Directive.says) target =
        if target = d.target then some d.threshold else none := lookup_cons d []
    rw [ofList, List.foldl_append, List.map_append, lastLevel_append, ← ih, hlast]
    change ((ofList ds).insert d).levels target = _
    rw [levels_insert]
    split <;> rfl

/-- What a part says. -/
def says? (part : List Char) : Option (Option String × Threshold) := (directive? part).map Directive.says

theorem mapM_eq {α β : Type} (f : α → Option β) (l : List α) :
    l.mapM f = if ∀ a ∈ l, (f a).isSome then some (l.filterMap f) else none := by
  induction l with
  | nil => rfl
  | cons a l ih =>
    cases ha : f a with
    | none => simp [ha]
    | some =>
      simp only [List.mapM_cons, ha, ih]
      split <;> simp_all

end Filter

/-- **The filters of this program are read part by part.** -/
theorem Reader.standard_byParts :
    Reader.standard.ByParts Filter.says? Filter.levels (.upTo .info) where
  valid text := by
    simp [standard, Filter.parse?, Filter.mapM_eq, Valid, Filter.says?]
  denotes text f hf := by
    obtain ⟨ds, hds, rfl⟩ := Option.map_eq_some_iff.1 hf
    rw [Filter.mapM_eq] at hds
    split at hds
    · obtain rfl := Option.some.inj hds
      rw [Filter.levels_ofList, List.map_filterMap]
      rfl
    · cases hds
  fallback := Filter.levels_ofList _

end Log

/-- Trimming leaves nothing of a text exactly when it has blanks alone. -/
theorem Text.trim_eq_empty {text : String} : trim text = "" ↔ ∀ c ∈ text.toList, isBlank c := by
  have hempty : trim text = "" ↔ (text.toList.dropWhile isBlank).rdropWhile isBlank = [] := by
    simp [trim, trimEnd, List.rdropWhile]
  rw [hempty, List.rdropWhile_eq_nil_iff, ← List.dropWhile_eq_nil_iff, List.dropWhile_idempotent,
    List.dropWhile_eq_nil_iff]

namespace Logging

open Log

variable {F T L : Type} [DecidableEq T] {directive? : List Char → Option (Option T × L)}
  {reader : Reader F} {levels : F → Option T → Option L} {info : L}

theorem ownFilter_of_valid (h : reader.ByParts directive? levels info) {l : Logging}
    (hl : Valid directive? l.directives) :
    levels (l.ownFilter reader) = levelsOf directive? l.directives := by
  obtain ⟨f, hf, hlevels⟩ := h.exists_of_valid hl
  rw [ownFilter, hf, Option.getD_some, hlevels]

theorem ownFilter_of_invalid (h : reader.ByParts directive? levels info) {l : Logging}
    (hl : ¬ Valid directive? l.directives) :
    levels (l.ownFilter reader) = lastLevel [(none, info)] := by
  rw [ownFilter, h.read?_eq_none hl, Option.getD_none, h.fallback]

theorem filterBy_of_blank {l : Logging} {environment : Option String}
    (h : ∀ text ∈ environment, ∀ c ∈ text.toList, Text.isBlank c) :
    l.filterBy reader environment = l.ownFilter reader := by
  have hnone : environmentText? environment = none := by
    cases environment with
    | none => rfl
    | some => simpa [environmentText?, Text.trim_eq_empty] using h
  rw [filterBy, hnone]

theorem filterBy_of_text {l : Logging} {text : String} (h : ∃ c ∈ text.toList, ¬Text.isBlank c) :
    l.filterBy reader (some text) = ((reader.read? (l.directives ++ "," ++ Text.trim text)).or
      (reader.read? (Text.trim text))).getD (l.ownFilter reader) := by
  have hsome : environmentText? (some text) = some (Text.trim text) := by
    simpa [environmentText?, Text.trim_eq_empty, Option.filter] using h
  rw [filterBy, hsome]

/-- **No side that can be read is lost**, whatever reads the filters, as long as it reads them part by
part. -/
theorem filter_denotes (h : reader.ByParts directive? levels info) (l : Logging)
    (environment : Option String) :
    ((∀ text ∈ environment, ∀ c ∈ text.toList, Text.isBlank c) →
      (Valid directive? l.directives →
        levels (l.filterBy reader environment) = levelsOf directive? l.directives) ∧
      (¬Valid directive? l.directives →
        levels (l.filterBy reader environment) = lastLevel [(none, info)])) ∧
    ∀ text ∈ environment, (∃ c ∈ text.toList, ¬Text.isBlank c) →
      (Valid directive? l.directives → Valid directive? (Text.trim text) →
        levels (l.filterBy reader environment) = fun target =>
          (levelsOf directive? (Text.trim text) target).or (levelsOf directive? l.directives target)) ∧
      (Valid directive? l.directives → ¬Valid directive? (Text.trim text) →
        levels (l.filterBy reader environment) = levelsOf directive? l.directives) ∧
      (¬Valid directive? l.directives → Valid directive? (Text.trim text) →
        levels (l.filterBy reader environment) = levelsOf directive? (Text.trim text)) ∧
      (¬Valid directive? l.directives → ¬Valid directive? (Text.trim text) →
        levels (l.filterBy reader environment) = lastLevel [(none, info)]) := by
  refine ⟨fun hblank => ?_, fun text htext hblank => ?_⟩
  · rw [filterBy_of_blank hblank]
    exact ⟨ownFilter_of_valid h, ownFilter_of_invalid h⟩
  · obtain rfl : environment = some text := htext
    rw [filterBy_of_text hblank]
    have hboth := valid_append directive? (a := l.directives) (b := Text.trim text)
    refine ⟨fun hl ht => ?_, fun hl ht => ?_, fun hl ht => ?_, fun hl ht => ?_⟩
    · obtain ⟨f, hf, hlevels⟩ := h.exists_of_valid (hboth.2 ⟨hl, ht⟩)
      rw [hf, Option.some_or, Option.getD_some, hlevels]
      exact funext (levelsOf_append directive? _ _)
    · rw [h.read?_eq_none fun hv => ht (hboth.1 hv).2, h.read?_eq_none ht, Option.none_or,
        Option.getD_none, ownFilter_of_valid h hl]
    · obtain ⟨f, hf, hlevels⟩ := h.exists_of_valid ht
      rw [h.read?_eq_none fun hv => hl (hboth.1 hv).1, Option.none_or, hf, Option.getD_some, hlevels]
    · rw [h.read?_eq_none fun hv => hl (hboth.1 hv).1, h.read?_eq_none ht, Option.none_or,
        Option.getD_none, ownFilter_of_invalid h hl]

/-- A target of the environment, between one that only the configuration names and all others. -/
theorem filter_denotes_both :
    (({ level := "warn,app=info,net=error" } : Logging).filter (some " app=debug,trace ")).levels =
      fun target => (levelsOf Filter.says? "app=debug,trace" target).or
        (levelsOf Filter.says? "warn,app=info,net=error" target) := by
  have htrim : Text.trim " app=debug,trace " = "app=debug,trace" := by decide +kernel
  have hown : directives { level := "warn,app=info,net=error" } = "warn,app=info,net=error" := by
    decide +kernel
  have hboth := ((filter_denotes Reader.standard_byParts { level := "warn,app=info,net=error" }
    (some " app=debug,trace ")).2 _ rfl ⟨'a', by decide, by decide⟩).1 (by decide +kernel)
      (by decide +kernel)
  rwa [htrim, hown] at hboth

end Logging

end RegionTypes
