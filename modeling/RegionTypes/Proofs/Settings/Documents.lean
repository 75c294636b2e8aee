import Mathlib.Data.List.Nodup
import Mathlib.Data.Option.Basic
import RegionTypes.Toml.Document

/-!
# No key is defined twice

The lines of a document add to its tables one after the other.  None of them makes a table in which a
key stands twice, so there is none in the whole document.

* `Entries.Tidy` — no key stands twice in a table or in the tables inside it.
* `descend_tidy`, `Draft.next_tidy` — what a line does to the tables.
* `Reader.Gives` — what is known of everything that a reader returns; `value_tidy` — tables between
  braces.
* `parse?_tidy` — **a document that is read gives a tidy table**; `parse?_distinct` says so of the two
  levels at which settings stand.
-/

namespace RegionTypes.Toml

/-- The tables in a value that a key may lead to. -/
def Value.inner : Value → List Entries
  | .table _ entries => [entries]
  | .tables items => items
  | _ => []

/-- No key stands twice in a table or in the tables inside it. -/
inductive Entries.Tidy : Entries → Prop
  | intro {entries : Entries} (keys : (entries.map Prod.fst).Nodup)
      (inner : ∀ entry ∈ entries, ∀ table ∈ entry.2.inner, Tidy table) : Tidy entries

/-- The tables in the value are tidy. -/
abbrev Value.Tidy (v : Value) : Prop := ∀ table ∈ v.inner, table.Tidy

/-! ### Steps that may fail -/

section

variable {α β : Type}

theorem exists_of_return {x : Option α} {g : α → β} {b : β} (h : (do return g (← x)) = some b) :
    ∃ a, x = some a ∧ g a = b := by
  obtain ⟨a, ha, hb⟩ := Option.bind_eq_some_iff.1 h
  exact ⟨a, ha, Option.some.inj hb⟩

/-- What each step keeps is kept by all of them. -/
theorem foldlM_keeps {P : β → Prop} {f : β → α → Option β} {l : List α}
    (hf : ∀ a ∈ l, ∀ b b', P b → f b a = some b' → P b') {b b' : β} (h : P b)
    (hrun : l.foldlM f b = some b') : P b' := by
  induction l generalizing b with
  | nil =>
    obtain rfl := Option.some.inj hrun
    exact h
  | cons a l ih =>
    rw [List.foldlM_cons] at hrun
    obtain ⟨c, hc, hrest⟩ := Option.bind_eq_some_iff.1 hrun
    obtain ⟨hfirst, hothers⟩ := List.forall_mem_cons.1 hf
    exact ih hothers (hfirst b c h hc) hrest

end

/-! ### Tables -/

section Tables

variable {entries after : Entries} {name : String} {v : Value} {made : Form}
  {f : Form → Entries → Option Entries}

theorem Entries.Tidy.nil : Entries.Tidy [] := .intro List.nodup_nil (List.forall_mem_nil _)

theorem Entries.Tidy.of_lookup (h : entries.Tidy) (hv : entries.lookup name = some v) : v.Tidy := by
  obtain ⟨-, inner⟩ := h
  obtain ⟨front, back, rfl, -⟩ := List.lookup_eq_some_iff.1 hv
  exact inner (name, v) (by simp)

theorem Entries.Tidy.append (h : entries.Tidy) (hnew : entries.lookup name = none) (hv : v.Tidy) :
    Entries.Tidy (entries ++ [(name, v)]) := by
  obtain ⟨keys, inner⟩ := h
  refine .intro ?_ fun entry hentry => ?_
  · have hfresh : name ∉ entries.map Prod.fst := by
      intro hmem
      obtain ⟨entry, hentry, rfl⟩ := List.mem_map.1 hmem
      simpa using List.lookup_eq_none_iff.1 hnew entry hentry
    simpa using List.Nodup.concat hfresh keys
  · rcases List.mem_append.1 hentry with hold | hlast
    · exact inner entry hold
    · obtain rfl := List.mem_singleton.1 hlast
      exact hv

theorem Entries.Tidy.replace (h : entries.Tidy) (hv : v.Tidy) : (replace name v entries).Tidy := by
  obtain ⟨keys, inner⟩ := h
  refine .intro ?_ fun entry hentry => ?_
  · have hsame : (Toml.replace name v entries).map Prod.fst = entries.map Prod.fst := by
      rw [Toml.replace, List.map_map]
      refine List.map_congr_left fun entry _ => ?_
      simp only [Function.comp_apply]
      split
      · next hname => exact (eq_of_beq hname).symm
      · rfl
    rwa [hsame]
  · obtain ⟨old, hold, rfl⟩ := List.mem_map.1 hentry
    split
    · exact hv
    · exact inner old hold

/-- A change of a table that keeps it tidy. -/
def KeepsTidy (f : Form → Entries → Option Entries) : Prop :=
  ∀ form entries after, entries.Tidy → f form entries = some after → after.Tidy

theorem updateLast_tidy (hf : KeepsTidy f) {items items' : List Entries}
    (h : ∀ table ∈ items, table.Tidy) (hrun : updateLast f items = some items') :
    ∀ table ∈ items', table.Tidy := by
  fun_induction updateLast f items generalizing items' with
  | case1 => cases hrun
  | case2 last =>
    obtain ⟨table, hlast, rfl⟩ := exists_of_return hrun
    exact List.forall_mem_singleton.2 (hf _ _ _ (h last List.mem_cons_self) hlast)
  | case3 first rest _ ih =>
    obtain ⟨hfirst, hrest⟩ := List.forall_mem_cons.1 h
    obtain ⟨tables, htables, rfl⟩ := exists_of_return hrun
    exact List.forall_mem_cons.2 ⟨hfirst, ih hrest htables⟩

/-- **Changing the table at the end of a path**, by induction on the path. -/
theorem descend_tidy (hf : KeepsTidy f) (path : List String) : KeepsTidy (descend made f path) := by
  induction path with
  | nil => exact hf
  | cons name path ih =>
    intro form entries after h hrun
    rw [descend] at hrun
    split at hrun
    · next hnone =>
      obtain ⟨inner, hinner, rfl⟩ := exists_of_return hrun
      exact h.append hnone (List.forall_mem_singleton.2 (ih _ _ _ .nil hinner))
    · cases hrun
    · next inner hlookup =>
      split at hrun
      · cases hrun
      · obtain ⟨table, htable, rfl⟩ := exists_of_return hrun
        have hinner := List.forall_mem_singleton.1 (h.of_lookup hlookup)
        exact h.replace (List.forall_mem_singleton.2 (ih _ _ _ hinner htable))
    · next hlookup =>
      obtain ⟨items, hitems, rfl⟩ := exists_of_return hrun
      exact h.replace (updateLast_tidy ih (h.of_lookup hlookup) hitems)
    · cases hrun

theorem add_tidy (hv : v.Tidy) (h : entries.Tidy) (hrun : add name v entries = some after) :
    after.Tidy := by
  rw [add] at hrun
  split at hrun
  · next hnone =>
    obtain rfl := Option.some.inj hrun
    exact h.append hnone hv
  · cases hrun

theorem Assignment.apply_tidy {a : Assignment} (ha : a.value.Tidy) (h : entries.Tidy)
    (hrun : a.apply entries = some after) : after.Tidy := by
  refine descend_tidy (fun form inner after hinner hadd => ?_) a.path _ _ _ h hrun
  split at hadd
  · exact add_tidy ha hinner hadd
  · cases hadd

theorem inlineTable_tidy {assignments : List Assignment} (h : ∀ a ∈ assignments, a.value.Tidy)
    (hrun : inlineTable assignments = some v) : v.Tidy := by
  obtain ⟨table, htable, rfl⟩ := exists_of_return hrun
  refine List.forall_mem_singleton.2 (foldlM_keeps (fun a ha _ _ hb => ?_) .nil htable)
  exact Assignment.apply_tidy (h a ha) hb

end Tables

/-! ### Lines -/

/-- The value that the line gives to a key is tidy. -/
def Line.Tidy : Line → Prop
  | .assignment a => a.value.Tidy
  | _ => True

namespace Draft

theorem addItem_tidy {name : String} {items : List Entries} (h : ∀ table ∈ items, table.Tidy) :
    KeepsTidy fun _ => addItem name items := by
  intro _ entries after hentries hrun
  simp only [addItem] at hrun
  split at hrun
  · next hnone =>
    obtain rfl := Option.some.inj hrun
    exact hentries.append hnone h
  · next old hlookup =>
    obtain rfl := Option.some.inj hrun
    exact hentries.replace (List.forall_mem_append.2 ⟨hentries.of_lookup hlookup, h⟩)
  · cases hrun

theorem found_tidy (path : List String) (name : String) : KeepsTidy fun _ => found path name := by
  induction path with
  | nil =>
    intro _ entries after h hrun
    simp only [found, existing?] at hrun
    split at hrun
    · obtain rfl := Option.some.inj hrun
      exact .nil
    · next hlookup =>
      obtain rfl := Option.some.inj hrun
      exact List.forall_mem_singleton.1 (h.of_lookup hlookup)
    · cases hrun
  | cons step path ih =>
    intro form entries after h hrun
    simp only [found] at hrun
    split at hrun
    · obtain rfl := Option.some.inj hrun
      exact .nil
    · next hlookup => exact ih form _ _ (List.forall_mem_singleton.1 (h.of_lookup hlookup)) hrun
    · next items hlookup =>
      refine ih form _ _ ?_ hrun
      cases hlast : items.getLast? with
      | none => exact .nil
      | some last => exact h.of_lookup hlookup last (List.mem_of_getLast? hlast)
    · cases hrun

/-- Both parts of a draft are tidy. -/
def Tidy (d : Draft) : Prop := d.root.Tidy ∧ d.current.Tidy

theorem close_tidy {d : Draft} (h : d.Tidy) {entries : Entries} (hrun : d.close = some entries) :
    entries.Tidy := by
  have hcurrent : Value.Tidy (.table .header d.current) := List.forall_mem_singleton.2 h.2
  unfold close at hrun
  split at hrun
  · obtain rfl := Option.some.inj hrun
    exact h.2
  · exact descend_tidy (fun _ _ _ hinner hadd => add_tidy hcurrent hinner hadd) _ _ _ _ h.1 hrun
  · exact descend_tidy (addItem_tidy hcurrent) _ _ _ _ h.1 hrun

/-- **One line.** -/
theorem next_tidy {d d' : Draft} {line : Line} (hline : line.Tidy) (h : d.Tidy)
    (hrun : d.next line = some d') : d'.Tidy := by
  cases line with
  | assignment a =>
    obtain ⟨current, hcurrent, rfl⟩ := exists_of_return hrun
    exact ⟨h.1, a.apply_tidy hline h.2 hcurrent⟩
  | header path name =>
    obtain ⟨root, hroot, hrun⟩ := Option.bind_eq_some_iff.1 hrun
    obtain ⟨current, hcurrent, hrun⟩ := Option.bind_eq_some_iff.1 hrun
    obtain ⟨rest, hrest, rfl⟩ := exists_of_return hrun
    have hclosed := close_tidy h hroot
    refine ⟨descend_tidy (fun _ inner _ hinner hfilter => ?_) _ _ _ _ hclosed hrest,
      found_tidy path name .header _ _ hclosed hcurrent⟩
    obtain rfl := Option.some.inj hfilter
    obtain ⟨keys, inside⟩ := hinner
    exact .intro (keys.sublist (List.filter_sublist.map _)) fun entry hentry =>
      inside entry (List.mem_of_mem_filter hentry)
  | itemHeader path name =>
    obtain ⟨root, hroot, hrun⟩ := Option.bind_eq_some_iff.1 hrun
    obtain ⟨rest, hrest, rfl⟩ := exists_of_return hrun
    exact ⟨descend_tidy (addItem_tidy (List.forall_mem_nil _)) _ _ _ _ (close_tidy h hroot) hrest,
      .nil⟩

end Draft

theorem ofLines_tidy {lines : List Line} (h : ∀ line ∈ lines, line.Tidy) {entries : Entries}
    (hrun : ofLines lines = some entries) : entries.Tidy := by
  obtain ⟨d, hd, hclose⟩ := Option.bind_eq_some_iff.1 hrun
  have hstart : Draft.start.Tidy := ⟨.nil, .nil⟩
  refine Draft.close_tidy (foldlM_keeps (fun line hline _ _ hd => ?_) hstart hd) hclose
  exact Draft.next_tidy (h line hline) hd

/-! ### Reading -/

namespace Reader

variable {α β : Type} {P : α → Prop} {Q : β → Prop} {r r' : Reader α} {next : α → Reader β}

/-- All that the reader returns is as described. -/
def Gives (r : Reader α) (P : α → Prop) : Prop := ∀ cs a rest, r cs = some (a, rest) → P a

theorem gives_pure {a : α} (h : P a) : Gives (pure a : Reader α) P := by
  intro cs b rest hrun
  obtain ⟨rfl, -⟩ := Prod.mk.inj (Option.some.inj hrun)
  exact h

theorem Gives.bind (h : Gives r P) (hnext : ∀ a, P a → Gives (next a) Q) : Gives (r >>= next) Q := by
  intro cs b rest hrun
  obtain ⟨⟨a, middle⟩, ha, hb⟩ := Option.bind_eq_some_iff.1 hrun
  exact hnext a (h cs a middle ha) middle b rest hb

/-- Where it does not matter what came first. -/
theorem gives_then (hnext : ∀ a, Gives (next a) Q) : Gives (r >>= next) Q :=
  Gives.bind (P := fun _ => True) (fun _ _ _ _ => trivial) fun a _ => hnext a

theorem Gives.orElse (h : Gives r P) (h' : Gives r' P) : Gives (r <|> r') P := by
  intro cs a rest hrun
  have hread : (r cs <|> r' cs) = some (a, rest) := hrun
  rcases (Option.orElse_eq_some _ _ _).1 hread with hfirst | ⟨-, hsecond⟩
  · exact h cs a rest hfirst
  · exact h' cs a rest hsecond

theorem Gives.many (h : Gives r P) : Gives r.many (∀ a ∈ ·, P a) := by
  have hrounds : ∀ cs, ∀ a ∈ (repeated r cs).1, P a := by
    intro cs
    fun_induction repeated r cs with
    | case1 | case3 => exact List.forall_mem_nil P
    | case2 cs a rest hrun _ more left hmore ih =>
      rw [hmore] at ih
      exact List.forall_mem_cons.2 ⟨h cs a rest hrun, ih⟩
  intro cs as rest hrun
  obtain rfl := congrArg Prod.fst (Option.some.inj hrun)
  exact hrounds cs

theorem Gives.sepBy {sep : Reader Unit} (h : Gives r P) : Gives (r.sepBy sep) (∀ a ∈ ·, P a) := by
  have hmore : Gives (sep *> r) P := gives_then fun _ => h
  refine Gives.orElse (h.bind fun first hfirst => ?_) (gives_pure (List.forall_mem_nil P))
  exact hmore.many.bind fun rest hrest => gives_pure (List.forall_mem_cons.2 ⟨hfirst, hrest⟩)

end Reader

open Reader

theorem assignment_tidy {item : Reader Value} (h : Gives item Value.Tidy) :
    Gives (assignment item) fun a => a.value.Tidy :=
  gives_then fun _ => gives_then fun _ => gives_then fun _ => gives_then fun _ =>
    h.bind fun _ hv => gives_pure hv

theorem scalar_tidy : Gives scalar Value.Tidy := by
  have hnone {v : Value} (h : v.inner = []) : v.Tidy := by
    rw [Value.Tidy, h]
    exact List.forall_mem_nil _
  refine .orElse ?_ (.orElse ?_ (.orElse ?_ (.orElse ?_ (.orElse ?_ ?_)))) <;>
    exact gives_then fun _ => gives_pure (hnone rfl)

/-- **Values**: a table between braces is made like those of a document. -/
theorem value_tidy (depth : Nat) : Gives (value depth) Value.Tidy := by
  induction depth with
  | zero => exact scalar_tidy
  | succ depth ih =>
    refine .orElse ?_ (.orElse ?_ scalar_tidy)
    · exact gives_then fun _ => gives_then fun _ => gives_then fun _ => gives_then fun _ =>
        gives_pure (List.forall_mem_nil _)
    · have hentry : Gives (do let a ← assignment (value depth); spaces; return a) (·.value.Tidy) :=
        (assignment_tidy ih).bind fun _ ha => gives_then fun _ => gives_pure ha
      refine gives_then fun _ => hentry.sepBy.bind fun assignments h => ?_
      refine gives_then fun _ => gives_then fun _ => ?_
      split
      · next hmade => exact gives_pure (inlineTable_tidy h hmade)
      · intro cs v rest hrun
        cases hrun

theorem line_tidy : Gives line fun content => ∀ l ∈ content, l.Tidy := by
  have hnone : Gives (pure none : Reader (Option Line)) fun content => ∀ l ∈ content, l.Tidy :=
    gives_pure (by simp)
  have hheader : Gives headerLine Line.Tidy := by
    refine .orElse ?_ ?_ <;>
      exact gives_then fun _ => gives_then fun _ => gives_then fun _ => gives_then fun _ =>
        gives_then fun _ => gives_pure trivial
  have hassignment : Gives assignmentLine Line.Tidy :=
    (assignment_tidy (value_tidy _)).bind fun a ha => gives_then fun _ => gives_pure ha
  have hsome {r : Reader Line} (h : Gives r Line.Tidy) :
      Gives (do return some (← r)) fun content => ∀ l ∈ content, l.Tidy :=
    h.bind fun l hl => gives_pure (by simpa using hl)
  refine Gives.bind (.orElse (gives_then fun _ => hnone) (.orElse (gives_then fun _ =>
    gives_then fun _ => hnone) (.orElse (hsome hheader) (hsome hassignment)))) fun content h => ?_
  exact gives_then fun _ => gives_pure h

/-- **A document that is read gives a tidy table.** -/
theorem parse?_tidy {text : String} {entries : Entries} (h : parse? text = some entries) :
    entries.Tidy := by
  obtain ⟨⟨lines, rest⟩, hlines, hrun⟩ := Option.bind_eq_some_iff.1 h
  refine ofLines_tidy (?_ : ∀ line ∈ lines, line.Tidy) hrun
  have hdocument : Gives document (∀ line ∈ ·, line.Tidy) := by
    refine gives_then fun _ => gives_then fun _ => line_tidy.many.bind fun contents h => ?_
    refine gives_then fun _ => gives_pure fun l hl => ?_
    obtain ⟨content, hcontent, hl⟩ := List.mem_filterMap.1 hl
    exact h content hcontent l hl
  exact hdocument _ _ _ hlines

/-- A key stands at most once in the document's table and in the tables that are its entries. -/
structure Entries.Distinct (entries : Entries) : Prop where
  keys : (entries.map Prod.fst).Nodup
  inner : ∀ entry ∈ entries, ∀ inner ∈ entry.2.entries?, (inner.map Prod.fst).Nodup

theorem parse?_distinct {text : String} {entries : Entries} (h : parse? text = some entries) :
    entries.Distinct := by
  obtain ⟨keys, inside⟩ := parse?_tidy h
  refine ⟨keys, fun entry hentry inner hinner => ?_⟩
  have hmem : inner ∈ entry.2.inner := by
    cases hvalue : entry.2 <;> simp_all [Value.entries?, Value.inner]
  obtain ⟨hkeys, -⟩ := inside entry hentry inner hmem
  exact hkeys

end RegionTypes.Toml
