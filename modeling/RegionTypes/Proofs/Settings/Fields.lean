import Mathlib
import RegionTypes.Proofs.Settings.Documents
import RegionTypes.Settings.Load

/-!
# Settings field by field

A document is read entry by entry, in the order in which the entries stand.  What comes of it can be
said field by field: a field looks at its own entry only, which stands under its key if the section is
a table and at its place if the section is a list.

* `readEntries_cons` — the entry of a field may be read before all the others.
* `readSection_eq_ok_iff` — a section is read field by field.
* `settings_field_by_field` — **settings are read independently of each other**: they come of a
  document exactly when each entry that counts has the right type, every setting is then the given one
  or its default, and nothing else in the document matters.
-/

namespace RegionTypes

open Toml (Value Entries)

theorem Reading.bind_eq_ok_iff {ε α β : Type} {x : Except ε α} {f : α → Except ε β} {b : β} :
    (x >>= f) = .ok b ↔ ∃ a, x = .ok a ∧ f a = .ok b := by
  cases x <;> simp [bind, Except.bind]

/-! ### What a table gives -/

namespace Toml

namespace Value

/-- What a section gives for a field, by its key or by its place. -/
def given? (key : String) (place : Nat) (v : Value) : Option Value :=
  (v.entries?.bind (·.lookup key)).or (v.items?.bind (·[place]?))

/-- The values that a section may have.  A date or a time counts as a table, one that gives nothing. -/
def isSection : Value → Bool
  | moment | list _ | table .. | tables _ => true
  | _ => false

def flag? : Value → Option Bool
  | boolean b => some b
  | _ => none

def text? : Value → Option String
  | text s => some s
  | _ => none

end Value

/-- Where a setting stands: in which section, under which key, and where in a list. -/
structure Setting where
  name : String
  key : String
  place : Nat

namespace Setting

def verbose : Setting := ⟨"display", "verbose", 0⟩
def printRegions : Setting := ⟨"display", "print_regions", 1⟩
def level : Setting := ⟨"logging", "level", 0⟩
def json : Setting := ⟨"logging", "json", 1⟩
def stderr : Setting := ⟨"logging", "stderr", 2⟩
def file : Setting := ⟨"logging", "file", 3⟩

end Setting

namespace Entries

def part? (entries : Entries) (p : Setting) : Option Value :=
  (entries.lookup p.name).bind (·.given? p.key p.place)

/-- What stands for a section is one. -/
abbrev HasSection (entries : Entries) (name : String) : Prop := ∀ v ∈ entries.lookup name, v.isSection

/-- Whatever is given for a section or a setting has the right type. -/
@[mk_iff]
structure WellTyped (entries : Entries) : Prop where
  display : entries.HasSection "display"
  verbose : ∀ v ∈ entries.part? .verbose, v.flag?.isSome
  printRegions : ∀ v ∈ entries.part? .printRegions, v.flag?.isSome
  logging : entries.HasSection "logging"
  level : ∀ v ∈ entries.part? .level, v.text?.isSome
  json : ∀ v ∈ entries.part? .json, v.flag?.isSome
  stderr : ∀ v ∈ entries.part? .stderr, v.flag?.isSome
  file : ∀ v ∈ entries.part? .file, v.text?.isSome

/-- Every setting as it is given, or else its default. -/
def settings (entries : Entries) : Settings where
  display :=
    { verbose := ((entries.part? .verbose).bind Value.flag?).getD false
      printRegions := ((entries.part? .printRegions).bind Value.flag?).getD false }
  logging :=
    { level := ((entries.part? .level).bind Value.text?).getD "info"
      json := ((entries.part? .json).bind Value.flag?).getD false
      stderr := ((entries.part? .stderr).bind Value.flag?).getD true
      file := (entries.part? .file).bind Value.text? }

/-- Two tables that give the same for each setting, and a wrong section both or none. -/
structure Agree (entries entries' : Entries) : Prop where
  sections : ∀ name ∈ ["display", "logging"], entries.HasSection name ↔ entries'.HasSection name
  parts : ∀ p ∈ [Setting.verbose, .printRegions, .level, .json, .stderr, .file],
    entries.part? p = entries'.part? p

end Entries

end Toml

open Toml (Setting)

/-! ### Sections -/

theorem Toml.Value.given?_table (form : Toml.Form) (entries : Entries) (key : String) (place : Nat) :
    (Value.table form entries).given? key place = entries.lookup key := by
  simp [given?, entries?, items?]

section

variable {σ : Type} {f : SectionField σ} {fields : List (SectionField σ)} {s s' : σ}
  {entries : Entries}

namespace SectionField

/-- Two fields with different keys that go to different parts of the section. -/
def Apart (f g : SectionField σ) : Prop :=
  f.key ≠ g.key ∧ ∀ a b s, f.set a (g.set b s) = g.set b (f.set a s)

/-- Reads a field from what is given for it, if anything is. -/
def fill (f : SectionField σ) (given : Option Value) (s : σ) : Except LoadError σ :=
  given.elim (.ok s) (f.put s)

theorem put_eq_ok_iff {v : Value} : f.put s v = .ok s' ↔ ∃ a, f.read v = .ok a ∧ f.set a s = s' := by
  rw [put, Reading.bind_eq_ok_iff]
  simp [pure, Except.pure]

theorem Apart.put_comm {g : SectionField σ} (h : f.Apart g) {v w : Value} :
    (∃ t, g.put s v = .ok t ∧ f.put t w = .ok s') ↔ ∃ t, f.put s w = .ok t ∧ g.put t v = .ok s' := by
  simp only [put_eq_ok_iff]
  constructor
  · rintro ⟨_, ⟨b, hb, rfl⟩, a, ha, rfl⟩
    exact ⟨_, ⟨a, ha, rfl⟩, b, hb, (h.2 a b s).symm⟩
  · rintro ⟨_, ⟨a, ha, rfl⟩, b, hb, rfl⟩
    exact ⟨_, ⟨b, hb, rfl⟩, a, ha, h.2 a b s⟩

/-- A field comes to hold what is read from the given value, or else what it started with. -/
theorem fill_eq_ok_iff {given : Option Value} (start : f.Part) (hstart : f.set start s = s) :
    f.fill given s = .ok s' ↔ ∃ a, given.elim (.ok start) f.read = .ok a ∧ f.set a s = s' := by
  cases given with
  | none => simp [fill, hstart]
  | some => exact put_eq_ok_iff

end SectionField

open SectionField

/-- Reads the fields in their own order, each from what the section gives for it. -/
def readFields (v : Value) : List (SectionField σ) → Nat → σ → Except LoadError σ
  | [], _, s => .ok s
  | f :: fields, place, s => do
    readFields v fields (place + 1) (← f.fill (v.given? f.key place) s)

theorem readFields_nil {v : Value} {place : Nat} : readFields v [] place s = .ok s := rfl

theorem readFields_cons {v : Value} {place : Nat} : readFields v (f :: fields) place s = .ok s' ↔
    ∃ t, f.fill (v.given? f.key place) s = .ok t ∧ readFields v fields (place + 1) t = .ok s' :=
  Reading.bind_eq_ok_iff

/-- A value of the right type is taken as it is; without any, the field stays. -/
theorem readFields_next {α : Type} {key : String} {read : Reading α} {set : α → σ → σ}
    {view : Value → Option α} (hview : ∀ v a, read v = .ok a ↔ view v = some a) {v : Value}
    {place : Nat} : readFields v (⟨key, read, set⟩ :: fields) place s = .ok s' ↔
      (∀ w ∈ v.given? key place, (view w).isSome) ∧
        readFields v fields (place + 1) (((v.given? key place).bind view).elim s (set · s)) =
          .ok s' := by
  rw [readFields_cons]
  cases v.given? key place with
  | none => simp [fill]
  | some w =>
    simp only [fill, Option.elim_some, put_eq_ok_iff, hview]
    cases hread : view w <;> simp [hread]

/-- The entry of a field and any other can be read in either order. -/
theorem fill_readEntry_comm (hapart : ∀ g ∈ fields, f.Apart g) {given : Option Value}
    {entry : String × Value} :
    (∃ t, readEntry fields s entry = .ok t ∧ f.fill given t = .ok s') ↔
      ∃ t, f.fill given s = .ok t ∧ readEntry fields t entry = .ok s' := by
  unfold readEntry
  cases given with
  | none => simp [fill]
  | some =>
    cases hfind : fields.find? (·.key == entry.1) with
    | none => simp [fill]
    | some g => exact (hapart g (List.mem_of_find?_eq_some hfind)).put_comm

/-- **One field first.**  However the entries stand, that of a field may be read before the others. -/
theorem readEntries_cons (hapart : ∀ g ∈ fields, f.Apart g) (hkeys : (entries.map Prod.fst).Nodup) :
    readEntries (f :: fields) s entries = .ok s' ↔
      ∃ t, f.fill (entries.lookup f.key) s = .ok t ∧ readEntries fields t entries = .ok s' := by
  induction entries generalizing s with
  | nil => simp [readEntries, fill, pure, Except.pure]
  | cons entry rest ih =>
    obtain ⟨key, v⟩ := entry
    obtain ⟨hnew, hrest⟩ := List.nodup_cons.1 hkeys
    have hfold : ∀ fields t, readEntries fields t ((key, v) :: rest) = .ok s' ↔
        ∃ t', readEntry fields t (key, v) = .ok t' ∧ readEntries fields t' rest = .ok s' :=
      fun fields t => by rw [readEntries, List.foldlM_cons, Reading.bind_eq_ok_iff]; rfl
    simp only [hfold, ih hrest]
    by_cases hkey : f.key = key
    · subst hkey
      have hgone : rest.lookup f.key = none :=
        List.lookup_eq_none_iff.2 fun p hp => by
          simpa using fun h : f.key = p.1 => hnew (List.mem_map.2 ⟨p, hp, h.symm⟩)
      have hothers : fields.find? (·.key == f.key) = none :=
        List.find?_eq_none.2 fun g hg => by simpa using (hapart g hg).1.symm
      simp [readEntry, hgone, hothers, fill]
    · have hlookup : ((key, v) :: rest).lookup f.key = rest.lookup f.key := by
        rw [List.lookup_cons, beq_eq_false_iff_ne.2 hkey]
      have hentry : ∀ t, readEntry (f :: fields) t (key, v) = readEntry fields t (key, v) := by
        simp [readEntry, hkey]
      simp only [hlookup, hentry]
      constructor
      · rintro ⟨t, hfirst, t', hfill, hread⟩
        obtain ⟨r, hr, hr'⟩ := (fill_readEntry_comm hapart).1 ⟨t, hfirst, hfill⟩
        exact ⟨r, hr, t', hr', hread⟩
      · rintro ⟨r, hr, t', hr', hread⟩
        obtain ⟨t, hfirst, hfill⟩ := (fill_readEntry_comm hapart).2 ⟨r, hr, hr'⟩
        exact ⟨t, hfirst, t', hfill, hread⟩

theorem readEntries_eq_ok_iff (form : Toml.Form) (place : Nat)
    (hapart : fields.Pairwise Apart) (hkeys : (entries.map Prod.fst).Nodup) :
    readEntries fields s entries = .ok s' ↔
      readFields (.table form entries) fields place s = .ok s' := by
  induction fields generalizing place s with
  | nil =>
    have hnone : ∀ entries : Entries, readEntries [] s entries = .ok s := fun entries => by
      induction entries with
      | nil => rfl
      | cons entry rest ih => exact ih
    rw [hnone, readFields]
  | cons f fields ih =>
    obtain ⟨hf, hfields⟩ := List.pairwise_cons.1 hapart
    have hgiven := Toml.Value.given?_table form entries f.key place
    simp only [readEntries_cons hf hkeys, readFields_cons, ih (place + 1) hfields, hgiven]

theorem readItems_eq {v : Value} {items : List Value} (hitems : v.items? = some items)
    (hentries : v.entries? = none) (place : Nat) :
    readItems fields s (items.drop place) = readFields v fields place s := by
  induction fields generalizing place s with
  | nil => simp [readItems, readFields, pure, Except.pure]
  | cons f fields ih =>
    have hgiven : v.given? f.key place = items[place]? := by
      simp [Toml.Value.given?, hitems, hentries]
    rw [readFields, hgiven]
    simp only [← ih]
    by_cases hlt : place < items.length
    · rw [List.drop_eq_getElem_cons hlt, List.getElem?_eq_getElem hlt]
      rfl
    · rw [List.drop_eq_nil_of_le (by omega), List.drop_eq_nil_of_le (by omega),
        List.getElem?_eq_none (by omega)]
      simp [readItems, fill, pure, Except.pure, bind, Except.bind]

/-- **A section is read field by field**, whatever else it has and in whatever order. -/
theorem readSection_eq_ok_iff {wanted : Wanted} {v : Value} (hapart : fields.Pairwise Apart)
    (hkeys : ∀ inner ∈ v.entries?, (inner.map Prod.fst).Nodup) :
    readSection wanted fields s v = .ok s' ↔ v.isSection ∧ readFields v fields 0 s = .ok s' := by
  have hmoment : ∀ place, readFields .moment fields place s = .ok s := by
    clear hapart
    induction fields with
    | nil => exact fun _ => rfl
    | cons f fields ih => exact fun place => ih (place + 1)
  cases v with
  | table form inner =>
    simpa [readSection, Toml.Value.isSection] using
      readEntries_eq_ok_iff form 0 hapart (hkeys inner rfl)
  | moment => simp [readSection, hmoment, Toml.Value.isSection]
  | list items | tables items =>
    rw [← readItems_eq rfl rfl 0]
    simp [readSection, Toml.Value.isSection]
  | _ => simp [readSection, mismatch, Toml.Value.isSection]

end

/-! ### Settings -/

theorem displayFields_apart : displayFields.Pairwise SectionField.Apart := by
  simp [displayFields, SectionField.Apart]

theorem loggingFields_apart : loggingFields.Pairwise SectionField.Apart := by
  simp [loggingFields, SectionField.Apart]

theorem settingsFields_apart : [displayField, loggingField].Pairwise SectionField.Apart := by
  simp [displayField, loggingField, SectionField.Apart]

theorem readFlag_eq_ok_iff (v : Value) (b : Bool) : readFlag v = .ok b ↔ v.flag? = some b := by
  cases v <;> simp [readFlag, mismatch, Toml.Value.flag?]

theorem readText_eq_ok_iff (wanted : Wanted) (v : Value) (s : String) :
    readText wanted v = .ok s ↔ v.text? = some s := by
  cases v <;> simp [readText, mismatch, Toml.Value.text?]

section

variable {entries : Entries} (h : entries.Distinct)

include h

theorem Toml.Entries.Distinct.of_lookup {name : String} {v : Value}
    (hv : entries.lookup name = some v) : ∀ inner ∈ v.entries?, (inner.map Prod.fst).Nodup := by
  obtain ⟨front, back, rfl, -⟩ := List.lookup_eq_some_iff.1 hv
  exact h.inner (name, v) (by simp)

theorem readDisplay_eq_ok_iff {display : DisplayOptions} :
    (entries.lookup "display").elim (.ok {}) (readSection .displaySection displayFields {}) =
        .ok display ↔
      entries.HasSection "display" ∧ (∀ v ∈ entries.part? .verbose, v.flag?.isSome) ∧
        (∀ v ∈ entries.part? .printRegions, v.flag?.isSome) ∧
        display = entries.settings.display := by
  simp only [Entries.HasSection, Entries.part?, Entries.settings, Setting.verbose, Setting.printRegions]
  cases hlookup : entries.lookup "display" with
  | none => simpa using eq_comm
  | some v =>
    simp only [Option.elim_some, Option.bind_some, Option.mem_some, forall_eq']
    rw [readSection_eq_ok_iff displayFields_apart (h.of_lookup hlookup), displayFields]
    simp only [readFields_next readFlag_eq_ok_iff, readFields_nil, Except.ok.injEq,
      @eq_comm _ _ display]
    cases (v.given? "verbose" 0).bind Value.flag? <;>
      cases (v.given? "print_regions" 1).bind Value.flag? <;> exact Iff.rfl

theorem readLogging_eq_ok_iff {logging : Logging} :
    (entries.lookup "logging").elim (.ok {}) (readSection .loggingSection loggingFields {}) =
        .ok logging ↔
      entries.HasSection "logging" ∧ (∀ v ∈ entries.part? .level, v.text?.isSome) ∧
        (∀ v ∈ entries.part? .json, v.flag?.isSome) ∧
        (∀ v ∈ entries.part? .stderr, v.flag?.isSome) ∧
        (∀ v ∈ entries.part? .file, v.text?.isSome) ∧ logging = entries.settings.logging := by
  simp only [Entries.HasSection, Entries.part?, Entries.settings, Setting.level, Setting.json,
    Setting.stderr, Setting.file]
  cases hlookup : entries.lookup "logging" with
  | none => simpa using eq_comm
  | some v =>
    simp only [Option.elim_some, Option.bind_some, Option.mem_some, forall_eq']
    rw [readSection_eq_ok_iff loggingFields_apart (h.of_lookup hlookup), loggingFields]
    simp only [readFields_next readFlag_eq_ok_iff, readFields_next (readText_eq_ok_iff _),
      readFields_nil, Except.ok.injEq, @eq_comm _ _ logging]
    cases (v.given? "level" 0).bind Value.text? <;> cases (v.given? "json" 1).bind Value.flag? <;>
      cases (v.given? "stderr" 2).bind Value.flag? <;>
        cases (v.given? "file" 3).bind Value.text? <;> exact Iff.rfl

theorem ofEntries_eq_ok_iff {settings : Settings} :
    Settings.ofEntries entries = .ok settings ↔
      entries.WellTyped ∧ settings = entries.settings := by
  rw [Settings.ofEntries, readEntries_eq_ok_iff .header 0 settingsFields_apart h.keys]
  simp only [readFields_cons, readFields_nil, Toml.Value.given?_table]
  have hfill₁ {s s' given} := @displayField.fill_eq_ok_iff _ s s' given ({} : DisplayOptions)
  have hfill₂ {s s' given} := @loggingField.fill_eq_ok_iff _ s s' given ({} : Logging)
  constructor
  · rintro ⟨_, hdisplay, _, hlogging, hsettings⟩
    obtain ⟨display, hread, rfl⟩ := (hfill₁ rfl).1 hdisplay
    obtain ⟨logging, hread', rfl⟩ := (hfill₂ rfl).1 hlogging
    obtain ⟨hsection, hverbose, hregions, rfl⟩ := (readDisplay_eq_ok_iff h).1 hread
    obtain ⟨hsection', hlevel, hjson, hstderr, hfile, rfl⟩ := (readLogging_eq_ok_iff h).1 hread'
    exact ⟨⟨hsection, hverbose, hregions, hsection', hlevel, hjson, hstderr, hfile⟩,
      (Except.ok.inj hsettings).symm⟩
  · rintro ⟨ht, rfl⟩
    exact ⟨_, (hfill₁ rfl).2 ⟨_, (readDisplay_eq_ok_iff h).2
        ⟨ht.display, ht.verbose, ht.printRegions, rfl⟩, rfl⟩, _,
      (hfill₂ rfl).2 ⟨_, (readLogging_eq_ok_iff h).2
        ⟨ht.logging, ht.level, ht.json, ht.stderr, ht.file, rfl⟩, rfl⟩, rfl⟩

end

theorem Toml.Entries.Agree.same {entries entries' : Entries} (h : entries.Agree entries') :
    (entries.WellTyped ↔ entries'.WellTyped) ∧ entries.settings = entries'.settings := by
  have hparts := h.parts
  have hsections := h.sections
  simp only [List.forall_mem_cons] at hparts hsections
  obtain ⟨hverbose, hregions, hlevel, hjson, hstderr, hfile, -⟩ := hparts
  obtain ⟨hdisplay, hlogging, -⟩ := hsections
  simp only [wellTyped_iff, settings, hdisplay, hlogging, hverbose, hregions, hlevel, hjson, hstderr,
    hfile, and_self]

/-- **Settings are read independently of each other**, however documents are turned into tables.  A
document gives settings exactly when each section and each setting that stands in its table has the
right type.  Every setting is then the given one, or else its default; two documents that agree on these
entries give the same. -/
theorem settings_field_by_field {parse? : String → Option Entries} {text : String} {entries : Entries}
    (hparse : parse? text = some entries) (h : entries.Distinct) :
    (∀ settings, Settings.ofTextWith parse? text = .ok settings ↔
        entries.WellTyped ∧ settings = entries.settings) ∧
      ∀ text' entries', parse? text' = some entries' → entries'.Distinct →
        entries.Agree entries' → ∀ settings,
          Settings.ofTextWith parse? text = .ok settings ↔
            Settings.ofTextWith parse? text' = .ok settings := by
  have hof : ∀ {text : String} {entries : Entries}, parse? text = some entries →
      Settings.ofTextWith parse? text = Settings.ofEntries entries := fun hparse => by
    rw [Settings.ofTextWith, hparse]
  refine ⟨fun settings => hof hparse ▸ ofEntries_eq_ok_iff h, ?_⟩
  intro text' entries' hparse' h' hagree settings
  rw [hof hparse, hof hparse', ofEntries_eq_ok_iff h, ofEntries_eq_ok_iff h', hagree.same.1,
    hagree.same.2]

/-- A section as a list, and one as a table with an unknown key. -/
theorem settings_field_by_field_unknown :
    Settings.ofText "display = [true]\n[logging]\ncolor = 2\nlevel = 'debug'" =
      .ok { display := { verbose := true }, logging := { level := "debug" } } := by
  have hparse : Toml.parse? "display = [true]\n[logging]\ncolor = 2\nlevel = 'debug'" =
      some [("display", .list [.boolean true]),
        ("logging", .table .header [("color", .integer 2), ("level", .text "debug")])] := by cbv
  refine ((settings_field_by_field hparse (Toml.parse?_distinct hparse)).1 _).2 ⟨?_, rfl⟩
  rw [Toml.Entries.wellTyped_iff]
  decide

end RegionTypes
