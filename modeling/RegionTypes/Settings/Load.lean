import RegionTypes.Decimal.Layout
import RegionTypes.Settings.Basic
import RegionTypes.Text.Quoted
import RegionTypes.Toml.Document

/-!
# Loading settings

Settings are written as a TOML document with the sections `display` and `logging`.  What is left out
keeps its default, and what is unknown is ignored.  A section is a table, or the list of its fields
in order.

* `Settings.ofEntries` — the settings that a document's table gives.  Entries are read in the order
  in which they stand, so the first one of a wrong type is the one reported.
* `Settings.ofTextWith`, `Settings.ofText` — the settings that a document gives, by any way to read
  documents and by `Toml.parse?`.
-/

namespace RegionTypes

open Toml (Value Entries)

inductive Wanted where
  | flag | text | path | displaySection | loggingSection
  deriving DecidableEq, Repr

def Wanted.phrase : Wanted → String
  | flag => "a boolean"
  | text => "a string"
  | path => "path string"
  | displaySection => "struct DisplayOptions"
  | loggingSection => "struct LoggingConfig"

/-- A floating-point word with all its digits in their places. -/
def floatInPlaces (word : UInt64) : String :=
  match Binary.decode Binary.double word.toNat with
  | .nan => "NaN"
  | .infinite negative => Decimal.signed negative "inf"
  | .finite negative magnitude atEdge =>
    Decimal.signed negative (Decimal.shortest magnitude atEdge).positional

/-- What was found, in messages.  Dates and times count as tables. -/
def foundText : Value → String
  | .text s => "string " ++ Text.quoted s
  | .integer n => "integer `" ++ toString n ++ "`"
  | .float word => "floating point `" ++ floatInPlaces word ++ "`"
  | .boolean b => "boolean `" ++ toString b ++ "`"
  | .list _ | .tables _ => "sequence"
  | .moment | .table .. => "map"

inductive LoadError where
  | malformed
  | wrongType (found : String) (wanted : Wanted)
  | unreadable (path reason : String)
  deriving DecidableEq, Repr

/-- The text of an error; a malformed document has none of its own. -/
def LoadError.message? : LoadError → Option String
  | malformed => none
  | wrongType found wanted =>
    some ("failed to parse toml config: invalid type: " ++ found ++ ", expected " ++ wanted.phrase)
  | unreadable path reason => some ("failed to read config file " ++ path ++ ": " ++ reason)

/-! ### Fields and sections -/

abbrev Reading (α : Type) := Value → Except LoadError α

def mismatch {α : Type} (v : Value) (wanted : Wanted) : Except LoadError α :=
  .error (.wrongType (foundText v) wanted)

def readFlag : Reading Bool
  | .boolean b => .ok b
  | v => mismatch v .flag

def readText (wanted : Wanted) : Reading String
  | .text s => .ok s
  | v => mismatch v wanted

/-- A field of a section: its key, how its value is read, and where it goes. -/
structure SectionField (σ : Type) where
  key : String
  {Part : Type}
  read : Reading Part
  set : Part → σ → σ

def SectionField.put {σ : Type} (field : SectionField σ) (s : σ) : Reading σ := fun v => do
  return field.set (← field.read v) s

section

variable {σ : Type}

/-- Reads an entry of a section; an unknown key changes nothing. -/
def readEntry (fields : List (SectionField σ)) (s : σ) (entry : String × Value) :
    Except LoadError σ :=
  match fields.find? (·.key == entry.1) with
  | some field => field.put s entry.2
  | none => .ok s

def readEntries (fields : List (SectionField σ)) (start : σ) (entries : Entries) :
    Except LoadError σ :=
  entries.foldlM (readEntry fields) start

/-- Reads the items of a section given as a list; items beyond the last field are ignored. -/
def readItems (fields : List (SectionField σ)) (start : σ) (items : List Value) :
    Except LoadError σ :=
  (fields.zip items).foldlM (fun s (field, v) => field.put s v) start

def readSection (wanted : Wanted) (fields : List (SectionField σ)) (start : σ) : Reading σ
  | .table _ entries => readEntries fields start entries
  | .moment => .ok start
  | .list items => readItems fields start items
  | .tables items => readItems fields start (items.map (.table .header))
  | v => mismatch v wanted

end

def displayFields : List (SectionField DisplayOptions) :=
  [⟨"verbose", readFlag, fun b o => { o with verbose := b }⟩,
    ⟨"print_regions", readFlag, fun b o => { o with printRegions := b }⟩]

def loggingFields : List (SectionField Logging) :=
  [⟨"level", readText .text, fun s l => { l with level := s }⟩,
    ⟨"json", readFlag, fun b l => { l with json := b }⟩,
    ⟨"stderr", readFlag, fun b l => { l with stderr := b }⟩,
    ⟨"file", readText .path, fun s l => { l with file := some s }⟩]

def displayField : SectionField Settings :=
  ⟨"display", readSection .displaySection displayFields {}, fun d s => { s with display := d }⟩

def loggingField : SectionField Settings :=
  ⟨"logging", readSection .loggingSection loggingFields {}, fun l s => { s with logging := l }⟩

namespace Settings

def ofEntries (entries : Entries) : Except LoadError Settings :=
  readEntries [displayField, loggingField] {} entries

def ofTextWith (parse? : String → Option Entries) (text : String) : Except LoadError Settings :=
  match parse? text with
  | some entries => ofEntries entries
  | none => .error .malformed

def ofText : String → Except LoadError Settings := ofTextWith Toml.parse?

end Settings

end RegionTypes
