import RegionTypes.Log.Event
import RegionTypes.Text.Blank
import RegionTypes.Text.Letter

/-!
# Log filters

A filter is a list of **directives** separated by commas: `target=level`, a bare level for events of
any target, or a bare target for everything below it.

* `Reader` — what reads filters of some kind from texts; `Reader.standard` reads those described here.
* `Filter.parse?` — reads a filter; one malformed part makes the whole text invalid.  Parts are not
  trimmed: a level with a blank beside it is the name of a target.
* `Filter.text` — the directives with longer targets first, targets of equal length in descending
  order, and the directive without target last.
* `Filter.admits` — the first directive in that order whose target is an initial part of the event's
  target decides.
* `Filter.maxThreshold` also counts directives that a later one replaced.
-/

namespace RegionTypes.Log

/-- What a filter says about one target, or about all of them. -/
structure Directive where
  target : Option String
  threshold : Threshold
  deriving DecidableEq, Repr

namespace Directive

/-- The target's bytes; none for the directive of all targets. -/
def bytes (d : Directive) : List UInt8 :=
  match d.target with
  | none => []
  | some t => t.toUTF8.toList

/-- The order of writing and of matching: longer targets first, then in descending byte order, the
directive of all targets last. -/
def precedes (a b : Directive) : Bool :=
  if a.target.isSome != b.target.isSome then a.target.isSome
  else if a.bytes.length ≠ b.bytes.length then b.bytes.length < a.bytes.length
  else (compare b.bytes a.bytes).isLT

def text (d : Directive) : String :=
  match d.target with
  | none => d.threshold.name
  | some t => t ++ "=" ++ d.threshold.name

/-- Whether the directive speaks about events of a target. -/
def matchesTarget (d : Directive) (target : String) : Bool :=
  d.bytes.isPrefixOf target.toUTF8.toList

end Directive

/-- A set of directives, one for each target, in the order of writing. -/
structure Filter where
  directives : List Directive
  /-- The most detailed threshold of any directive given, replaced ones included. -/
  maxThreshold : Threshold
  deriving DecidableEq, Repr

namespace Filter

def empty : Filter := ⟨[], .off⟩

/-- Puts a directive in its place in front of those it precedes. -/
def place (d : Directive) : List Directive → List Directive
  | [] => [d]
  | e :: rest => if d.precedes e then d :: e :: rest else e :: place d rest

/-- The filter with one more directive, which replaces an earlier one for the same target. -/
def insert (f : Filter) (d : Directive) : Filter where
  directives := place d (f.directives.filter fun e => e.target ≠ d.target)
  maxThreshold := f.maxThreshold.max d.threshold

def ofList (ds : List Directive) : Filter := ds.foldl insert empty

def everything : Filter := ofList [⟨none, .upTo .trace⟩]

/-- Whether an event passes: the first directive that speaks about its target decides. -/
def admits (f : Filter) (level : Level) (target : String) : Bool :=
  match f.directives.find? (·.matchesTarget target) with
  | some d => d.threshold.admits level
  | none => false

def text (f : Filter) : String := ",".intercalate (f.directives.map Directive.text)

/-! ### Reading -/

/-- A number written in decimal digits, perhaps after a plus sign. -/
def number? (s : String) : Option Nat :=
  let digits := match s.toList with
    | '+' :: rest => rest
    | cs => cs
  if digits.isEmpty || digits.any (! ·.isDigit) then none
  else some (digits.foldl (fun n c => n * 10 + (c.toNat - '0'.toNat)) 0)

/-- A threshold by its name in any case, or by its number. -/
def threshold? (s : String) : Option Threshold :=
  Threshold.all.find? fun t => t.name == Text.lower s || number? s == some t.detail

def opensDirective (c : Char) : Bool :=
  Text.isLetterOrDigit c || c == '-' || c == ':' || c == '_'

/-- Reads a part that is not empty.  Blanks belong to the target: a level has none around it, and in
front of `target=level` they are refused.  There are no directives for spans or fields. -/
def directive? (part : List Char) : Option Directive :=
  if (part.dropWhile Text.isBlank).head?.any opensDirective then
    let before := String.ofList (part.takeWhile (· != '='))
    match part.dropWhile (· != '=') with
    | [] =>
      match threshold? before with
      | some t => some ⟨none, t⟩
      | none => some ⟨some before, .upTo .trace⟩
    | _ :: after =>
      if part.head?.any Text.isBlank then none
      else if after.isEmpty then some ⟨some before, .upTo .trace⟩
      else (threshold? (String.ofList after)).map fun t => ⟨some before, t⟩
  else none

/-- The parts of a text between commas, but for empty ones. -/
def parts (s : String) : List (List Char) := (s.toList.splitOn ',').filter (! ·.isEmpty)

/-- Reads a filter. -/
def parse? (s : String) : Option Filter := ((parts s).mapM directive?).map ofList

end Filter

/-- What reads filters of some kind from texts. -/
structure Reader (F : Type) where
  read? : String → Option F
  /-- The filter that lets levels up to `info` pass. -/
  fallback : F

def Reader.standard : Reader Filter := ⟨Filter.parse?, Filter.ofList [⟨none, .upTo .info⟩]⟩

end RegionTypes.Log
