import RegionTypes.Store.Arguments

/-!
# Rendering

The text of a type, for people to read.  Rendering asks the questions of `Arguments`, so it may load
classes; what it asks, and in which order, is part of what it does.  So the questions are kept apart
from what is made of the answers.

* `qualifiedName` — a symbol's name after those of its owners, as far as these are packages or types
  with a name.
* `Question`, `Question.ask` — what rendering asks; `Lookup` — what is answered by reading alone.
* `Rendering.text` — the text of a type, however questions are put; `render` — where they are asked.
* `renderList`, `renderArgTypes` — lists of types, and the parameters of a method.
-/

namespace RegionTypes

universe u

open Run

/-- Whether a symbol lends its name to what it owns. -/
def Symbol.qualifies (s : Symbol) : Bool :=
  (s.kind == .package || s.kind == .type) && !s.name.isEmpty

/-- The name of a symbol after the qualified name of its owner. -/
def qualifiedName : Nat → SymbolId → Run String
  | 0, _ => tooDeep
  | depth + 1, sym => do
    let symbol ← symbolData sym
    match symbol.owner with
    | none => return symbol.name
    | some owner =>
      if (← symbolData owner).qualifies then
        return (← qualifiedName depth owner) ++ "." ++ symbol.name
      else return symbol.name

def joined {α : Type} (text : α → String) (items : List α) : String :=
  ",".intercalate (items.map text)

/-- The non-empty ones of some texts, separated by a comma and a blank. -/
def sections (texts : List String) (present : List Bool) : String :=
  ", ".intercalate ((texts.zip present).filter Prod.snd |>.map Prod.fst)

def symbolText (symbol : Option SymbolId) : Run String :=
  match symbol with
  | none => pure "<none>"
  | some sym => do return (← symbolData sym).name

/-- The qualified name of the type's symbol, or the given text if it has none. -/
def qualifiedText (depth : Nat) (symbol : Option SymbolId) (otherwise : String) : Run String :=
  match symbol with
  | none => pure otherwise
  | some sym => qualifiedName depth sym

def BoundKind.text : BoundKind → String
  | upper => "? extends "
  | lower => "? super "
  | unbounded => "?"

/-- Captured variables are told apart by their handles modulo this number. -/
def captureModulus : Nat := 997

/-- What an anonymous class is described by: its first interface, or else its superclass, as recorded
on the canonical type without loading it. -/
def described? (symbol : Symbol) : Run (Option TypeId) :=
  match symbol.type with
  | none => pure none
  | some canonical => do
    return (← kindOf canonical).class?.bind fun info =>
      (info.interfaces.bind List.head?).or info.supertype

def isMemberOfType (symbol : Option SymbolId) : Run Bool :=
  match symbol with
  | none => pure false
  | some sym => do
    match (← symbolData sym).owner with
    | none => return false
    | some owner => return (← symbolData owner).kind == .type

/-- One dimension of an array: brackets, the region unless it is `Root`, and the index variable
unless it is `_`. -/
def dimensionText (dimension : Path × Option SymbolId) : Run String := do
  let region := if dimension.1.isRoot then "" else "<" ++ dimension.1.text ++ ">"
  match dimension.2 with
  | none => return "[]" ++ region
  | some var =>
    let name := (← symbolData var).name
    return "[]" ++ region ++ if name == "_" then "" else "#" ++ name

/-- The dimensions of nested arrays, outermost first, and the type of the innermost cells. -/
def dimensions : Nat → TypeId → Run (List (Path × Option SymbolId) × TypeId)
  | 0, _ => tooDeep
  | depth + 1, ty => do
    match ← kindOf ty with
    | .array info =>
      let (rest, base) ← dimensions depth info.elem
      return ((info.region, info.indexVar) :: rest, base)
    | _ => return ([], ty)

/-! ### Questions -/

/-- What the name of a class is made of. -/
inductive Naming where
  | text (name : String)
  /-- The supertypes make up the name. -/
  | intersection
  /-- A class without a name, with what it is described by. -/
  | anonymous (sym : SymbolId) (described : Option TypeId)

/-- What of a record matters to a text as it stands. -/
def Kind.shown : Kind → Kind
  | classType info => classType { outer := info.outer }
  | method info => method { info with thrown := [], actuals := none }
  | typeVar info => typeVar { info with bound := none }
  | captured info w => captured { info with bound := none } w
  | wildcard info => wildcard { info with formal := none }
  | placeholder info => placeholder { origin := info.origin, solution := info.solution }
  | kind => kind

/-- What is answered by reading records only. -/
inductive Lookup : Type → Type
  /-- The symbol of a type, and what of its record matters as it stands. -/
  | record (ty : TypeId) : Lookup (Option SymbolId × Kind)
  /-- Whether a class is shown after the class that it is declared in. -/
  | inside (symbol : Option SymbolId) (outer : TypeId) : Lookup Bool
  | naming (depth : Nat) (symbol : Option SymbolId) (qualified : Bool) : Lookup Naming
  | qualified (depth : Nat) (symbol : Option SymbolId) (otherwise : String) : Lookup String
  | symbol (symbol : Option SymbolId) : Lookup String
  | dimensions (depth : Nat) (ty : TypeId) : Lookup (List (Path × Option SymbolId) × TypeId)
  | dimension (dimension : Path × Option SymbolId) : Lookup String
  /-- The upper bound of a wildcard's formal, in verbose texts only. -/
  | formalBound (depth : Nat) (options : DisplayOptions) (ty : TypeId) : Lookup (Option TypeId)

def Lookup.run {β : Type} : Lookup β → Run β
  | record ty => do
    let data ← typeData ty
    return (data.symbol, data.kind.shown)
  | inside sym? outer => do
    if ← isMemberOfType sym? then return (← kindOf outer).tag = .classType else return false
  | naming _ none _ => return .text "<none>"
  | naming depth (some sym) full => do
    let data ← symbolData sym
    if !data.name.isEmpty then
      if full then return .text (← qualifiedName depth sym) else return .text data.name
    else if data.flags.has .compound then return .intersection
    else return .anonymous sym (← described? data)
  | qualified depth sym? otherwise => qualifiedText depth sym? otherwise
  | symbol sym? => symbolText sym?
  | dimensions depth ty => RegionTypes.dimensions depth ty
  | dimension dim => dimensionText dim
  | formalBound depth options ty => do
    if options.verbose then
      match (← wildcard? ty).bind WildcardInfo.formal with
      | none => return none
      | some formal => upperBound depth formal
    else return none

/-- What rendering asks. -/
inductive Question : Type → Type 1
  | read {β : Type} (lookup : Lookup β) : Question β
  | tooDeep {β : Type} : Question β
  | supertype (ty : TypeId) : Question (Option TypeId)
  | interfaces (ty : TypeId) : Question (List TypeId)
  | typeArguments (depth : Nat) (ty : TypeId) : Question (List TypeId)
  | regionArguments (depth : Nat) (ty : TypeId) : Question (List Path)
  | effectArguments (depth : Nat) (ty : TypeId) : Question (List Summary)

/-- Asks the question. -/
def Question.ask (load : Loader) ⦃β : Type⦄ : Question β → Run β
  | read lookup => lookup.run
  | tooDeep => Run.tooDeep
  | supertype ty => RegionTypes.supertype load ty
  | interfaces ty => RegionTypes.interfaces load ty
  | typeArguments depth ty => RegionTypes.typeArguments load depth ty
  | regionArguments depth ty => RegionTypes.regionArguments load depth ty
  | effectArguments depth ty => RegionTypes.effectArguments load depth ty

/-! ### The text of a type

`put` is how a question gets its answer. -/

namespace Rendering

section Parts

variable {m : Type → Type u} [Monad m] (put : ⦃β : Type⦄ → Question β → m β) (depth : Nat)
  (options : DisplayOptions) (go : DisplayOptions → TypeId → m String) (ty : TypeId)

/-- Types joined by commas. -/
def types (types : List TypeId) : m String := do
  return ",".intercalate (← types.mapM (go options))

/-- The name of a class from what it is made of. -/
def name : Naming → m String
  | .text name => return name
  | .intersection => do
    let first ← match ← put (.supertype ty) with
      | some t => go options t
      | none => pure ""
    let rest ← (← put (.interfaces ty)).mapM (go options)
    return first ++ String.join (rest.map ("&" ++ ·))
  | .anonymous sym described => do
    let description ← match described with
      | some t => do pure (" " ++ (← go options t))
      | none => pure ""
    return "<anonymous" ++ description ++ ">" ++ if options.verbose then toString sym.index else ""

/-- The name of a class after its enclosing class. -/
def head (symbol : Option SymbolId) (outer : TypeId) : m String := do
  if ← put (.read (.inside symbol outer)) then
    let enclosing ← go options outer
    return enclosing ++ "." ++ (← name put options go ty (← put (.read (.naming depth symbol false))))
  else name put options go ty (← put (.read (.naming depth symbol true)))

/-- A class type from its name and its arguments. -/
def bracketed (head : String) (inner : List TypeId) (regions : List Path) (effects : List Summary) :
    m String := do
  if inner.isEmpty && regions.isEmpty && effects.isEmpty then return head
  else
    let text ← types options go inner
    return head ++ "<" ++
      sections [text, joined Path.text regions, joined Summary.text effects]
        [!inner.isEmpty, !regions.isEmpty, !effects.isEmpty] ++ ">"

/-- A class type after its name. -/
def arguments (head : String) : m String := do
  let inner ← put (.typeArguments depth ty)
  if options.printRegions then
    let regions ← put (.regionArguments depth ty)
    bracketed options go head inner regions (← put (.effectArguments depth ty))
  else bracketed options go head inner [] []

def array (info : ArrayInfo) : m String := do
  if options.printRegions then
    let found ← put (.read (.dimensions depth info.elem))
    let inner ← go options found.2
    let texts ← ((info.region, info.indexVar) :: found.1).mapM fun dim => put (.read (.dimension dim))
    return inner ++ String.join texts
  else return (← go options info.elem) ++ "[]"

/-- The bound of a wildcard's formal. -/
def formal : m String := do
  match ← put (.read (.formalBound depth options ty)) with
  | none => return ""
  | some bound => return "\x7b:" ++ (← go { options with verbose := false } bound) ++ ":\x7d"

def wildcard (info : WildcardInfo) : m String := do
  let bound ← if info.kind = .unbounded then pure "" else go options info.bound
  return info.kind.text ++ bound ++ (← formal put depth options go ty)

/-- The text of a type of some kind, where `go` is about the types inside. -/
def step (symbol : Option SymbolId) : Kind → m String
  | .primitive _ | .void | .missing | .bottom => put (.read (.symbol symbol))
  | .package => put (.read (.qualified depth symbol "<none>"))
  | .classType info => do
    arguments put depth options go ty (← head put depth options go ty symbol info.outer)
  | .error _ => put (.read (.qualified depth symbol "<any>"))
  | .array info => array put depth options go info
  | .method info => do
    return "(" ++ (← types options go info.params) ++ ")" ++ (← go options info.result)
  | .forAll info => do
    let vars ← types options go info.typeVars
    return "<" ++
      sections [vars, "region " ++ joined Path.text info.regionVars, joined Summary.text info.effectVars]
        [!info.typeVars.isEmpty, !info.regionVars.isEmpty, !info.effectVars.isEmpty] ++ ">" ++
      (← go options info.body)
  | .typeVar info => do
    return (← put (.read (.symbol symbol))) ++ (if options.verbose then toString ty.index else "") ++
      if options.printRegions && !info.regions.isEmpty then "<" ++ joined Path.text info.regions ++ ">"
      else ""
  | .captured _ wildcard => do
    return s!"capture#{ty.index % captureModulus} of " ++ (← go options wildcard)
  | .wildcard info => wildcard put depth options go ty info
  | .placeholder info => match info.solution with
    | some solution => go options solution
    | none => do return (← go options info.origin) ++ "?"

/-- The text of a type. -/
def text : Nat → DisplayOptions → TypeId → m String
  | 0, _, _ => put .tooDeep
  | depth + 1, options, ty => do
    let record ← put (.read (.record ty))
    step put depth options (text depth) ty record.1 record.2

end Parts

end Rendering

def render (load : Loader) (depth : Nat) (options : DisplayOptions) (ty : TypeId) : Run String :=
  Rendering.text (Question.ask load) depth options ty

variable (load : Loader) (depth : Nat)

def display (ty : TypeId) : Run String := do render load depth (← storeOptions) ty

/-- Ends the run because of a type.  The type is rendered under the options of this moment, also when
rendering it changes them. -/
def violationAt {α : Type} (before : String) (ty : TypeId) (after : String) : Run α := do
  let options ← storeOptions
  violation do return before ++ "`" ++ (← render load depth options ty) ++ "`" ++ after

def renderList (types : List TypeId) : Run String := do
  return ",".intercalate (← types.mapM (display load depth))

/-- The last parameter of a method of variable arity: an array stands for its elements. -/
def renderLastArg (ty : TypeId) : Run String := do
  match ← kindOf ty with
  | .array info => return (← display load depth info.elem) ++ "..."
  | _ => display load depth ty

def renderArgTypes (ty : TypeId) (varargs : Bool) : Run String := do
  let params ← parameterTypes depth ty
  match params.getLast? with
  | none => renderList load depth params
  | some last =>
    if varargs then
      let initial ← params.dropLast.mapM (display load depth)
      let final ← renderLastArg load depth last
      return String.join (initial.map (· ++ ",")) ++ final
    else renderList load depth params

end RegionTypes
