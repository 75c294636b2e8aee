import RegionTypes.Store.Command
import RegionTypes.Text.Quoted

/-!
# The type store

The store owns all types and symbols of one compilation.  It only grows: handles stay valid, and
most fields are either fixed or written once.

* `Symbol` — a declaration, with its canonical type once it has one, and its completer until that
  has run.
* `Store` — types and symbols in order of allocation.
* `Store.initial` — the store with the types every store starts out with.
* `Store.pushType`, `Store.updateType`, `Store.pushSymbol`, `Store.updateSymbol` — the only ways a
  store changes, with a lemma each for what can be looked up afterwards.
-/

namespace RegionTypes

inductive Scope where
  | empty
  | members (symbols : List SymbolId)
  /-- The scope of a class that failed to load: it stays empty. -/
  | error
  deriving DecidableEq, Repr

namespace Scope

def enter (sym : SymbolId) : Scope → Scope
  | empty => members [sym]
  | members syms => members (syms ++ [sym])
  | error => error

def toList : Scope → List SymbolId
  | members syms => syms
  | empty | error => []

def isError : Scope → Bool
  | error => true
  | empty | members _ => false

end Scope

/-- A declaration. -/
structure Symbol where
  name : String
  owner : Option SymbolId
  kind : SymbolKind
  flags : Flags
  type : Option TypeId := none
  /-- What loads the declaration, until it has been started. -/
  completer : Option Completer := none
  completing : Bool := false
  members : Scope := .empty

def Symbol.describe (s : Symbol) : String :=
  let owner := match s.owner with
    | none => "None"
    | some o => "Some(" ++ o.text ++ ")"
  let type := match s.type with
    | none => "None"
    | some t => "Some(" ++ t.text ++ ")"
  "Symbol \x7b name: " ++ Text.quoted s.name ++ ", kind: " ++ s.kind.name ++ ", owner: " ++ owner ++
    ", flags: " ++ s.flags.describe ++ ", ty: " ++ type ++ ", .. \x7d"

/-- All types and symbols of one compilation. -/
structure Store where
  types : Array TypeData
  symbols : Array Symbol
  options : DisplayOptions
  /-- How many completers are running. -/
  inFlight : Nat

/-! ### The types every store starts out with -/

namespace WellKnown

def byte : TypeId := ⟨0⟩
def char : TypeId := ⟨1⟩
def short : TypeId := ⟨2⟩
def int : TypeId := ⟨3⟩
def long : TypeId := ⟨4⟩
def float : TypeId := ⟨5⟩
def double : TypeId := ⟨6⟩
def boolean : TypeId := ⟨7⟩
def void : TypeId := ⟨8⟩
def bottom : TypeId := ⟨9⟩
/-- The missing type, which encloses every top-level class. -/
def missing : TypeId := ⟨10⟩
def error : TypeId := ⟨11⟩

def names : List (String × TypeId) :=
  [("byte", byte), ("char", char), ("short", short), ("int", int), ("long", long), ("float", float),
    ("double", double), ("boolean", boolean), ("void", void), ("bot", bottom), ("none", missing),
    ("error", error)]

/-- The types that have a symbol of the same handle, with the symbols' names. -/
def declared : List (Kind × String) :=
  [(.primitive .byte, "byte"), (.primitive .char, "char"), (.primitive .short, "short"),
    (.primitive .int, "int"), (.primitive .long, "long"), (.primitive .float, "float"),
    (.primitive .double, "double"), (.primitive .boolean, "boolean"), (.void, "void"),
    (.bottom, "<nulltype>")]

end WellKnown

namespace Store

/-- The types of a new store: the declared ones, the missing type and the shared error type. -/
def initialTypes : List TypeData :=
  (WellKnown.declared.zipIdx.map fun (entry, i) => { symbol := some ⟨i⟩, kind := entry.1 }) ++
    [{ symbol := none, kind := .missing },
      { symbol := some ⟨10⟩, kind := .error WellKnown.missing }]

def initialSymbols : List Symbol :=
  (WellKnown.declared.zipIdx.map fun (entry, i) =>
    { name := entry.2, owner := none, kind := .type, flags := .ofList [.publicAccess],
      type := some ⟨i⟩ }) ++
    [{ name := "<any>", owner := none, kind := .error, flags := .synthetic,
       type := some WellKnown.error, members := .error }]

def initial (options : DisplayOptions) : Store where
  types := initialTypes.toArray
  symbols := initialSymbols.toArray
  options := options
  inFlight := 0

def type? (s : Store) (ty : TypeId) : Option TypeData := s.types[ty.index]?

def symbol? (s : Store) (sym : SymbolId) : Option Symbol := s.symbols[sym.index]?

def nextType (s : Store) : TypeId := ⟨s.types.size⟩

def nextSymbol (s : Store) : SymbolId := ⟨s.symbols.size⟩

def pushType (s : Store) (data : TypeData) : Store := { s with types := s.types.push data }

def pushSymbol (s : Store) (symbol : Symbol) : Store := { s with symbols := s.symbols.push symbol }

def allocType (s : Store) (data : TypeData) : TypeId × Store := (s.nextType, s.pushType data)

def allocSymbol (s : Store) (symbol : Symbol) : SymbolId × Store :=
  (s.nextSymbol, s.pushSymbol symbol)

def updateType (s : Store) (ty : TypeId) (f : TypeData → TypeData) : Store :=
  { s with types := s.types.modify ty.index f }

def updateSymbol (s : Store) (sym : SymbolId) (f : Symbol → Symbol) : Store :=
  { s with symbols := s.symbols.modify sym.index f }

/-! ### What can be looked up after a change -/

@[simp] theorem type?_pushType (s : Store) (data : TypeData) (ty : TypeId) :
    (s.pushType data).type? ty = if ty = s.nextType then some data else s.type? ty := by
  obtain ⟨i⟩ := ty
  simp [pushType, type?, nextType, Array.getElem?_push]

@[simp] theorem symbol?_pushSymbol (s : Store) (symbol : Symbol) (sym : SymbolId) :
    (s.pushSymbol symbol).symbol? sym =
      if sym = s.nextSymbol then some symbol else s.symbol? sym := by
  obtain ⟨i⟩ := sym
  simp [pushSymbol, symbol?, nextSymbol, Array.getElem?_push]

@[simp] theorem type?_updateType (s : Store) (a ty : TypeId) (f : TypeData → TypeData) :
    (s.updateType a f).type? ty = if a = ty then (s.type? ty).map f else s.type? ty := by
  obtain ⟨i⟩ := a
  obtain ⟨j⟩ := ty
  simp [updateType, type?, Array.getElem?_modify]

@[simp] theorem symbol?_updateSymbol (s : Store) (a sym : SymbolId) (f : Symbol → Symbol) :
    (s.updateSymbol a f).symbol? sym =
      if a = sym then (s.symbol? sym).map f else s.symbol? sym := by
  obtain ⟨i⟩ := a
  obtain ⟨j⟩ := sym
  simp [updateSymbol, symbol?, Array.getElem?_modify]

@[simp] theorem symbol?_pushType (s : Store) (data : TypeData) (sym : SymbolId) :
    (s.pushType data).symbol? sym = s.symbol? sym := rfl

@[simp] theorem type?_pushSymbol (s : Store) (symbol : Symbol) (ty : TypeId) :
    (s.pushSymbol symbol).type? ty = s.type? ty := rfl

@[simp] theorem symbol?_updateType (s : Store) (a : TypeId) (f : TypeData → TypeData)
    (sym : SymbolId) : (s.updateType a f).symbol? sym = s.symbol? sym := rfl

@[simp] theorem type?_updateSymbol (s : Store) (a : SymbolId) (f : Symbol → Symbol) (ty : TypeId) :
    (s.updateSymbol a f).type? ty = s.type? ty := rfl

def describe (s : Store) : String :=
  s!"TypeStore \x7b types: {s.types.size}, symbols: {s.symbols.size}, options: " ++
    s.options.describe ++ " \x7d"

end Store

end RegionTypes
