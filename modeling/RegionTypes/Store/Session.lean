import RegionTypes.Log.Filter
import RegionTypes.Store.Basic
import RegionTypes.Store.Error

/-!
# Sessions

A **session** is a store at work: the store itself, the names that steps have given to its types and
symbols, and a trace of what happened.

* `Answer` — what a step answers.
* `TraceEntry` — what the trace notes: log events, and the start, the steps and the end of
  completers.
* `Run` — a computation on a session that may come to a stop.  The session survives a stop, so that
  the trace up to it can be shown.
* `Run.violation` — the stop for broken invariants.  Its detail is worked out once for the log, if
  anybody reads it there, and once more for the message, since working it out may load classes.
-/

namespace RegionTypes

/-- What a mapping has to tell besides its result. -/
inductive MappingReport where
  /-- The types a table was applied to, in order. -/
  | table (visited : List TypeId)
  | subst (isEmpty : Bool)
  deriving DecidableEq, Repr

structure KeyReport where
  types : List TypeId
  distinct : Nat
  /-- For each key the position of the first equal one. -/
  first : List Nat
  deriving DecidableEq, Repr

/-- What a step answers. -/
inductive Answer where
  | nothing
  | truth (value : Bool)
  | count (value : Nat)
  | text (value : String)
  | type (value : Option TypeId)
  | types (value : List TypeId)
  | symbol (value : Option SymbolId)
  | declared (value : SymbolId)
  | region (value : Path)
  | regions (value : List Path)
  | effects (value : List Summary)
  | literal (value : Option Literal)
  | tag (value : Tag)
  | model (value : ModelKind)
  | actuals (value : CallActuals)
  | options (value : DisplayOptions)
  | wellKnown (value : List (String × TypeId))
  | symbolInfo (value : Symbol)
  | data (value : TypeData)
  | mapped (type : TypeId) (report : MappingReport)
  /-- A list and whether it is the very list that was given. -/
  | mappedList (types : List TypeId) (same : Bool) (report : Option MappingReport)
  | keys (value : KeyReport)
  | visited (label : String) (type : TypeId) (arg : Int)
  | inspection (answers : List (Query × Answer)) (text : String)

abbrev Outcome := Except Failure Answer

inductive TraceEntry where
  | log (event : Log.Event)
  | began (symbol : SymbolId)
  | stepped (outcome : Outcome)
  | ended (symbol : SymbolId) (succeeded : Bool)

/-- The names that steps have given, the latest first. -/
structure Names where
  types : List (String × TypeId)
  symbols : List (String × SymbolId)

structure Session where
  store : Store
  names : Names
  /-- Which log events anybody reads. -/
  audience : Log.Filter
  trace : List TraceEntry

def Session.initial (options : DisplayOptions) (audience : Log.Filter) : Session where
  store := Store.initial options
  names := ⟨WellKnown.names, []⟩
  audience := audience
  trace := []

abbrev Run := EStateM Stop Session

namespace Run

def note (entry : TraceEntry) : Run Unit :=
  modify fun s => { s with trace := entry :: s.trace }

/-- Reports an event to the log, if anybody reads it. -/
def log (level : Log.Level) (target : String) (fields : List (String × String)) : Run Unit := do
  if (← get).audience.admits level target then note (.log ⟨level, target, fields⟩)

def modifyStore (f : Store → Store) : Run Unit := modify fun s => { s with store := f s.store }

def tooDeep {α : Type} : Run α := throw .tooDeep

def violation {α : Type} (detail : Run String) : Run α := do
  if (← get).audience.admits .error Log.typesTarget then
    let text ← detail
    note (.log ⟨.error, Log.typesTarget,
      [("message", "internal invariant violated"), ("message", text)]⟩)
  let text ← detail
  throw (.violation text)

def typeData (ty : TypeId) : Run TypeData := do
  match (← get).store.type? ty with
  | some data => pure data
  | none => violation (pure (ty.text ++ " does not belong to this store"))

def symbolData (sym : SymbolId) : Run Symbol := do
  match (← get).store.symbol? sym with
  | some symbol => pure symbol
  | none => violation (pure (sym.text ++ " does not belong to this store"))

def kindOf (ty : TypeId) : Run Kind := do return (← typeData ty).kind

def pushType (data : TypeData) : Run TypeId :=
  modifyGet fun s =>
    let (ty, store) := s.store.allocType data
    (ty, { s with store })

def pushSymbol (symbol : Symbol) : Run SymbolId :=
  modifyGet fun s =>
    let (sym, store) := s.store.allocSymbol symbol
    (sym, { s with store })

def updateKind (ty : TypeId) (f : Kind → Kind) : Run Unit :=
  modifyStore (·.updateType ty fun data => { data with kind := f data.kind })

def updateSymbol (sym : SymbolId) (f : Symbol → Symbol) : Run Unit := do
  let _ ← symbolData sym
  modifyStore (·.updateSymbol sym f)

def symbolType (sym : SymbolId) : Run (Option TypeId) := do return (← symbolData sym).type

/-- The canonical type of the symbol a type has, if it has both. -/
def canonicalType (symbol : Option SymbolId) : Run (Option TypeId) :=
  match symbol with
  | none => pure none
  | some sym => symbolType sym

def storeOptions : Run DisplayOptions := do return (← get).store.options

end Run

end RegionTypes
