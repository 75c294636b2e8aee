import RegionTypes.Store.Session

/-!
# Completion

A class is loaded when it is first asked about: its completer is detached from the symbol and run.
While it runs, questions about the symbol find nothing to load, answer with empty lists and leave no
trace in the caches, so that the completer can still define the class.

The questions take a **loader** as an argument: how to complete a symbol.  What a completer's script
does is thus left open here, and each question can be understood for any loader.

* `completeSymbol` — runs a symbol's completer, if it still has one.
* `completeLazily` — the same from inside a question, which goes on if loading fails.
* `Slot` — one of the lists of a class type.
* `declaredList` — a list that loading supplies.  A list that stays unset after loading is settled as
  empty, unless the class is being loaded at the moment.
* `remember` — keeps a derived list, unless some completer is running.
-/

namespace RegionTypes

abbrev Loader := SymbolId → Run (Except CompletionError Unit)

open Run

/-- Runs the symbol's completer, if it still has one.  The completer is detached before it runs. -/
def completeSymbol (start : Completer → SymbolId → Run (Except CompletionError Unit)) : Loader :=
  fun sym => do
    let symbol ← symbolData sym
    match symbol.completer with
    | none => return .ok ()
    | some completer =>
      updateSymbol sym fun s => { s with completer := none }
      log .debug Log.typesTarget [("message", "completing symbol"), ("symbol", symbol.name)]
      updateSymbol sym fun s => { s with completing := true }
      modifyStore fun s => { s with inFlight := s.inFlight + 1 }
      let result ← start completer sym
      modifyStore fun s => { s with inFlight := s.inFlight - 1 }
      updateSymbol sym fun s => { s with completing := false }
      return result

/-- Completes a symbol on the way to something else: a failure is reported to the log only. -/
def completeLazily (load : Loader) (symbol : Option SymbolId) : Run Unit :=
  match symbol with
  | none => pure ()
  | some sym => do
    match ← load sym with
    | .ok () => pure ()
    | .error e =>
      log .warn Log.typesTarget
        [("message", "symbol completion failed"), ("symbol", e.symbol), ("error", e.message)]

/-! ### The lists of a class type -/

/-- One of the lists that a class type holds. -/
structure Slot (β : Type) where
  read : ClassInfo → Option (List β)
  write : List β → ClassInfo → ClassInfo

namespace Slot

def typeArgs : Slot TypeId := ⟨(·.typeArgs), fun l c => { c with typeArgs := some l }⟩
def regionArgs : Slot Path := ⟨(·.regionArgs), fun l c => { c with regionArgs := some l }⟩
def effectArgs : Slot Summary := ⟨(·.effectArgs), fun l c => { c with effectArgs := some l }⟩
def resolvedRegions : Slot Path :=
  ⟨(·.resolvedRegions), fun l c => { c with resolvedRegions := some l }⟩
def allTypeParams : Slot TypeId :=
  ⟨(·.allTypeParams), fun l c => { c with allTypeParams := some l }⟩
def allRegionParams : Slot Path :=
  ⟨(·.allRegionParams), fun l c => { c with allRegionParams := some l }⟩
def allEffectParams : Slot Summary :=
  ⟨(·.allEffectParams), fun l c => { c with allEffectParams := some l }⟩

variable {β : Type}

/-- The list that a class type holds now; nothing for other types. -/
def current (slot : Slot β) (ty : TypeId) : Run (Option (List β)) := do
  match (← kindOf ty).class? with
  | some info => return slot.read info
  | none => return none

def fill (slot : Slot β) (ty : TypeId) (list : List β) : Run Unit :=
  updateKind ty (·.mapClass (slot.write list))

end Slot

def isCompleting (symbol : Option SymbolId) : Run Bool :=
  match symbol with
  | none => pure false
  | some sym => do return (← symbolData sym).completing

/-- A list that loading the class supplies, loading it first when the list is unset. -/
def declaredList {β : Type} (load : Loader) (slot : Slot β) (ty : TypeId)
    (symbol : Option SymbolId) : Run (List β) := do
  match ← slot.current ty with
  | some list => return list
  | none =>
    completeLazily load symbol
    match ← slot.current ty with
    | some list => return list
    | none =>
      if ← isCompleting symbol then return []
      else
        slot.fill ty []
        return []

/-- Keeps a derived list unless some completer is running; what was kept first stays. -/
def remember {β : Type} (slot : Slot β) (ty : TypeId) (list : List β) : Run (List β) := do
  if (← get).store.inFlight = 0 then
    match ← slot.current ty with
    | some kept => return kept
    | none =>
      slot.fill ty list
      return list
  else return list

end RegionTypes
