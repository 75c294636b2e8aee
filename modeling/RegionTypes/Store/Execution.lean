import RegionTypes.Store.Inquiry
import RegionTypes.Store.Visiting

/-!
# Executing commands

* `execute` — carries out one command, given a loader.
* `Session.bind` — gives a name to what a step answered.
-/

namespace RegionTypes

open Run

/-! ### Names -/

def lookupType : TypeRef → Run TypeId
  | .handle ty => pure ty
  | .named label => do
    match (← get).names.types.lookup label with
    | some ty => return ty
    | none => throw (.unknownName label)

def lookupSymbol : SymbolRef → Run SymbolId
  | .handle sym => pure sym
  | .named label => do
    match (← get).names.symbols.lookup label with
    | some sym => return sym
    | none => throw (.unknownName label)

def lookupTypes (refs : List TypeRef) : Run (List TypeId) := refs.mapM lookupType

def lookupType? : Option TypeRef → Run (Option TypeId)
  | none => pure none
  | some ref => do return some (← lookupType ref)

def lookupSymbol? : Option SymbolRef → Run (Option SymbolId)
  | none => pure none
  | some ref => do return some (← lookupSymbol ref)

namespace Names

def bindType (label : String) (ty : TypeId) (names : Names) : Names :=
  { names with types := (label, ty) :: names.types }

def bindSymbol (label : String) (sym : SymbolId) (names : Names) : Names :=
  { names with symbols := (label, sym) :: names.symbols }

def bindTypes (label : String) (types : List TypeId) (names : Names) : Names :=
  types.zipIdx.foldl (fun names (ty, i) => names.bindType (label ++ "." ++ toString i) ty) names

end Names

/-- Gives a name to what a step answered.  A declared symbol shares its name with its type. -/
def Session.bind (label : String) (answer : Answer) (s : Session) : Session :=
  match answer with
  | .type (some ty) | .mapped ty _ => { s with names := s.names.bindType label ty }
  | .types types => { s with names := s.names.bindTypes label types }
  | .symbol (some sym) => { s with names := s.names.bindSymbol label sym }
  | .declared sym =>
    let names := s.names.bindSymbol label sym
    match (s.store.symbol? sym).bind Symbol.type with
    | some ty => { s with names := names.bindType label ty }
    | none => { s with names }
  | _ => s

/-! ### Commands -/

def answering (action : Run Answer) : Run Outcome := do return .ok (← action)

def making (action : Run TypeId) : Run Outcome := do return .ok (.type (some (← action)))

/-- A step that has nothing to tell unless it fails. -/
def attempting (action : Run (Except TypeError Unit)) : Run Outcome := do
  match ← action with
  | .ok () => return .ok .nothing
  | .error e => return .error (.type e)

def chosenOptions : Option DisplayOptions → Run DisplayOptions
  | some options => pure options
  | none => storeOptions

def runMapping (load : Loader) (depth : Nat) (ty : TypeId) : MappingSpec → Run Answer
  | .table sources targets deep => do
    let table : Table := ⟨(← lookupTypes sources).zip (← lookupTypes targets), deep⟩
    let (image, visited) ← (mapType load depth (table.apply load depth) ty).run []
    return .mapped image (.table visited.reverse)
  | .subst sources targets => do
    let s := Substitution.ofLists (← lookupTypes sources) (← lookupTypes targets)
    let image ← (mapType load depth (stateless (substitute load depth s)) ty).run' ()
    return .mapped image (.subst s.isEmpty)

def runListMapping (load : Loader) (depth : Nat) (types : List TypeId) : MappingSpec → Run Answer
  | .table sources targets deep => do
    let table : Table := ⟨(← lookupTypes sources).zip (← lookupTypes targets), deep⟩
    let ((images, changed), visited) ← (mapList (table.apply load depth) types).run []
    return .mappedList images (!changed) (some (.table visited.reverse))
  | .subst sources targets => do
    let s := Substitution.ofLists (← lookupTypes sources) (← lookupTypes targets)
    let (images, changed) ← substituteList load depth s types
    return .mappedList images (!changed) (some (.subst s.isEmpty))

def execute (load : Loader) (depth : Nat) : Command → Run Outcome
  | .wellKnown => answering (return .wellKnown WellKnown.names)
  | .typeCount => answering do return .count (← get).store.types.size
  | .displayOptions => answering do return .options (← storeOptions)
  | .setDisplayOptions options => answering do
    modifyStore fun s => { s with options }
    return .nothing
  | .describeStore => answering do return .text (← get).store.describe
  | .newSymbol kind name owner flags => answering do
    return .declared (← newSymbol kind name (← lookupSymbol? owner) flags)
  | .declareClass name owner flags outer => answering do
    return .declared (← declareClass name (← lookupSymbol? owner) flags (← lookupType? outer))
  | .declarePackage name owner => answering do
    return .declared (← declarePackage name (← lookupSymbol? owner))
  | .symbolInfo symbol => answering do
    return .symbolInfo (← symbolData (← lookupSymbol symbol))
  | .describeSymbol symbol => answering do
    return .text (← symbolData (← lookupSymbol symbol)).describe
  | .symbolType symbol => answering do return .type (← symbolType (← lookupSymbol symbol))
  | .symbolName symbol => answering do
    return .text (← symbolData (← lookupSymbol symbol)).name
  | .qualifiedName symbol => answering do
    return .text (← qualifiedName depth (← lookupSymbol symbol))
  | .symbolFlags symbol => answering do
    return .count (← symbolFlags load (← lookupSymbol symbol)).bits
  | .setSymbolFlags symbol flags => answering do
    updateSymbol (← lookupSymbol symbol) fun s => { s with flags }
    return .nothing
  | .enterMember owner member => answering do
    let member ← lookupSymbol member
    updateSymbol (← lookupSymbol owner) fun s => { s with members := s.members.enter member }
    return .nothing
  | .setCompleter symbol script propagate failure => answering do
    updateSymbol (← lookupSymbol symbol) fun s =>
      { s with completer := some ⟨script, propagate, failure⟩ }
    return .nothing
  | .completeSymbol symbol => do
    match ← load (← lookupSymbol symbol) with
    | .ok () => return .ok .nothing
    | .error e => return .error (.completion e)
  | .complete type => do
    match ← complete load depth (← lookupType type) with
    | .ok () => return .ok .nothing
    | .error e => return .error (.type (.completion e))
  | .emit level => answering do
    log level Log.configTarget [("message", "hello")]
    return .nothing
  | .defineClass type typeParams regionParams effectParams supertype interfaces => do
    let ty ← lookupType type
    let typeParams ← lookupTypes typeParams
    let supertype ← lookupType? supertype
    let interfaces ← lookupTypes interfaces
    attempting (defineClass load depth ty
      { typeParams, regionParams, effectParams, supertype, interfaces })
  | .classType symbol outer typeArgs regionArgs effectArgs cellType erased => making do
    let sym ← lookupSymbol symbol
    let outer ← lookupType? outer
    let typeArgs ← lookupTypes typeArgs
    let cellType ← lookupType? cellType
    useClass sym { outer, typeArgs, regionArgs, effectArgs, cellType, erased }
  | .setCellType type cell => answering do
    setCellType (← lookupType type) (← lookupType? cell)
    return .nothing
  | .arrayType elem region indexVar => making do
    arrayType (← lookupType elem) region (← lookupSymbol? indexVar)
  | .methodType params result thrown => making do
    methodType (← lookupTypes params) (← lookupType result) (← lookupTypes thrown)
  | .setThrown type thrown => answering do
    setThrown load depth (← lookupType type) (← lookupTypes thrown)
    return .nothing
  | .recordActuals type types regions effects => do
    let ty ← lookupType type
    let types ← lookupTypes types
    attempting (recordActuals load depth ty { types, regions, effects })
  | .forAll typeVars regionVars effectVars body => making do
    let typeVars ← lookupTypes typeVars
    quantify { typeVars, regionVars, effectVars, body := ← lookupType body }
  | .newTypeVar name owner lower => making do
    newTypeVar name (← lookupSymbol? owner) ((← lookupType? lower).getD WellKnown.bottom)
  | .typeVar symbol bound lower regionParams regionArgs prototype => making do
    let sym ← lookupSymbol symbol
    let bound ← lookupType? bound
    let lower ← lookupType? lower
    let prototype ← lookupType? prototype
    typeVar sym
      { bound, lower := lower.getD WellKnown.bottom, regionParams, regionArgs, prototype }
  | .copyTypeVar type regionArgs => making do
    copyTypeVar load depth (← lookupType type) regionArgs
  | .captured name owner upper lower wildcard => making do
    captured name (← lookupSymbol? owner) (← lookupType upper)
      ((← lookupType? lower).getD WellKnown.bottom) (← lookupType wildcard)
  | .wildcard type kind formal => making do
    wildcard (← lookupType type) kind (← lookupType? formal)
  | .placeholder origin => making do placeholder (← lookupType origin)
  | .errorType => making (errorType none)
  | .errorTypeForClass symbol => making do damage (← lookupSymbol symbol)
  | .errorTypeNamed name container => making do
    errorTypeNamed name (← lookupSymbol? container)
  | .constType type value => making do constType load depth (← lookupType type) value
  | .setUpperBound type bound => attempting do
    setUpperBound load depth (← lookupType type) (← lookupType bound)
  | .addLowerBound type bound => attempting do
    addLowerBound load depth (← lookupType type) (← lookupType bound)
  | .addUpperBound type bound => attempting do
    addUpperBound load depth (← lookupType type) (← lookupType bound)
  | .setInstantiation type solution => attempting do
    setInstantiation load depth (← lookupType type) (← lookupType solution)
  | .withTypeVar type formal => making do setFormal (← lookupType type) (← lookupType formal)
  | .display type options => answering do
    let ty ← lookupType type
    return .text (← render load depth (← chosenOptions options) ty)
  | .displayHandle type options => answering do
    let ty ← lookupType type
    return .text (ty.text ++ " `" ++ (← render load depth (← chosenOptions options) ty) ++ "`")
  | .displayList types => answering do
    return .text (← renderList load depth (← lookupTypes types))
  | .displayArgTypes type varargs => answering do
    return .text (← renderArgTypes load depth (← lookupType type) varargs)
  | .typesEqual a b => answering do
    return .truth (← typesEqual depth (← lookupType a) (← lookupType b))
  | .contains type elem => answering do
    return .truth (← contains load depth (← lookupType type) (← lookupType elem))
  | .containsList types elem => answering do
    return .truth (← containsList load depth (← lookupTypes types) (← lookupType elem))
  | .containsSome type elems => answering do
    return .truth (← containsSome load depth (← lookupType type) (← lookupTypes elems))
  | .isErroneousList types => answering do
    return .truth (← isErroneousList load depth (← lookupTypes types))
  | .removeBoundsList types => answering do
    return .types (← (← lookupTypes types).mapM removeBounds)
  | .baseTypes types => answering do
    let (bases, changed) ← baseTypes depth (← lookupTypes types)
    return .mappedList bases (!changed) none
  | .keys types => answering do return .keys (← keyReport depth (← lookupTypes types))
  | .map type mapping => answering do
    runMapping load depth (← lookupType type) mapping
  | .mapList types mapping => answering do
    runListMapping load depth (← lookupTypes types) mapping
  | .subst type sources targets => making do
    let ty ← lookupType type
    substitute load depth
      (Substitution.ofLists (← lookupTypes sources) (← lookupTypes targets)) ty
  | .substList types sources targets => answering do
    let types ← lookupTypes types
    let (images, changed) ← substituteList load depth
      (Substitution.ofLists (← lookupTypes sources) (← lookupTypes targets)) types
    return .mappedList images (!changed) none
  | .accept type visitor arg => answering do
    let ty ← lookupType type
    return .visited (← accept visitor ty) ty arg
  | .ask query type => answering do inquire load depth (← lookupType type) query
  | .data type => answering do return .data (← typeData (← lookupType type))
  | .inspect type => answering do inspect load depth (← lookupType type)

end RegionTypes
