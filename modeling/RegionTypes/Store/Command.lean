import RegionTypes.Log.Level
import RegionTypes.Store.Flags
import RegionTypes.Type.Kind
import RegionTypes.Type.Options

/-!
# Commands

The language in which a type store is worked with.  A **command** asks for one operation; a **step**
is a command whose result may be given a name; a **script** is a list of steps.

Scripts are data because a store holds them: the declaration of a class may be supplied by a
**completer**, a script that runs when the class is first asked about.  So a completer can do
whatever any user of the store can do, other completers included.

* `TypeRef`, `SymbolRef` — a handle, or a name that an earlier step gave to one.
* `Query` — the questions about a single type.
* `Command` — everything else, with `Command.ask` for the questions.
* `Completer` — the script of a completer and how it ends.
-/

namespace RegionTypes

inductive SymbolKind where
  | package | type | var | method
  /-- A class whose declaration could not be loaded. -/
  | error
  deriving DecidableEq, Repr

def SymbolKind.name : SymbolKind → String
  | package => "Package"
  | type => "Type"
  | var => "Var"
  | method => "Method"
  | error => "Error"

/-- A type as a command names it. -/
inductive TypeRef where
  | handle (ty : TypeId)
  | named (label : String)
  deriving DecidableEq, Repr

/-- A symbol as a command names it. -/
inductive SymbolRef where
  | handle (sym : SymbolId)
  | named (label : String)
  deriving DecidableEq, Repr

inductive Query where
  | tag | modelKind | asElement | isErased | constValue | isCompound | cellType | typeHash
  | typeArguments | regionArguments | effectArguments | enclosingType | parameterTypes | returnType
  | thrownTypes | supertype | interfaces | ownerRegion | allTypeParams | allRegionParams
  | allEffectParams | isPrimitive | isErroneous | isParameterized | hasRegionParams
  | hasEffectParams | isRaw | isInterface | isSuperBound | isExtendsBound | isUnbound
  | extendsBound | superBound | removeBounds | upperBound | lowerBound | baseType | isTrue | isFalse
  | tryAsMethodType | typeVariables | effectVariables | callActuals | freeTypeVars
  | stringValue | typeVarBound | asMethodType
  deriving DecidableEq, Repr

/-- The questions an inspection asks, in the order in which it asks them.  The order matters: an
answer may load a class and fill a cache. -/
def Query.inspected : List Query :=
  [tag, modelKind, asElement, isErased, constValue, isCompound, cellType, typeHash, typeArguments,
    regionArguments, effectArguments, enclosingType, parameterTypes, returnType, thrownTypes,
    supertype, interfaces, ownerRegion, allTypeParams, allRegionParams, allEffectParams,
    isPrimitive, isErroneous, isParameterized, hasRegionParams, hasEffectParams, isRaw, isInterface,
    isSuperBound, isExtendsBound, isUnbound, extendsBound, superBound, removeBounds, upperBound,
    lowerBound, baseType, isTrue, isFalse, tryAsMethodType, typeVariables, effectVariables,
    callActuals, freeTypeVars]

/-- The kinds of visit to a type, one for each variant that a visitor can treat on its own. -/
inductive Visit where
  | type | primitive | classType | errorType | wildcard | array | method | package | typeVar
  | captured | forAll | placeholder | noType | bottom
  deriving DecidableEq, Repr

inductive Visitor where
  /-- Treats every type alike. -/
  | minimal
  /-- Tells classes, variables and errors from the rest. -/
  | describe
  | full
  deriving DecidableEq, Repr

inductive MappingSpec where
  /-- Replaces the types of one list by those of another, in depth if asked to. -/
  | table (sources targets : List TypeRef) (deep : Bool)
  | subst (sources targets : List TypeRef)
  deriving DecidableEq, Repr

inductive Command where
  | wellKnown
  | typeCount
  | displayOptions
  | setDisplayOptions (options : DisplayOptions)
  | describeStore
  /-- A symbol without a type. -/
  | newSymbol (kind : SymbolKind) (name : String) (owner : Option SymbolRef) (flags : Flags)
  /-- A class symbol together with its canonical type. -/
  | declareClass (name : String) (owner : Option SymbolRef) (flags : Flags) (outer : Option TypeRef)
  | declarePackage (name : String) (owner : Option SymbolRef)
  | symbolInfo (symbol : SymbolRef)
  | describeSymbol (symbol : SymbolRef)
  | symbolType (symbol : SymbolRef)
  | symbolName (symbol : SymbolRef)
  | qualifiedName (symbol : SymbolRef)
  | symbolFlags (symbol : SymbolRef)
  | setSymbolFlags (symbol : SymbolRef) (flags : Flags)
  | enterMember (owner member : SymbolRef)
  | setCompleter (symbol : SymbolRef) (script : List (Option String × Command))
      (propagate : Bool) (failure : Option String)
  | completeSymbol (symbol : SymbolRef)
  /-- Loads every class a type mentions. -/
  | complete (type : TypeRef)
  | emit (level : Log.Level)
  /-- Fills in the signature of a canonical class type. -/
  | defineClass (type : TypeRef) (typeParams : List TypeRef) (regionParams : List Path)
      (effectParams : List Summary) (supertype : Option TypeRef) (interfaces : List TypeRef)
  | classType (symbol : SymbolRef) (outer : Option TypeRef) (typeArgs : List TypeRef)
      (regionArgs : List Path) (effectArgs : List Summary) (cellType : Option TypeRef)
      (erased : Bool)
  | setCellType (type : TypeRef) (cellType : Option TypeRef)
  | arrayType (elem : TypeRef) (region : Option Path) (indexVar : Option SymbolRef)
  | methodType (params : List TypeRef) (result : TypeRef) (thrown : List TypeRef)
  | setThrown (type : TypeRef) (thrown : List TypeRef)
  | recordActuals (type : TypeRef) (types : List TypeRef) (regions : List Path)
      (effects : List Summary)
  | forAll (typeVars : List TypeRef) (regionVars : List Path) (effectVars : List Summary)
      (body : TypeRef)
  | newTypeVar (name : String) (owner : Option SymbolRef) (lower : Option TypeRef)
  | typeVar (symbol : SymbolRef) (bound lower : Option TypeRef) (regionParams regionArgs : List Path)
      (prototype : Option TypeRef)
  | copyTypeVar (type : TypeRef) (regionArgs : List Path)
  | captured (name : String) (owner : Option SymbolRef) (upper : TypeRef) (lower : Option TypeRef)
      (wildcard : TypeRef)
  | wildcard (type : TypeRef) (kind : BoundKind) (formal : Option TypeRef)
  | placeholder (origin : TypeRef)
  | errorType
  /-- Damages a class symbol. -/
  | errorTypeForClass (symbol : SymbolRef)
  | errorTypeNamed (name : String) (container : Option SymbolRef)
  | constType (type : TypeRef) (value : Literal)
  | setUpperBound (type bound : TypeRef)
  | addLowerBound (type bound : TypeRef)
  | addUpperBound (type bound : TypeRef)
  | setInstantiation (type solution : TypeRef)
  | withTypeVar (type formal : TypeRef)
  /-- The text of a type; without options, with those of the store. -/
  | display (type : TypeRef) (options : Option DisplayOptions)
  | displayHandle (type : TypeRef) (options : Option DisplayOptions)
  | displayList (types : List TypeRef)
  | displayArgTypes (type : TypeRef) (varargs : Bool)
  | typesEqual (a b : TypeRef)
  | contains (type elem : TypeRef)
  | containsList (types : List TypeRef) (elem : TypeRef)
  | containsSome (type : TypeRef) (elems : List TypeRef)
  | isErroneousList (types : List TypeRef)
  | removeBoundsList (types : List TypeRef)
  | baseTypes (types : List TypeRef)
  | keys (types : List TypeRef)
  | map (type : TypeRef) (mapping : MappingSpec)
  | mapList (types : List TypeRef) (mapping : MappingSpec)
  | subst (type : TypeRef) (sources targets : List TypeRef)
  | substList (types : List TypeRef) (sources targets : List TypeRef)
  | accept (type : TypeRef) (visitor : Visitor) (arg : Int)
  | ask (query : Query) (type : TypeRef)
  /-- What is recorded about a type; loads nothing. -/
  | data (type : TypeRef)
  | inspect (type : TypeRef)

/-- A command whose result may be given a name. -/
abbrev Step := Option String × Command

/-- Supplies the declaration of a symbol when it is first needed. -/
structure Completer where
  script : List Step
  /-- Whether the first step that fails ends the script and makes the completion fail. -/
  propagate : Bool
  /-- The message with which a script that ran to its end fails nevertheless. -/
  failure : Option String

end RegionTypes
