import RegionTypes.Store.Equality
import RegionTypes.Store.Update

/-!
# Inquiry

Asking a store the questions of `Query`.

* `inquire` — the answer to one question.
* `inspect` — the answers to a fixed list of questions, asked one after the other, and the text of
  the type.
-/

namespace RegionTypes

open Run

variable (load : Loader) (depth : Nat)

def inquire (ty : TypeId) : Query → Run Answer
  | .tag => return .tag (← kindOf ty).tag
  | .modelKind => return .model (← kindOf ty).model
  | .asElement => return .symbol (← typeData ty).symbol
  | .isErased => return .truth (← typeData ty).erased
  | .constValue => return .literal (← typeData ty).literal
  | .isCompound => return .truth (← isCompound ty)
  | .cellType => return .type (← cellType ty)
  | .typeHash => return .count (← typeHash depth ty).toNat
  | .typeArguments => return .types (← typeArguments load depth ty)
  | .regionArguments => return .regions (← regionArguments load depth ty)
  | .effectArguments => return .effects (← effectArguments load depth ty)
  | .enclosingType => return .type (← enclosingType depth ty)
  | .parameterTypes => return .types (← parameterTypes depth ty)
  | .returnType => return .type (← returnType depth ty)
  | .thrownTypes => return .types (← thrownTypes depth ty)
  | .supertype => return .type (← supertype load ty)
  | .interfaces => return .types (← interfaces load ty)
  | .ownerRegion => return .region (← ownerRegion load depth ty)
  | .allTypeParams => return .types (← allTypeParams load depth ty)
  | .allRegionParams => return .regions (← allRegionParams load depth ty)
  | .allEffectParams => return .effects (← allEffectParams load depth ty)
  | .isPrimitive => return .truth (← kindOf ty).tag.isPrimitive
  | .isErroneous => return .truth (← isErroneous load depth ty)
  | .isParameterized => return .truth (← isParameterized load depth ty)
  | .hasRegionParams => return .truth (← hasRegionParams load depth ty)
  | .hasEffectParams => return .truth (← hasEffectParams load depth ty)
  | .isRaw => return .truth (← isRaw load depth ty)
  | .isInterface => return .truth (← isInterface load ty)
  | .isSuperBound => return .truth (← isSuperBound ty)
  | .isExtendsBound => return .truth (← isExtendsBound ty)
  | .isUnbound => return .truth (← isUnbound ty)
  | .extendsBound => return .type (← extendsBound ty)
  | .superBound => return .type (← superBound ty)
  | .removeBounds => return .type (some (← removeBounds ty))
  | .upperBound => return .type (← upperBound depth ty)
  | .lowerBound => return .type (← lowerBound ty)
  | .baseType => return .type (some (← baseType depth ty))
  | .isTrue => return .truth (← isTrue ty)
  | .isFalse => return .truth (← isFalse ty)
  | .tryAsMethodType => return .type (← methodType? depth ty)
  | .typeVariables => return .types (← typeVariables ty)
  | .effectVariables => return .effects (← effectVariables ty)
  | .callActuals => return .actuals (← callActuals depth ty)
  | .freeTypeVars => return .types (← freeTypeVars load depth ty)
  | .stringValue => return .text (← stringValue load depth ty)
  | .typeVarBound => return .type (some (← typeVarBound load depth ty))
  | .asMethodType => return .type (some (← asMethodType load depth ty))

def inspect (ty : TypeId) : Run Answer := do
  let answers ← Query.inspected.mapM fun query => do return (query, ← inquire load depth ty query)
  return .inspection answers (← display load depth ty)

end RegionTypes
