import IrStream.Flags.Packing
import IrStream.Tree.Code

/-!
The attributes a tree node carries, and which of them each kind streams.
One record holds every attribute any kind can carry; `TreeFlags.groups`
says, per code, which tables are packed into the node's flag word and in
what order. An attribute a kind does not stream stays at its default.
-/

namespace IrStream

/-- Boolean and small-enum attributes of a tree node. `visibility` and `builtin_class` take two bits, `tls_model` three. -/
structure TreeFlags where
  sideEffects : Bool := false
  constant : Bool := false
  addressable : Bool := false
  volatile : Bool := false
  readonly : Bool := false
  isPublic : Bool := false
  isStatic : Bool := false
  unsigned : Bool := false
  nothrow : Bool := false
  used : Bool := false
  isPrivate : Bool := false
  isProtected : Bool := false
  deprecated : Bool := false
  asmWritten : Bool := false
  overflow : Bool := false
  noWarning : Bool := false
  tailCall : Bool := false
  returnSlotOpt : Bool := false
  occursInAbnormalPhi : Bool := false
  isDefaultDef : Bool := false
  inFreeList : Bool := false
  stringFlag : Bool := false
  noForceBlk : Bool := false
  needsConstructing : Bool := false
  transparentAggr : Bool := false
  restrict : Bool := false
  packed : Bool := false
  userAlign : Bool := false
  nonaliasedComponent : Bool := false
  refCanAliasAll : Bool := false
  external : Bool := false
  artificial : Bool := false
  ignored : Bool := false
  nonlocal : Bool := false
  isVirtual : Bool := false
  gimpleReg : Bool := false
  debugExprFrom : Bool := false
  hasValueExpr : Bool := false
  weak : Bool := false
  comdat : Bool := false
  common : Bool := false
  inTextSection : Bool := false
  hardRegister : Bool := false
  seenInBindExpr : Bool := false
  visibilitySpecified : Bool := false
  visibility : UInt8 := 0
  tlsModel : UInt8 := 0
  isInline : Bool := false
  declaredInline : Bool := false
  uninlinable : Bool := false
  isMalloc : Bool := false
  isPure : Bool := false
  staticCtor : Bool := false
  staticDtor : Bool := false
  noInstrument : Bool := false
  noLimitStack : Bool := false
  possiblyInlined : Bool := false
  builtinClass : UInt8 := 0
  bitField : Bool := false
  nonaddressable : Bool := false
  forcedLabel : Bool := false
  errorIssued : Bool := false
  byReference : Bool := false
  deriving DecidableEq, Repr, Inhabited

namespace TreeFlags

def sideEffectsField : FlagField TreeFlags := .bool "side_effects" (·.sideEffects) fun r v => { r with sideEffects := v }
def constantField : FlagField TreeFlags := .bool "constant" (·.constant) fun r v => { r with constant := v }
def addressableField : FlagField TreeFlags := .bool "addressable" (·.addressable) fun r v => { r with addressable := v }
def volatileField : FlagField TreeFlags := .bool "volatile" (·.volatile) fun r v => { r with volatile := v }
def readonlyField : FlagField TreeFlags := .bool "readonly" (·.readonly) fun r v => { r with readonly := v }
def isPublicField : FlagField TreeFlags := .bool "public" (·.isPublic) fun r v => { r with isPublic := v }
def isStaticField : FlagField TreeFlags := .bool "is_static" (·.isStatic) fun r v => { r with isStatic := v }
def unsignedField : FlagField TreeFlags := .bool "unsigned" (·.unsigned) fun r v => { r with unsigned := v }
def nothrowField : FlagField TreeFlags := .bool "nothrow" (·.nothrow) fun r v => { r with nothrow := v }
def usedField : FlagField TreeFlags := .bool "used" (·.used) fun r v => { r with used := v }
def isPrivateField : FlagField TreeFlags := .bool "private" (·.isPrivate) fun r v => { r with isPrivate := v }
def isProtectedField : FlagField TreeFlags := .bool "protected" (·.isProtected) fun r v => { r with isProtected := v }
def deprecatedField : FlagField TreeFlags := .bool "deprecated" (·.deprecated) fun r v => { r with deprecated := v }
def asmWrittenField : FlagField TreeFlags := .bool "asm_written" (·.asmWritten) fun r v => { r with asmWritten := v }
def overflowField : FlagField TreeFlags := .bool "overflow" (·.overflow) fun r v => { r with overflow := v }
def noWarningField : FlagField TreeFlags := .bool "no_warning" (·.noWarning) fun r v => { r with noWarning := v }
def tailCallField : FlagField TreeFlags := .bool "tail_call" (·.tailCall) fun r v => { r with tailCall := v }
def returnSlotOptField : FlagField TreeFlags := .bool "return_slot_opt" (·.returnSlotOpt) fun r v => { r with returnSlotOpt := v }
def occursInAbnormalPhiField : FlagField TreeFlags := .bool "occurs_in_abnormal_phi" (·.occursInAbnormalPhi) fun r v => { r with occursInAbnormalPhi := v }
def isDefaultDefField : FlagField TreeFlags := .bool "is_default_def" (·.isDefaultDef) fun r v => { r with isDefaultDef := v }
def inFreeListField : FlagField TreeFlags := .bool "in_free_list" (·.inFreeList) fun r v => { r with inFreeList := v }
def stringFlagField : FlagField TreeFlags := .bool "string_flag" (·.stringFlag) fun r v => { r with stringFlag := v }
def noForceBlkField : FlagField TreeFlags := .bool "no_force_blk" (·.noForceBlk) fun r v => { r with noForceBlk := v }
def needsConstructingField : FlagField TreeFlags := .bool "needs_constructing" (·.needsConstructing) fun r v => { r with needsConstructing := v }
def transparentAggrField : FlagField TreeFlags := .bool "transparent_aggr" (·.transparentAggr) fun r v => { r with transparentAggr := v }
def restrictField : FlagField TreeFlags := .bool "restrict" (·.restrict) fun r v => { r with restrict := v }
def packedField : FlagField TreeFlags := .bool "packed" (·.packed) fun r v => { r with packed := v }
def userAlignField : FlagField TreeFlags := .bool "user_align" (·.userAlign) fun r v => { r with userAlign := v }
def nonaliasedComponentField : FlagField TreeFlags := .bool "nonaliased_component" (·.nonaliasedComponent) fun r v => { r with nonaliasedComponent := v }
def refCanAliasAllField : FlagField TreeFlags := .bool "ref_can_alias_all" (·.refCanAliasAll) fun r v => { r with refCanAliasAll := v }
def externalField : FlagField TreeFlags := .bool "external" (·.external) fun r v => { r with external := v }
def artificialField : FlagField TreeFlags := .bool "artificial" (·.artificial) fun r v => { r with artificial := v }
def ignoredField : FlagField TreeFlags := .bool "ignored" (·.ignored) fun r v => { r with ignored := v }
def nonlocalField : FlagField TreeFlags := .bool "nonlocal" (·.nonlocal) fun r v => { r with nonlocal := v }
def isVirtualField : FlagField TreeFlags := .bool "is_virtual" (·.isVirtual) fun r v => { r with isVirtual := v }
def gimpleRegField : FlagField TreeFlags := .bool "gimple_reg" (·.gimpleReg) fun r v => { r with gimpleReg := v }
def debugExprFromField : FlagField TreeFlags := .bool "debug_expr_from" (·.debugExprFrom) fun r v => { r with debugExprFrom := v }
def hasValueExprField : FlagField TreeFlags := .bool "has_value_expr" (·.hasValueExpr) fun r v => { r with hasValueExpr := v }
def weakField : FlagField TreeFlags := .bool "weak" (·.weak) fun r v => { r with weak := v }
def comdatField : FlagField TreeFlags := .bool "comdat" (·.comdat) fun r v => { r with comdat := v }
def commonField : FlagField TreeFlags := .bool "common" (·.common) fun r v => { r with common := v }
def inTextSectionField : FlagField TreeFlags := .bool "in_text_section" (·.inTextSection) fun r v => { r with inTextSection := v }
def hardRegisterField : FlagField TreeFlags := .bool "hard_register" (·.hardRegister) fun r v => { r with hardRegister := v }
def seenInBindExprField : FlagField TreeFlags := .bool "seen_in_bind_expr" (·.seenInBindExpr) fun r v => { r with seenInBindExpr := v }
def visibilitySpecifiedField : FlagField TreeFlags := .bool "visibility_specified" (·.visibilitySpecified) fun r v => { r with visibilitySpecified := v }
def visibilityField : FlagField TreeFlags := .byte "visibility" 2 (·.visibility) fun r v => { r with visibility := v }
def tlsModelField : FlagField TreeFlags := .byte "tls_model" 3 (·.tlsModel) fun r v => { r with tlsModel := v }
def isInlineField : FlagField TreeFlags := .bool "inline" (·.isInline) fun r v => { r with isInline := v }
def declaredInlineField : FlagField TreeFlags := .bool "declared_inline" (·.declaredInline) fun r v => { r with declaredInline := v }
def uninlinableField : FlagField TreeFlags := .bool "uninlinable" (·.uninlinable) fun r v => { r with uninlinable := v }
def isMallocField : FlagField TreeFlags := .bool "is_malloc" (·.isMalloc) fun r v => { r with isMalloc := v }
def isPureField : FlagField TreeFlags := .bool "pure" (·.isPure) fun r v => { r with isPure := v }
def staticCtorField : FlagField TreeFlags := .bool "static_ctor" (·.staticCtor) fun r v => { r with staticCtor := v }
def staticDtorField : FlagField TreeFlags := .bool "static_dtor" (·.staticDtor) fun r v => { r with staticDtor := v }
def noInstrumentField : FlagField TreeFlags := .bool "no_instrument" (·.noInstrument) fun r v => { r with noInstrument := v }
def noLimitStackField : FlagField TreeFlags := .bool "no_limit_stack" (·.noLimitStack) fun r v => { r with noLimitStack := v }
def possiblyInlinedField : FlagField TreeFlags := .bool "possibly_inlined" (·.possiblyInlined) fun r v => { r with possiblyInlined := v }
def builtinClassField : FlagField TreeFlags := .byte "builtin_class" 2 (·.builtinClass) fun r v => { r with builtinClass := v }
def bitFieldField : FlagField TreeFlags := .bool "bit_field" (·.bitField) fun r v => { r with bitField := v }
def nonaddressableField : FlagField TreeFlags := .bool "nonaddressable" (·.nonaddressable) fun r v => { r with nonaddressable := v }
def forcedLabelField : FlagField TreeFlags := .bool "forced_label" (·.forcedLabel) fun r v => { r with forcedLabel := v }
def errorIssuedField : FlagField TreeFlags := .bool "error_issued" (·.errorIssued) fun r v => { r with errorIssued := v }
def byReferenceField : FlagField TreeFlags := .bool "by_reference" (·.byReference) fun r v => { r with byReference := v }

/-- Every attribute of the record, once. -/
def fields : List (FlagField TreeFlags) := [
  sideEffectsField, constantField, addressableField, volatileField, readonlyField, isPublicField,
  isStaticField, unsignedField, nothrowField, usedField, isPrivateField, isProtectedField,
  deprecatedField, asmWrittenField, overflowField, noWarningField, tailCallField,
  returnSlotOptField, occursInAbnormalPhiField, isDefaultDefField, inFreeListField,
  stringFlagField, noForceBlkField, needsConstructingField, transparentAggrField, restrictField,
  packedField, userAlignField, nonaliasedComponentField, refCanAliasAllField, externalField,
  artificialField, ignoredField, nonlocalField, isVirtualField, gimpleRegField,
  debugExprFromField, hasValueExprField, weakField, comdatField, commonField, inTextSectionField,
  hardRegisterField, seenInBindExprField, visibilitySpecifiedField, visibilityField,
  tlsModelField, isInlineField, declaredInlineField, uninlinableField, isMallocField,
  isPureField, staticCtorField, staticDtorField, noInstrumentField, noLimitStackField,
  possiblyInlinedField, builtinClassField, bitFieldField, nonaddressableField, forcedLabelField,
  errorIssuedField, byReferenceField]

end TreeFlags

namespace TreeFlags

/-- Attributes every node streams. -/
def commonGroup : List (FlagField TreeFlags) := [
  sideEffectsField, constantField, addressableField, volatileField, readonlyField, isPublicField,
  isStaticField, unsignedField, nothrowField, usedField, isPrivateField, isProtectedField,
  deprecatedField, asmWrittenField]

/-- Attributes of constants. -/
def constantGroup : List (FlagField TreeFlags) := [
  overflowField]

/-- Attributes of expressions. -/
def exprGroup : List (FlagField TreeFlags) := [
  noWarningField, tailCallField, returnSlotOptField]

/-- Attributes of SSA names. -/
def ssaGroup : List (FlagField TreeFlags) := [
  occursInAbnormalPhiField, isDefaultDefField, inFreeListField]

/-- Attributes of types. -/
def typeGroup : List (FlagField TreeFlags) := [
  stringFlagField, noForceBlkField, needsConstructingField, transparentAggrField, restrictField,
  packedField, userAlignField, nonaliasedComponentField, refCanAliasAllField]

/-- Attributes of declarations. -/
def declGroup : List (FlagField TreeFlags) := [
  externalField, artificialField, ignoredField, nonlocalField, isVirtualField, gimpleRegField,
  debugExprFromField, hasValueExprField, userAlignField]

/-- Attributes of declarations with linkage. -/
def linkageGroup : List (FlagField TreeFlags) := [
  weakField, comdatField, commonField, inTextSectionField, hardRegisterField,
  seenInBindExprField, visibilitySpecifiedField, visibilityField, tlsModelField]

/-- Attributes of functions. -/
def functionGroup : List (FlagField TreeFlags) := [
  isInlineField, declaredInlineField, uninlinableField, isMallocField, isPureField,
  staticCtorField, staticDtorField, noInstrumentField, noLimitStackField, possiblyInlinedField,
  builtinClassField]

/-- Attributes of fields. -/
def fieldGroup : List (FlagField TreeFlags) := [
  bitFieldField, nonaddressableField]

/-- Attributes of labels. -/
def labelGroup : List (FlagField TreeFlags) := [
  forcedLabelField, errorIssuedField]

/-- Attributes of parameters and results. -/
def parmGroup : List (FlagField TreeFlags) := [
  byReferenceField]

/-- The tables streamed for nodes of a code, in packing order. -/
def groups (code : TreeCode) : List (List (FlagField TreeFlags)) :=
  match code with
  | .functionDecl => [commonGroup, declGroup, linkageGroup, functionGroup]
  | .varDecl => [commonGroup, declGroup, linkageGroup]
  | .fieldDecl => [commonGroup, declGroup, fieldGroup]
  | .labelDecl => [commonGroup, declGroup, labelGroup]
  | .parmDecl | .resultDecl => [commonGroup, declGroup, parmGroup]
  | .ssaName => [commonGroup, ssaGroup]
  | c =>
    if c.isDecl then [commonGroup, declGroup]
    else if c.isType then [commonGroup, typeGroup]
    else if c.isConstant then [commonGroup, constantGroup]
    else match c.layout with
      | .operands _ | .call | .constructor | .asm =>
        if c == .errorMark then [commonGroup] else [commonGroup, exprGroup]
      | _ => [commonGroup]

/-- The fields packed for nodes of a code, in packing order. -/
def streamed (code : TreeCode) : List (FlagField TreeFlags) := (groups code).flatten

end TreeFlags

end IrStream
