import IrStream.Flags.Packing

/-!
Attributes of the side tables: function bodies, statements, call-graph
nodes and call-graph edges. Each record's `fields` is also its packing
order.
-/

namespace IrStream

/-- Attributes of a function body. `function_frequency` takes two bits, the two `va_list` sizes eight. -/
structure FunctionFlags where
  isThunk : Bool := false
  hasLocalExplicitRegVars : Bool := false
  afterTreeProfile : Bool := false
  returnsPccStruct : Bool := false
  returnsStruct : Bool := false
  alwaysInlineFunctionsInlined : Bool := false
  afterInlining : Bool := false
  dontSavePendingSizes : Bool := false
  stdarg : Bool := false
  hasNonlocalLabel : Bool := false
  callsAlloca : Bool := false
  callsSetjmp : Bool := false
  functionFrequency : UInt8 := 0
  vaListFprSize : UInt8 := 0
  vaListGprSize : UInt8 := 0
  deriving DecidableEq, Repr, Inhabited

namespace FunctionFlags

def isThunkField : FlagField FunctionFlags := .bool "is_thunk" (·.isThunk) fun r v => { r with isThunk := v }
def hasLocalExplicitRegVarsField : FlagField FunctionFlags := .bool "has_local_explicit_reg_vars" (·.hasLocalExplicitRegVars) fun r v => { r with hasLocalExplicitRegVars := v }
def afterTreeProfileField : FlagField FunctionFlags := .bool "after_tree_profile" (·.afterTreeProfile) fun r v => { r with afterTreeProfile := v }
def returnsPccStructField : FlagField FunctionFlags := .bool "returns_pcc_struct" (·.returnsPccStruct) fun r v => { r with returnsPccStruct := v }
def returnsStructField : FlagField FunctionFlags := .bool "returns_struct" (·.returnsStruct) fun r v => { r with returnsStruct := v }
def alwaysInlineFunctionsInlinedField : FlagField FunctionFlags := .bool "always_inline_functions_inlined" (·.alwaysInlineFunctionsInlined) fun r v => { r with alwaysInlineFunctionsInlined := v }
def afterInliningField : FlagField FunctionFlags := .bool "after_inlining" (·.afterInlining) fun r v => { r with afterInlining := v }
def dontSavePendingSizesField : FlagField FunctionFlags := .bool "dont_save_pending_sizes" (·.dontSavePendingSizes) fun r v => { r with dontSavePendingSizes := v }
def stdargField : FlagField FunctionFlags := .bool "stdarg" (·.stdarg) fun r v => { r with stdarg := v }
def hasNonlocalLabelField : FlagField FunctionFlags := .bool "has_nonlocal_label" (·.hasNonlocalLabel) fun r v => { r with hasNonlocalLabel := v }
def callsAllocaField : FlagField FunctionFlags := .bool "calls_alloca" (·.callsAlloca) fun r v => { r with callsAlloca := v }
def callsSetjmpField : FlagField FunctionFlags := .bool "calls_setjmp" (·.callsSetjmp) fun r v => { r with callsSetjmp := v }
def functionFrequencyField : FlagField FunctionFlags := .byte "function_frequency" 2 (·.functionFrequency) fun r v => { r with functionFrequency := v }
def vaListFprSizeField : FlagField FunctionFlags := .byte "va_list_fpr_size" 8 (·.vaListFprSize) fun r v => { r with vaListFprSize := v }
def vaListGprSizeField : FlagField FunctionFlags := .byte "va_list_gpr_size" 8 (·.vaListGprSize) fun r v => { r with vaListGprSize := v }

/-- Every attribute of the record, once. -/
def fields : List (FlagField FunctionFlags) := [
  isThunkField, hasLocalExplicitRegVarsField, afterTreeProfileField, returnsPccStructField,
  returnsStructField, alwaysInlineFunctionsInlinedField, afterInliningField,
  dontSavePendingSizesField, stdargField, hasNonlocalLabelField, callsAllocaField,
  callsSetjmpField, functionFrequencyField, vaListFprSizeField, vaListGprSizeField]

end FunctionFlags

/-- Attributes of a statement. -/
structure StmtFlags where
  noWarning : Bool := false
  hasVolatileOps : Bool := false
  deriving DecidableEq, Repr, Inhabited

namespace StmtFlags

def noWarningField : FlagField StmtFlags := .bool "no_warning" (·.noWarning) fun r v => { r with noWarning := v }
def hasVolatileOpsField : FlagField StmtFlags := .bool "has_volatile_ops" (·.hasVolatileOps) fun r v => { r with hasVolatileOps := v }

/-- Every attribute of the record, once. -/
def fields : List (FlagField StmtFlags) := [
  noWarningField, hasVolatileOpsField]

end StmtFlags

/-- Attributes of a call-graph node. -/
structure CgraphFlags where
  lowered : Bool := false
  analyzed : Bool := false
  needed : Bool := false
  isLocal : Bool := false
  externallyVisible : Bool := false
  finalized : Bool := false
  inlinable : Bool := false
  disregardInlineLimits : Bool := false
  redefinedExternInline : Bool := false
  forFunctionsValid : Bool := false
  vtableMethod : Bool := false
  deriving DecidableEq, Repr, Inhabited

namespace CgraphFlags

def loweredField : FlagField CgraphFlags := .bool "lowered" (·.lowered) fun r v => { r with lowered := v }
def analyzedField : FlagField CgraphFlags := .bool "analyzed" (·.analyzed) fun r v => { r with analyzed := v }
def neededField : FlagField CgraphFlags := .bool "needed" (·.needed) fun r v => { r with needed := v }
def isLocalField : FlagField CgraphFlags := .bool "local" (·.isLocal) fun r v => { r with isLocal := v }
def externallyVisibleField : FlagField CgraphFlags := .bool "externally_visible" (·.externallyVisible) fun r v => { r with externallyVisible := v }
def finalizedField : FlagField CgraphFlags := .bool "finalized" (·.finalized) fun r v => { r with finalized := v }
def inlinableField : FlagField CgraphFlags := .bool "inlinable" (·.inlinable) fun r v => { r with inlinable := v }
def disregardInlineLimitsField : FlagField CgraphFlags := .bool "disregard_inline_limits" (·.disregardInlineLimits) fun r v => { r with disregardInlineLimits := v }
def redefinedExternInlineField : FlagField CgraphFlags := .bool "redefined_extern_inline" (·.redefinedExternInline) fun r v => { r with redefinedExternInline := v }
def forFunctionsValidField : FlagField CgraphFlags := .bool "for_functions_valid" (·.forFunctionsValid) fun r v => { r with forFunctionsValid := v }
def vtableMethodField : FlagField CgraphFlags := .bool "vtable_method" (·.vtableMethod) fun r v => { r with vtableMethod := v }

/-- Every attribute of the record, once. -/
def fields : List (FlagField CgraphFlags) := [
  loweredField, analyzedField, neededField, isLocalField, externallyVisibleField, finalizedField,
  inlinableField, disregardInlineLimitsField, redefinedExternInlineField, forFunctionsValidField,
  vtableMethodField]

end CgraphFlags

/-- Attributes of a call-graph edge. -/
structure EdgeFlags where
  indirectCall : Bool := false
  callStmtCannotInline : Bool := false
  deriving DecidableEq, Repr, Inhabited

namespace EdgeFlags

def indirectCallField : FlagField EdgeFlags := .bool "indirect_call" (·.indirectCall) fun r v => { r with indirectCall := v }
def callStmtCannotInlineField : FlagField EdgeFlags := .bool "call_stmt_cannot_inline" (·.callStmtCannotInline) fun r v => { r with callStmtCannotInline := v }

/-- Every attribute of the record, once. -/
def fields : List (FlagField EdgeFlags) := [
  indirectCallField, callStmtCannotInlineField]

end EdgeFlags

end IrStream
