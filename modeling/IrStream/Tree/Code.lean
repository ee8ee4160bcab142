/-!
Tree codes: the closed set of node kinds. A code fixes the node's class, its
field layout and, for kinds laid out mechanically, its operand count. Codes
are numbered densely from zero in declaration order, so a tag byte maps back
to a code through `TreeCode.ofIndex?`.
-/

namespace IrStream

/-- Coarse grouping of tree codes. -/
inductive TreeClass where
  | exceptional | constant | type | declaration | reference | comparison | unary | binary
  | expression
  deriving DecidableEq, Repr, Inhabited

/-- The class's name in reports. -/
def TreeClass.label : TreeClass → String
  | .exceptional => "Exceptional"
  | .constant => "Constant"
  | .type => "Type"
  | .declaration => "Declaration"
  | .reference => "Reference"
  | .comparison => "Comparison"
  | .unary => "Unary"
  | .binary => "Binary"
  | .expression => "Expression"

/-- Field layout of a node kind. `operands n` is the mechanical layout: the
node is its type, its flags and exactly `n` operand slots; every other layout
has a dedicated field order. -/
inductive Layout where
  | identifier | integerCst | realCst | complexCst | vectorCst | stringCst
  /-- Counted (value, purpose) pairs. -/
  | list
  /-- Counted vector of optional nodes. -/
  | vec
  | binfo | type | decl
  /-- Counted (index, value) pairs. -/
  | constructor
  /-- Callee, static chain, counted arguments. -/
  | call
  | caseLabel | asm | ssaName
  | operands (arity : Nat)
  deriving DecidableEq, Repr, Inhabited

/-- The layout's name in reports, such as `Operands(2)`. -/
def Layout.label : Layout → String
  | .identifier => "Identifier"
  | .integerCst => "IntegerCst"
  | .realCst => "RealCst"
  | .complexCst => "ComplexCst"
  | .vectorCst => "VectorCst"
  | .stringCst => "StringCst"
  | .list => "List"
  | .vec => "Vec"
  | .binfo => "Binfo"
  | .type => "Type"
  | .decl => "Decl"
  | .constructor => "Constructor"
  | .call => "Call"
  | .caseLabel => "CaseLabel"
  | .asm => "Asm"
  | .ssaName => "SsaName"
  | .operands n => s!"Operands({n})"

/-- Node kinds, in tag order. -/
inductive TreeCode where
  | errorMark
  | identifierNode
  | treeList
  | treeVec
  | treeBinfo
  | ssaName
  | integerCst
  | realCst
  | complexCst
  | vectorCst
  | stringCst
  | voidType
  | integerType
  | realType
  | booleanType
  | enumeralType
  | pointerType
  | referenceType
  | offsetType
  | complexType
  | vectorType
  | arrayType
  | recordType
  | unionType
  | qualUnionType
  | functionType
  | methodType
  | functionDecl
  | labelDecl
  | fieldDecl
  | varDecl
  | constDecl
  | parmDecl
  | typeDecl
  | resultDecl
  | namespaceDecl
  | translationUnitDecl
  | componentRef
  | bitFieldRef
  | indirectRef
  | arrayRef
  | arrayRangeRef
  | realpartExpr
  | imagpartExpr
  | viewConvertExpr
  | objTypeRef
  | constructor
  | modifyExpr
  | initExpr
  | condExpr
  | callExpr
  | saveExpr
  | addrExpr
  | labelExpr
  | gotoExpr
  | returnExpr
  | caseLabelExpr
  | asmExpr
  | excPtrExpr
  | filterExpr
  | withSizeExpr
  | truthAndifExpr
  | truthOrifExpr
  | plusExpr
  | minusExpr
  | multExpr
  | pointerPlusExpr
  | truncDivExpr
  | ceilDivExpr
  | floorDivExpr
  | roundDivExpr
  | truncModExpr
  | ceilModExpr
  | floorModExpr
  | roundModExpr
  | rdivExpr
  | exactDivExpr
  | minExpr
  | maxExpr
  | lshiftExpr
  | rshiftExpr
  | lrotateExpr
  | rrotateExpr
  | bitIorExpr
  | bitXorExpr
  | bitAndExpr
  | truthAndExpr
  | truthOrExpr
  | truthXorExpr
  | complexExpr
  | rangeExpr
  | fixTruncExpr
  | floatExpr
  | negateExpr
  | absExpr
  | bitNotExpr
  | truthNotExpr
  | convertExpr
  | nopExpr
  | nonLvalueExpr
  | conjExpr
  | ltExpr
  | leExpr
  | gtExpr
  | geExpr
  | eqExpr
  | neExpr
  | unorderedExpr
  | orderedExpr
  | unltExpr
  | unleExpr
  | ungtExpr
  | ungeExpr
  | uneqExpr
  | ltgtExpr
  deriving DecidableEq, Repr, Inhabited

namespace TreeCode

/-- Every code, in tag order. -/
def all : List TreeCode := [
  .errorMark, .identifierNode, .treeList, .treeVec, .treeBinfo, .ssaName, .integerCst, .realCst,
  .complexCst, .vectorCst, .stringCst, .voidType, .integerType, .realType, .booleanType,
  .enumeralType, .pointerType, .referenceType, .offsetType, .complexType, .vectorType,
  .arrayType, .recordType, .unionType, .qualUnionType, .functionType, .methodType, .functionDecl,
  .labelDecl, .fieldDecl, .varDecl, .constDecl, .parmDecl, .typeDecl, .resultDecl,
  .namespaceDecl, .translationUnitDecl, .componentRef, .bitFieldRef, .indirectRef, .arrayRef,
  .arrayRangeRef, .realpartExpr, .imagpartExpr, .viewConvertExpr, .objTypeRef, .constructor,
  .modifyExpr, .initExpr, .condExpr, .callExpr, .saveExpr, .addrExpr, .labelExpr, .gotoExpr,
  .returnExpr, .caseLabelExpr, .asmExpr, .excPtrExpr, .filterExpr, .withSizeExpr,
  .truthAndifExpr, .truthOrifExpr, .plusExpr, .minusExpr, .multExpr, .pointerPlusExpr,
  .truncDivExpr, .ceilDivExpr, .floorDivExpr, .roundDivExpr, .truncModExpr, .ceilModExpr,
  .floorModExpr, .roundModExpr, .rdivExpr, .exactDivExpr, .minExpr, .maxExpr, .lshiftExpr,
  .rshiftExpr, .lrotateExpr, .rrotateExpr, .bitIorExpr, .bitXorExpr, .bitAndExpr, .truthAndExpr,
  .truthOrExpr, .truthXorExpr, .complexExpr, .rangeExpr, .fixTruncExpr, .floatExpr, .negateExpr,
  .absExpr, .bitNotExpr, .truthNotExpr, .convertExpr, .nopExpr, .nonLvalueExpr, .conjExpr,
  .ltExpr, .leExpr, .gtExpr, .geExpr, .eqExpr, .neExpr, .unorderedExpr, .orderedExpr, .unltExpr,
  .unleExpr, .ungtExpr, .ungeExpr, .uneqExpr, .ltgtExpr]

/-- The lower-case name printed in dumps and messages. -/
def name : TreeCode → String
  | .errorMark => "error_mark"
  | .identifierNode => "identifier_node"
  | .treeList => "tree_list"
  | .treeVec => "tree_vec"
  | .treeBinfo => "tree_binfo"
  | .ssaName => "ssa_name"
  | .integerCst => "integer_cst"
  | .realCst => "real_cst"
  | .complexCst => "complex_cst"
  | .vectorCst => "vector_cst"
  | .stringCst => "string_cst"
  | .voidType => "void_type"
  | .integerType => "integer_type"
  | .realType => "real_type"
  | .booleanType => "boolean_type"
  | .enumeralType => "enumeral_type"
  | .pointerType => "pointer_type"
  | .referenceType => "reference_type"
  | .offsetType => "offset_type"
  | .complexType => "complex_type"
  | .vectorType => "vector_type"
  | .arrayType => "array_type"
  | .recordType => "record_type"
  | .unionType => "union_type"
  | .qualUnionType => "qual_union_type"
  | .functionType => "function_type"
  | .methodType => "method_type"
  | .functionDecl => "function_decl"
  | .labelDecl => "label_decl"
  | .fieldDecl => "field_decl"
  | .varDecl => "var_decl"
  | .constDecl => "const_decl"
  | .parmDecl => "parm_decl"
  | .typeDecl => "type_decl"
  | .resultDecl => "result_decl"
  | .namespaceDecl => "namespace_decl"
  | .translationUnitDecl => "translation_unit_decl"
  | .componentRef => "component_ref"
  | .bitFieldRef => "bit_field_ref"
  | .indirectRef => "indirect_ref"
  | .arrayRef => "array_ref"
  | .arrayRangeRef => "array_range_ref"
  | .realpartExpr => "realpart_expr"
  | .imagpartExpr => "imagpart_expr"
  | .viewConvertExpr => "view_convert_expr"
  | .objTypeRef => "obj_type_ref"
  | .constructor => "constructor"
  | .modifyExpr => "modify_expr"
  | .initExpr => "init_expr"
  | .condExpr => "cond_expr"
  | .callExpr => "call_expr"
  | .saveExpr => "save_expr"
  | .addrExpr => "addr_expr"
  | .labelExpr => "label_expr"
  | .gotoExpr => "goto_expr"
  | .returnExpr => "return_expr"
  | .caseLabelExpr => "case_label_expr"
  | .asmExpr => "asm_expr"
  | .excPtrExpr => "exc_ptr_expr"
  | .filterExpr => "filter_expr"
  | .withSizeExpr => "with_size_expr"
  | .truthAndifExpr => "truth_andif_expr"
  | .truthOrifExpr => "truth_orif_expr"
  | .plusExpr => "plus_expr"
  | .minusExpr => "minus_expr"
  | .multExpr => "mult_expr"
  | .pointerPlusExpr => "pointer_plus_expr"
  | .truncDivExpr => "trunc_div_expr"
  | .ceilDivExpr => "ceil_div_expr"
  | .floorDivExpr => "floor_div_expr"
  | .roundDivExpr => "round_div_expr"
  | .truncModExpr => "trunc_mod_expr"
  | .ceilModExpr => "ceil_mod_expr"
  | .floorModExpr => "floor_mod_expr"
  | .roundModExpr => "round_mod_expr"
  | .rdivExpr => "rdiv_expr"
  | .exactDivExpr => "exact_div_expr"
  | .minExpr => "min_expr"
  | .maxExpr => "max_expr"
  | .lshiftExpr => "lshift_expr"
  | .rshiftExpr => "rshift_expr"
  | .lrotateExpr => "lrotate_expr"
  | .rrotateExpr => "rrotate_expr"
  | .bitIorExpr => "bit_ior_expr"
  | .bitXorExpr => "bit_xor_expr"
  | .bitAndExpr => "bit_and_expr"
  | .truthAndExpr => "truth_and_expr"
  | .truthOrExpr => "truth_or_expr"
  | .truthXorExpr => "truth_xor_expr"
  | .complexExpr => "complex_expr"
  | .rangeExpr => "range_expr"
  | .fixTruncExpr => "fix_trunc_expr"
  | .floatExpr => "float_expr"
  | .negateExpr => "negate_expr"
  | .absExpr => "abs_expr"
  | .bitNotExpr => "bit_not_expr"
  | .truthNotExpr => "truth_not_expr"
  | .convertExpr => "convert_expr"
  | .nopExpr => "nop_expr"
  | .nonLvalueExpr => "non_lvalue_expr"
  | .conjExpr => "conj_expr"
  | .ltExpr => "lt_expr"
  | .leExpr => "le_expr"
  | .gtExpr => "gt_expr"
  | .geExpr => "ge_expr"
  | .eqExpr => "eq_expr"
  | .neExpr => "ne_expr"
  | .unorderedExpr => "unordered_expr"
  | .orderedExpr => "ordered_expr"
  | .unltExpr => "unlt_expr"
  | .unleExpr => "unle_expr"
  | .ungtExpr => "ungt_expr"
  | .ungeExpr => "unge_expr"
  | .uneqExpr => "uneq_expr"
  | .ltgtExpr => "ltgt_expr"

def treeClass : TreeCode → TreeClass
  | .errorMark => .exceptional
  | .identifierNode => .exceptional
  | .treeList => .exceptional
  | .treeVec => .exceptional
  | .treeBinfo => .exceptional
  | .ssaName => .exceptional
  | .integerCst => .constant
  | .realCst => .constant
  | .complexCst => .constant
  | .vectorCst => .constant
  | .stringCst => .constant
  | .voidType => .type
  | .integerType => .type
  | .realType => .type
  | .booleanType => .type
  | .enumeralType => .type
  | .pointerType => .type
  | .referenceType => .type
  | .offsetType => .type
  | .complexType => .type
  | .vectorType => .type
  | .arrayType => .type
  | .recordType => .type
  | .unionType => .type
  | .qualUnionType => .type
  | .functionType => .type
  | .methodType => .type
  | .functionDecl => .declaration
  | .labelDecl => .declaration
  | .fieldDecl => .declaration
  | .varDecl => .declaration
  | .constDecl => .declaration
  | .parmDecl => .declaration
  | .typeDecl => .declaration
  | .resultDecl => .declaration
  | .namespaceDecl => .declaration
  | .translationUnitDecl => .declaration
  | .componentRef => .reference
  | .bitFieldRef => .reference
  | .indirectRef => .reference
  | .arrayRef => .reference
  | .arrayRangeRef => .reference
  | .realpartExpr => .reference
  | .imagpartExpr => .reference
  | .viewConvertExpr => .reference
  | .objTypeRef => .reference
  | .constructor => .expression
  | .modifyExpr => .expression
  | .initExpr => .expression
  | .condExpr => .expression
  | .callExpr => .expression
  | .saveExpr => .expression
  | .addrExpr => .expression
  | .labelExpr => .expression
  | .gotoExpr => .expression
  | .returnExpr => .expression
  | .caseLabelExpr => .expression
  | .asmExpr => .expression
  | .excPtrExpr => .expression
  | .filterExpr => .expression
  | .withSizeExpr => .expression
  | .truthAndifExpr => .expression
  | .truthOrifExpr => .expression
  | .plusExpr => .binary
  | .minusExpr => .binary
  | .multExpr => .binary
  | .pointerPlusExpr => .binary
  | .truncDivExpr => .binary
  | .ceilDivExpr => .binary
  | .floorDivExpr => .binary
  | .roundDivExpr => .binary
  | .truncModExpr => .binary
  | .ceilModExpr => .binary
  | .floorModExpr => .binary
  | .roundModExpr => .binary
  | .rdivExpr => .binary
  | .exactDivExpr => .binary
  | .minExpr => .binary
  | .maxExpr => .binary
  | .lshiftExpr => .binary
  | .rshiftExpr => .binary
  | .lrotateExpr => .binary
  | .rrotateExpr => .binary
  | .bitIorExpr => .binary
  | .bitXorExpr => .binary
  | .bitAndExpr => .binary
  | .truthAndExpr => .binary
  | .truthOrExpr => .binary
  | .truthXorExpr => .binary
  | .complexExpr => .binary
  | .rangeExpr => .binary
  | .fixTruncExpr => .unary
  | .floatExpr => .unary
  | .negateExpr => .unary
  | .absExpr => .unary
  | .bitNotExpr => .unary
  | .truthNotExpr => .unary
  | .convertExpr => .unary
  | .nopExpr => .unary
  | .nonLvalueExpr => .unary
  | .conjExpr => .unary
  | .ltExpr => .comparison
  | .leExpr => .comparison
  | .gtExpr => .comparison
  | .geExpr => .comparison
  | .eqExpr => .comparison
  | .neExpr => .comparison
  | .unorderedExpr => .comparison
  | .orderedExpr => .comparison
  | .unltExpr => .comparison
  | .unleExpr => .comparison
  | .ungtExpr => .comparison
  | .ungeExpr => .comparison
  | .uneqExpr => .comparison
  | .ltgtExpr => .comparison

def layout : TreeCode → Layout
  | .errorMark => .operands 0
  | .identifierNode => .identifier
  | .treeList => .list
  | .treeVec => .vec
  | .treeBinfo => .binfo
  | .ssaName => .ssaName
  | .integerCst => .integerCst
  | .realCst => .realCst
  | .complexCst => .complexCst
  | .vectorCst => .vectorCst
  | .stringCst => .stringCst
  | .voidType => .type
  | .integerType => .type
  | .realType => .type
  | .booleanType => .type
  | .enumeralType => .type
  | .pointerType => .type
  | .referenceType => .type
  | .offsetType => .type
  | .complexType => .type
  | .vectorType => .type
  | .arrayType => .type
  | .recordType => .type
  | .unionType => .type
  | .qualUnionType => .type
  | .functionType => .type
  | .methodType => .type
  | .functionDecl => .decl
  | .labelDecl => .decl
  | .fieldDecl => .decl
  | .varDecl => .decl
  | .constDecl => .decl
  | .parmDecl => .decl
  | .typeDecl => .decl
  | .resultDecl => .decl
  | .namespaceDecl => .decl
  | .translationUnitDecl => .decl
  | .componentRef => .operands 2
  | .bitFieldRef => .operands 3
  | .indirectRef => .operands 1
  | .arrayRef => .operands 2
  | .arrayRangeRef => .operands 2
  | .realpartExpr => .operands 1
  | .imagpartExpr => .operands 1
  | .viewConvertExpr => .operands 1
  | .objTypeRef => .operands 3
  | .constructor => .constructor
  | .modifyExpr => .operands 2
  | .initExpr => .operands 2
  | .condExpr => .operands 3
  | .callExpr => .call
  | .saveExpr => .operands 1
  | .addrExpr => .operands 1
  | .labelExpr => .operands 1
  | .gotoExpr => .operands 1
  | .returnExpr => .operands 1
  | .caseLabelExpr => .caseLabel
  | .asmExpr => .asm
  | .excPtrExpr => .operands 0
  | .filterExpr => .operands 0
  | .withSizeExpr => .operands 2
  | .truthAndifExpr => .operands 2
  | .truthOrifExpr => .operands 2
  | .plusExpr => .operands 2
  | .minusExpr => .operands 2
  | .multExpr => .operands 2
  | .pointerPlusExpr => .operands 2
  | .truncDivExpr => .operands 2
  | .ceilDivExpr => .operands 2
  | .floorDivExpr => .operands 2
  | .roundDivExpr => .operands 2
  | .truncModExpr => .operands 2
  | .ceilModExpr => .operands 2
  | .floorModExpr => .operands 2
  | .roundModExpr => .operands 2
  | .rdivExpr => .operands 2
  | .exactDivExpr => .operands 2
  | .minExpr => .operands 2
  | .maxExpr => .operands 2
  | .lshiftExpr => .operands 2
  | .rshiftExpr => .operands 2
  | .lrotateExpr => .operands 2
  | .rrotateExpr => .operands 2
  | .bitIorExpr => .operands 2
  | .bitXorExpr => .operands 2
  | .bitAndExpr => .operands 2
  | .truthAndExpr => .operands 2
  | .truthOrExpr => .operands 2
  | .truthXorExpr => .operands 2
  | .complexExpr => .operands 2
  | .rangeExpr => .operands 2
  | .fixTruncExpr => .operands 1
  | .floatExpr => .operands 1
  | .negateExpr => .operands 1
  | .absExpr => .operands 1
  | .bitNotExpr => .operands 1
  | .truthNotExpr => .operands 1
  | .convertExpr => .operands 1
  | .nopExpr => .operands 1
  | .nonLvalueExpr => .operands 1
  | .conjExpr => .operands 1
  | .ltExpr => .operands 2
  | .leExpr => .operands 2
  | .gtExpr => .operands 2
  | .geExpr => .operands 2
  | .eqExpr => .operands 2
  | .neExpr => .operands 2
  | .unorderedExpr => .operands 2
  | .orderedExpr => .operands 2
  | .unltExpr => .operands 2
  | .unleExpr => .operands 2
  | .ungtExpr => .operands 2
  | .ungeExpr => .operands 2
  | .uneqExpr => .operands 2
  | .ltgtExpr => .operands 2

/-- The code's position in tag order. -/
def index : TreeCode → Nat
  | .errorMark => 0
  | .identifierNode => 1
  | .treeList => 2
  | .treeVec => 3
  | .treeBinfo => 4
  | .ssaName => 5
  | .integerCst => 6
  | .realCst => 7
  | .complexCst => 8
  | .vectorCst => 9
  | .stringCst => 10
  | .voidType => 11
  | .integerType => 12
  | .realType => 13
  | .booleanType => 14
  | .enumeralType => 15
  | .pointerType => 16
  | .referenceType => 17
  | .offsetType => 18
  | .complexType => 19
  | .vectorType => 20
  | .arrayType => 21
  | .recordType => 22
  | .unionType => 23
  | .qualUnionType => 24
  | .functionType => 25
  | .methodType => 26
  | .functionDecl => 27
  | .labelDecl => 28
  | .fieldDecl => 29
  | .varDecl => 30
  | .constDecl => 31
  | .parmDecl => 32
  | .typeDecl => 33
  | .resultDecl => 34
  | .namespaceDecl => 35
  | .translationUnitDecl => 36
  | .componentRef => 37
  | .bitFieldRef => 38
  | .indirectRef => 39
  | .arrayRef => 40
  | .arrayRangeRef => 41
  | .realpartExpr => 42
  | .imagpartExpr => 43
  | .viewConvertExpr => 44
  | .objTypeRef => 45
  | .constructor => 46
  | .modifyExpr => 47
  | .initExpr => 48
  | .condExpr => 49
  | .callExpr => 50
  | .saveExpr => 51
  | .addrExpr => 52
  | .labelExpr => 53
  | .gotoExpr => 54
  | .returnExpr => 55
  | .caseLabelExpr => 56
  | .asmExpr => 57
  | .excPtrExpr => 58
  | .filterExpr => 59
  | .withSizeExpr => 60
  | .truthAndifExpr => 61
  | .truthOrifExpr => 62
  | .plusExpr => 63
  | .minusExpr => 64
  | .multExpr => 65
  | .pointerPlusExpr => 66
  | .truncDivExpr => 67
  | .ceilDivExpr => 68
  | .floorDivExpr => 69
  | .roundDivExpr => 70
  | .truncModExpr => 71
  | .ceilModExpr => 72
  | .floorModExpr => 73
  | .roundModExpr => 74
  | .rdivExpr => 75
  | .exactDivExpr => 76
  | .minExpr => 77
  | .maxExpr => 78
  | .lshiftExpr => 79
  | .rshiftExpr => 80
  | .lrotateExpr => 81
  | .rrotateExpr => 82
  | .bitIorExpr => 83
  | .bitXorExpr => 84
  | .bitAndExpr => 85
  | .truthAndExpr => 86
  | .truthOrExpr => 87
  | .truthXorExpr => 88
  | .complexExpr => 89
  | .rangeExpr => 90
  | .fixTruncExpr => 91
  | .floatExpr => 92
  | .negateExpr => 93
  | .absExpr => 94
  | .bitNotExpr => 95
  | .truthNotExpr => 96
  | .convertExpr => 97
  | .nopExpr => 98
  | .nonLvalueExpr => 99
  | .conjExpr => 100
  | .ltExpr => 101
  | .leExpr => 102
  | .gtExpr => 103
  | .geExpr => 104
  | .eqExpr => 105
  | .neExpr => 106
  | .unorderedExpr => 107
  | .orderedExpr => 108
  | .unltExpr => 109
  | .unleExpr => 110
  | .ungtExpr => 111
  | .ungeExpr => 112
  | .uneqExpr => 113
  | .ltgtExpr => 114

/-- The code at a position in tag order. -/
def ofIndex? (i : Nat) : Option TreeCode := all[i]?

/-- The code of a dump name. -/
def ofName? (s : String) : Option TreeCode := all.find? (·.name == s)

def isType (c : TreeCode) : Bool := c.treeClass == .type
def isDecl (c : TreeCode) : Bool := c.treeClass == .declaration
def isConstant (c : TreeCode) : Bool := c.treeClass == .constant

/-- Kinds that take part in back-referencing: types, declarations and binfos. -/
def isGlobalIndexable (c : TreeCode) : Bool := c.isType || c.isDecl || c == .treeBinfo

/-- Whether the node's own type reference is part of its record. -/
def streamsType (c : TreeCode) : Bool :=
  match c.layout with
  | .identifier | .list | .vec | .caseLabel | .ssaName => false
  | _ => true

/-- Operand count of a mechanically laid out kind. -/
def arity? (c : TreeCode) : Option Nat :=
  match c.layout with
  | .operands n => some n
  | _ => none

instance : ToString TreeCode := ⟨TreeCode.name⟩

end TreeCode

end IrStream
