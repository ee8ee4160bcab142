import IrStream.Tree.Arena

/-!
The well-known nodes present in every program image: the error mark, the
scalar types, the pointer-to-void type, the `void` parameter list and the
integer constants 0 and 1. They are built first and in a fixed order, so they
occupy the first 22 slots of every arena, and every back-reference table
starts with them.
-/

namespace IrStream

inductive CommonNode where
  | errorMark | voidType | booleanType | charType | signedCharType | unsignedCharType
  | shortType | unsignedShortType | intType | unsignedType | longType | unsignedLongType
  | longLongType | unsignedLongLongType | floatType | doubleType | longDoubleType | sizeType
  | ptrType | voidList | integerZero | integerOne
  deriving DecidableEq, Repr, Inhabited

namespace CommonNode

def all : List CommonNode :=
  [errorMark, voidType, booleanType, charType, signedCharType, unsignedCharType, shortType,
   unsignedShortType, intType, unsignedType, longType, unsignedLongType, longLongType,
   unsignedLongLongType, floatType, doubleType, longDoubleType, sizeType, ptrType, voidList,
   integerZero, integerOne]

def count : Nat := 22

def index : CommonNode → Nat
  | errorMark => 0 | voidType => 1 | booleanType => 2 | charType => 3 | signedCharType => 4
  | unsignedCharType => 5 | shortType => 6 | unsignedShortType => 7 | intType => 8
  | unsignedType => 9 | longType => 10 | unsignedLongType => 11 | longLongType => 12
  | unsignedLongLongType => 13 | floatType => 14 | doubleType => 15 | longDoubleType => 16
  | sizeType => 17 | ptrType => 18 | voidList => 19 | integerZero => 20 | integerOne => 21

/-- The node's id in every arena. -/
def id (c : CommonNode) : NodeId := ⟨c.index⟩

def name : CommonNode → String
  | errorMark => "error_mark" | voidType => "void_type" | booleanType => "boolean_type"
  | charType => "char_type" | signedCharType => "signed_char_type"
  | unsignedCharType => "unsigned_char_type" | shortType => "short_type"
  | unsignedShortType => "unsigned_short_type" | intType => "int_type"
  | unsignedType => "unsigned_type" | longType => "long_type"
  | unsignedLongType => "unsigned_long_type" | longLongType => "long_long_type"
  | unsignedLongLongType => "unsigned_long_long_type" | floatType => "float_type"
  | doubleType => "double_type" | longDoubleType => "long_double_type"
  | sizeType => "size_type" | ptrType => "ptr_type" | voidList => "void_list"
  | integerZero => "integer_zero" | integerOne => "integer_one"

def ofName? (s : String) : Option CommonNode := all.find? (·.name == s)

/-- The common node at an id, if the id is one of the first 22. -/
def ofId? (id : NodeId) : Option CommonNode := all[id.val]?

/-- The ids of every common node, in registration order. -/
def ids : List NodeId := all.map id

/-- A scalar type of the given code and precision that is its own main variant. -/
def scalarType (self : Nat) (code : TreeCode) (precision : UInt32) (unsigned : Bool) : Node :=
  { code, flags := { unsigned := unsigned },
    data := .type { precision, align := min precision 64, mainVariant := some ⟨self⟩ } }

/-- An `int` constant with a low word. -/
def intConstant (low : UInt64) : Node :=
  { code := .integerCst, ty := some intType.id, flags := { constant := true }, data := .int low 0 }

/-- The node each common entry starts as. -/
def node : CommonNode → Node
  | errorMark => Node.fresh .errorMark
  | voidType =>
    let t := scalarType 1 .voidType 0 false
    { t with data := .type { precision := 0, align := 0, mainVariant := some ⟨1⟩,
                             pointerTo := some ptrType.id } }
  | booleanType => scalarType 2 .booleanType 1 true
  | charType => scalarType 3 .integerType 8 false
  | signedCharType => scalarType 4 .integerType 8 false
  | unsignedCharType => scalarType 5 .integerType 8 true
  | shortType => scalarType 6 .integerType 16 false
  | unsignedShortType => scalarType 7 .integerType 16 true
  | intType => scalarType 8 .integerType 32 false
  | unsignedType => scalarType 9 .integerType 32 true
  | longType => scalarType 10 .integerType 64 false
  | unsignedLongType => scalarType 11 .integerType 64 true
  | longLongType => scalarType 12 .integerType 64 false
  | unsignedLongLongType => scalarType 13 .integerType 64 true
  | floatType => scalarType 14 .realType 32 false
  | doubleType => scalarType 15 .realType 64 false
  | longDoubleType => scalarType 16 .realType 128 false
  | sizeType => scalarType 17 .integerType 64 true
  | ptrType => { scalarType 18 .pointerType 64 true with ty := some voidType.id }
  | voidList => { Node.fresh .treeList with data := .list [(some voidType.id, none)] }
  | integerZero => intConstant 0
  | integerOne => intConstant 1

/-- An arena holding exactly the common nodes. -/
def arena : Arena := { nodes := (all.map node).toArray }

end CommonNode

end IrStream
