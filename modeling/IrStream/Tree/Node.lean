import IrStream.Tree.Code
import IrStream.Tree.Locus
import IrStream.Flags.Tree

/-!
Tree nodes. Nodes live in an arena and refer to each other by `NodeId`:
sharing is two parents holding the same id, a cycle is an id that leads back
to an ancestor. Every child slot is an optional id, so that generic passes
(reference rewriting, structural comparison, dumps) walk any node through
`Node.children` without knowing its kind. The payload's constructor is fixed
by the code's layout (`NodeData.ofLayout`).
-/

namespace IrStream

/-- Index of a node in its arena. -/
structure NodeId where
  val : Nat
  deriving DecidableEq, Repr, Inhabited, Hashable, Ord

instance : ToString NodeId := ⟨fun n => s!"n{n.val}"⟩
instance : LT NodeId := ⟨fun a b => a.val < b.val⟩
instance (a b : NodeId) : Decidable (a < b) := inferInstanceAs (Decidable (a.val < b.val))

/-- Fields of a type node. -/
structure TypeData where
  size : Option NodeId := none
  sizeUnit : Option NodeId := none
  attributes : Option NodeId := none
  name : Option NodeId := none
  context : Option NodeId := none
  minValue : Option NodeId := none
  maxValue : Option NodeId := none
  values : Option NodeId := none
  binfo : Option NodeId := none
  mainVariant : Option NodeId := none
  nextVariant : Option NodeId := none
  canonical : Option NodeId := none
  stubDecl : Option NodeId := none
  pointerTo : Option NodeId := none
  referenceTo : Option NodeId := none
  precision : UInt32 := 0
  mode : UInt32 := 0
  align : UInt32 := 0
  deriving DecidableEq, Repr, Inhabited

/-- The node links of a type, in stream order. -/
inductive TypeLink where
  | size | sizeUnit | attributes | name | context | minValue | maxValue | values
  | binfo | mainVariant | nextVariant | canonical | stubDecl | pointerTo | referenceTo
  deriving DecidableEq, Repr, Inhabited

namespace TypeLink

def all : List TypeLink := [
  .size, .sizeUnit, .attributes, .name, .context, .minValue, .maxValue, .values, .binfo,
  .mainVariant, .nextVariant, .canonical, .stubDecl, .pointerTo, .referenceTo]

/-- The name of the link in dumps. -/
def label : TypeLink → String
  | .size => "size"
  | .sizeUnit => "size_unit"
  | .attributes => "attributes"
  | .name => "name"
  | .context => "context"
  | .minValue => "min_value"
  | .maxValue => "max_value"
  | .values => "values"
  | .binfo => "binfo"
  | .mainVariant => "main_variant"
  | .nextVariant => "next_variant"
  | .canonical => "canonical"
  | .stubDecl => "stub_decl"
  | .pointerTo => "pointer_to"
  | .referenceTo => "reference_to"

end TypeLink

namespace TypeData

def link (d : TypeData) : TypeLink → Option NodeId
  | .size => d.size
  | .sizeUnit => d.sizeUnit
  | .attributes => d.attributes
  | .name => d.name
  | .context => d.context
  | .minValue => d.minValue
  | .maxValue => d.maxValue
  | .values => d.values
  | .binfo => d.binfo
  | .mainVariant => d.mainVariant
  | .nextVariant => d.nextVariant
  | .canonical => d.canonical
  | .stubDecl => d.stubDecl
  | .pointerTo => d.pointerTo
  | .referenceTo => d.referenceTo

def setLink (d : TypeData) (v : Option NodeId) : TypeLink → TypeData
  | .size => { d with size := v }
  | .sizeUnit => { d with sizeUnit := v }
  | .attributes => { d with attributes := v }
  | .name => { d with name := v }
  | .context => { d with context := v }
  | .minValue => { d with minValue := v }
  | .maxValue => { d with maxValue := v }
  | .values => { d with values := v }
  | .binfo => { d with binfo := v }
  | .mainVariant => { d with mainVariant := v }
  | .nextVariant => { d with nextVariant := v }
  | .canonical => { d with canonical := v }
  | .stubDecl => { d with stubDecl := v }
  | .pointerTo => { d with pointerTo := v }
  | .referenceTo => { d with referenceTo := v }

/-- Every link, in stream order. -/
def links (d : TypeData) : List (Option NodeId) := [
  d.size, d.sizeUnit, d.attributes, d.name, d.context, d.minValue, d.maxValue, d.values, d.binfo,
  d.mainVariant, d.nextVariant, d.canonical, d.stubDecl, d.pointerTo, d.referenceTo]

/-- Every link passed through `f`. -/
def mapLinks (f : Option NodeId → Option NodeId) (d : TypeData) : TypeData :=
  { d with
    size := f d.size,
    sizeUnit := f d.sizeUnit,
    attributes := f d.attributes,
    name := f d.name,
    context := f d.context,
    minValue := f d.minValue,
    maxValue := f d.maxValue,
    values := f d.values,
    binfo := f d.binfo,
    mainVariant := f d.mainVariant,
    nextVariant := f d.nextVariant,
    canonical := f d.canonical,
    stubDecl := f d.stubDecl,
    pointerTo := f d.pointerTo,
    referenceTo := f d.referenceTo }

end TypeData

/-- Fields of a declaration node; each kind uses the subset that applies to it. -/
structure DeclData where
  name : Option NodeId := none
  context : Option NodeId := none
  assemblerName : Option NodeId := none
  sectionName : Option NodeId := none
  comdatGroup : Option NodeId := none
  attributes : Option NodeId := none
  abstractOrigin : Option NodeId := none
  size : Option NodeId := none
  sizeUnit : Option NodeId := none
  initial : Option NodeId := none
  result : Option NodeId := none
  personality : Option NodeId := none
  vindex : Option NodeId := none
  fieldOffset : Option NodeId := none
  bitFieldType : Option NodeId := none
  qualifier : Option NodeId := none
  bitOffset : Option NodeId := none
  fieldContext : Option NodeId := none
  argType : Option NodeId := none
  chain : Option NodeId := none
  debugExpr : Option NodeId := none
  valueExpr : Option NodeId := none
  align : UInt32 := 0
  offAlign : UInt32 := 0
  mode : UInt32 := 0
  builtinCode : UInt32 := 0
  deriving DecidableEq, Repr, Inhabited

/-- The node links of a declaration, in stream order. -/
inductive DeclLink where
  | name | context | assemblerName | sectionName | comdatGroup | attributes | abstractOrigin | size
  | sizeUnit | initial | result | personality | vindex | fieldOffset | bitFieldType | qualifier
  | bitOffset | fieldContext | argType | chain | debugExpr | valueExpr
  deriving DecidableEq, Repr, Inhabited

namespace DeclLink

def all : List DeclLink := [
  .name, .context, .assemblerName, .sectionName, .comdatGroup, .attributes, .abstractOrigin,
  .size, .sizeUnit, .initial, .result, .personality, .vindex, .fieldOffset, .bitFieldType,
  .qualifier, .bitOffset, .fieldContext, .argType, .chain, .debugExpr, .valueExpr]

/-- The name of the link in dumps. -/
def label : DeclLink → String
  | .name => "name"
  | .context => "context"
  | .assemblerName => "assembler_name"
  | .sectionName => "section_name"
  | .comdatGroup => "comdat_group"
  | .attributes => "attributes"
  | .abstractOrigin => "abstract_origin"
  | .size => "size"
  | .sizeUnit => "size_unit"
  | .initial => "initial"
  | .result => "result"
  | .personality => "personality"
  | .vindex => "vindex"
  | .fieldOffset => "field_offset"
  | .bitFieldType => "bit_field_type"
  | .qualifier => "qualifier"
  | .bitOffset => "bit_offset"
  | .fieldContext => "field_context"
  | .argType => "arg_type"
  | .chain => "chain"
  | .debugExpr => "debug_expr"
  | .valueExpr => "value_expr"

end DeclLink

namespace DeclData

def link (d : DeclData) : DeclLink → Option NodeId
  | .name => d.name
  | .context => d.context
  | .assemblerName => d.assemblerName
  | .sectionName => d.sectionName
  | .comdatGroup => d.comdatGroup
  | .attributes => d.attributes
  | .abstractOrigin => d.abstractOrigin
  | .size => d.size
  | .sizeUnit => d.sizeUnit
  | .initial => d.initial
  | .result => d.result
  | .personality => d.personality
  | .vindex => d.vindex
  | .fieldOffset => d.fieldOffset
  | .bitFieldType => d.bitFieldType
  | .qualifier => d.qualifier
  | .bitOffset => d.bitOffset
  | .fieldContext => d.fieldContext
  | .argType => d.argType
  | .chain => d.chain
  | .debugExpr => d.debugExpr
  | .valueExpr => d.valueExpr

def setLink (d : DeclData) (v : Option NodeId) : DeclLink → DeclData
  | .name => { d with name := v }
  | .context => { d with context := v }
  | .assemblerName => { d with assemblerName := v }
  | .sectionName => { d with sectionName := v }
  | .comdatGroup => { d with comdatGroup := v }
  | .attributes => { d with attributes := v }
  | .abstractOrigin => { d with abstractOrigin := v }
  | .size => { d with size := v }
  | .sizeUnit => { d with sizeUnit := v }
  | .initial => { d with initial := v }
  | .result => { d with result := v }
  | .personality => { d with personality := v }
  | .vindex => { d with vindex := v }
  | .fieldOffset => { d with fieldOffset := v }
  | .bitFieldType => { d with bitFieldType := v }
  | .qualifier => { d with qualifier := v }
  | .bitOffset => { d with bitOffset := v }
  | .fieldContext => { d with fieldContext := v }
  | .argType => { d with argType := v }
  | .chain => { d with chain := v }
  | .debugExpr => { d with debugExpr := v }
  | .valueExpr => { d with valueExpr := v }

/-- Every link, in stream order. -/
def links (d : DeclData) : List (Option NodeId) := [
  d.name, d.context, d.assemblerName, d.sectionName, d.comdatGroup, d.attributes,
  d.abstractOrigin, d.size, d.sizeUnit, d.initial, d.result, d.personality, d.vindex,
  d.fieldOffset, d.bitFieldType, d.qualifier, d.bitOffset, d.fieldContext, d.argType, d.chain,
  d.debugExpr, d.valueExpr]

/-- Every link passed through `f`. -/
def mapLinks (f : Option NodeId → Option NodeId) (d : DeclData) : DeclData :=
  { d with
    name := f d.name,
    context := f d.context,
    assemblerName := f d.assemblerName,
    sectionName := f d.sectionName,
    comdatGroup := f d.comdatGroup,
    attributes := f d.attributes,
    abstractOrigin := f d.abstractOrigin,
    size := f d.size,
    sizeUnit := f d.sizeUnit,
    initial := f d.initial,
    result := f d.result,
    personality := f d.personality,
    vindex := f d.vindex,
    fieldOffset := f d.fieldOffset,
    bitFieldType := f d.bitFieldType,
    qualifier := f d.qualifier,
    bitOffset := f d.bitOffset,
    fieldContext := f d.fieldContext,
    argType := f d.argType,
    chain := f d.chain,
    debugExpr := f d.debugExpr,
    valueExpr := f d.valueExpr }

end DeclData

/-- Inheritance descriptor of a record type. -/
structure BinfoData where
  offset : Option NodeId := none
  vtable : Option NodeId := none
  virtuals : Option NodeId := none
  vptrField : Option NodeId := none
  vttSubvtt : Option NodeId := none
  vttVptr : Option NodeId := none
  chain : Option NodeId := none
  baseAccesses : List (Option NodeId) := []
  baseBinfos : List (Option NodeId) := []
  deriving DecidableEq, Repr, Inhabited

/-- The node links of a binfo, in stream order. -/
inductive BinfoLink where
  | offset | vtable | virtuals | vptrField | vttSubvtt | vttVptr | chain
  deriving DecidableEq, Repr, Inhabited

namespace BinfoLink

def all : List BinfoLink := [
  .offset, .vtable, .virtuals, .vptrField, .vttSubvtt, .vttVptr, .chain]

/-- The name of the link in dumps. -/
def label : BinfoLink → String
  | .offset => "offset"
  | .vtable => "vtable"
  | .virtuals => "virtuals"
  | .vptrField => "vptr_field"
  | .vttSubvtt => "vtt_subvtt"
  | .vttVptr => "vtt_vptr"
  | .chain => "chain"

end BinfoLink

namespace BinfoData

def link (d : BinfoData) : BinfoLink → Option NodeId
  | .offset => d.offset
  | .vtable => d.vtable
  | .virtuals => d.virtuals
  | .vptrField => d.vptrField
  | .vttSubvtt => d.vttSubvtt
  | .vttVptr => d.vttVptr
  | .chain => d.chain

def setLink (d : BinfoData) (v : Option NodeId) : BinfoLink → BinfoData
  | .offset => { d with offset := v }
  | .vtable => { d with vtable := v }
  | .virtuals => { d with virtuals := v }
  | .vptrField => { d with vptrField := v }
  | .vttSubvtt => { d with vttSubvtt := v }
  | .vttVptr => { d with vttVptr := v }
  | .chain => { d with chain := v }

/-- Every link, in stream order. -/
def links (d : BinfoData) : List (Option NodeId) := [
  d.offset, d.vtable, d.virtuals, d.vptrField, d.vttSubvtt, d.vttVptr, d.chain]

/-- Every link passed through `f`. -/
def mapLinks (f : Option NodeId → Option NodeId) (d : BinfoData) : BinfoData :=
  { d with
    offset := f d.offset,
    vtable := f d.vtable,
    virtuals := f d.virtuals,
    vptrField := f d.vptrField,
    vttSubvtt := f d.vttSubvtt,
    vttVptr := f d.vttVptr,
    chain := f d.chain }

end BinfoData

/-- Kind-specific payload of a node. -/
inductive NodeData where
  | empty
  | identifier (name : String)
  /-- Two-word integer constant. -/
  | int (low : UInt64) (high : Int64)
  /-- IEEE double, kept as raw bits so that equality is exact. -/
  | real (bits : UInt64)
  | str (bytes : List UInt8)
  | complex (real imag : Option NodeId)
  | vector (elts : List (Option NodeId))
  /-- (value, purpose) pairs. -/
  | list (entries : List (Option NodeId × Option NodeId))
  | vec (elts : List (Option NodeId))
  | operands (ops : List (Option NodeId))
  | call (func staticChain : Option NodeId) (args : List (Option NodeId))
  /-- (index, value) pairs. -/
  | constructor (elts : List (Option NodeId × Option NodeId))
  | caseLabel (low high label : Option NodeId)
  | asm (text : List UInt8) (inputs outputs clobbers : Option NodeId)
  | ssa (version : UInt32) (var : Option NodeId)
  | type (t : TypeData)
  | decl (d : DeclData)
  | binfo (b : BinfoData)
  deriving DecidableEq, Repr, Inhabited

namespace NodeData

/-- The empty payload of a layout: no operands, default fields. -/
def ofLayout : Layout → NodeData
  | .identifier => .identifier ""
  | .integerCst => .int 0 0
  | .realCst => .real 0
  | .complexCst => .complex none none
  | .vectorCst => .vector []
  | .stringCst => .str []
  | .list => .list []
  | .vec => .vec []
  | .binfo => .binfo {}
  | .type => .type {}
  | .decl => .decl {}
  | .constructor => .constructor []
  | .call => .call none none []
  | .caseLabel => .caseLabel none none none
  | .asm => .asm [] none none none
  | .ssaName => .ssa 0 none
  | .operands 0 => .empty
  | .operands n => .operands (List.replicate n none)

/-- Both halves of each pair, in order. -/
def pairSlots (ps : List (Option NodeId × Option NodeId)) : List (Option NodeId) :=
  ps.flatMap fun p => [p.1, p.2]

/-- Every child slot of the payload, in stream order. -/
def children : NodeData → List (Option NodeId)
  | .empty | .identifier _ | .int .. | .real _ | .str _ => []
  | .complex r i => [r, i]
  | .vector elts | .vec elts | .operands elts => elts
  | .list entries => pairSlots entries
  | .call f c args => f :: c :: args
  | .constructor elts => pairSlots elts
  | .caseLabel l h lab => [l, h, lab]
  | .asm _ i o c => [i, o, c]
  | .ssa _ v => [v]
  | .type t => t.links
  | .decl d => d.links
  | .binfo b => [b.offset, b.vtable, b.virtuals, b.vptrField, b.vttSubvtt, b.vttVptr, b.chain] ++
      b.baseAccesses ++ b.baseBinfos

/-- Every child slot passed through `f`; nothing else changes. -/
def mapChildren (f : Option NodeId → Option NodeId) : NodeData → NodeData
  | .complex r i => .complex (f r) (f i)
  | .vector elts => .vector (elts.map f)
  | .vec elts => .vec (elts.map f)
  | .operands elts => .operands (elts.map f)
  | .list entries => .list (entries.map fun p => (f p.1, f p.2))
  | .call fn c args => .call (f fn) (f c) (args.map f)
  | .constructor elts => .constructor (elts.map fun p => (f p.1, f p.2))
  | .caseLabel l h lab => .caseLabel (f l) (f h) (f lab)
  | .asm s i o c => .asm s (f i) (f o) (f c)
  | .ssa v var => .ssa v (f var)
  | .type t => .type (t.mapLinks f)
  | .decl d => .decl (d.mapLinks f)
  | .binfo b => .binfo { b.mapLinks f with
      baseAccesses := b.baseAccesses.map f, baseBinfos := b.baseBinfos.map f }
  | d => d

/-- Equal apart from child ids: same constructor, same scalars and the same
length of every variable-length child list. -/
def sameShape : NodeData → NodeData → Bool
  | .empty, .empty => true
  | .identifier a, .identifier b => a == b
  | .int a b, .int c d => a == c && b == d
  | .real a, .real b => a == b
  | .str a, .str b => a == b
  | .complex .., .complex .. => true
  | .vector a, .vector b | .vec a, .vec b | .operands a, .operands b => a.length == b.length
  | .list a, .list b => a.length == b.length
  | .call _ _ a, .call _ _ b => a.length == b.length
  | .constructor a, .constructor b => a.length == b.length
  | .caseLabel .., .caseLabel .. => true
  | .asm a .., .asm b .. => a == b
  | .ssa a _, .ssa b _ => a == b
  | .type a, .type b => a.precision == b.precision && a.mode == b.mode && a.align == b.align
  | .decl a, .decl b =>
    a.align == b.align && a.offAlign == b.offAlign && a.mode == b.mode &&
      a.builtinCode == b.builtinCode
  | .binfo a, .binfo b =>
    a.baseAccesses.length == b.baseAccesses.length && a.baseBinfos.length == b.baseBinfos.length
  | _, _ => false

end NodeData

/-- One tree node. -/
structure Node where
  code : TreeCode
  /-- The node's own type: pointee for pointers, return type for function
  types, value type for expressions and declarations. -/
  ty : Option NodeId := none
  flags : TreeFlags := {}
  locus : Option Locus := none
  data : NodeData
  deriving DecidableEq, Repr, Inhabited

namespace Node

/-- A node of the given kind with the empty payload of its layout and default flags. -/
def fresh (code : TreeCode) : Node := { code, data := NodeData.ofLayout code.layout }

/-- The type slot followed by every payload slot. -/
def children (n : Node) : List (Option NodeId) := n.ty :: n.data.children

/-- Every child slot, the type slot included, passed through `f`. -/
def mapChildren (f : Option NodeId → Option NodeId) (n : Node) : Node :=
  { n with ty := f n.ty, data := n.data.mapChildren f }

def decl? (n : Node) : Option DeclData :=
  match n.data with
  | .decl d => some d
  | _ => none

def typeData? (n : Node) : Option TypeData :=
  match n.data with
  | .type t => some t
  | _ => none

/-- The spelling of an identifier node. -/
def identifier? (n : Node) : Option String :=
  match n.data with
  | .identifier s => some s
  | _ => none

end Node

end IrStream
