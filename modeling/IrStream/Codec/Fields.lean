import IrStream.Tree.Node

/-!
The streamed fields of declarations, types and binfos. Each kind streams a
fixed subset of its record's fields in a fixed order; writer and reader walk
the same list, so they cannot disagree on the layout. A field is a single
link, a counted list of links, or a 32-bit scalar.
-/

namespace IrStream

/-- One streamed field of records of type `ρ`. -/
inductive RecordField (ρ : Type) where
  | link (get : ρ → Option NodeId) (set : ρ → Option NodeId → ρ)
  | links (get : ρ → List (Option NodeId)) (set : ρ → List (Option NodeId) → ρ)
  | scalar (get : ρ → UInt32) (set : ρ → UInt32 → ρ)

namespace RecordField

def ofDeclLink (l : DeclLink) : RecordField DeclData := .link (·.link l) (fun d v => d.setLink v l)

def ofTypeLink (l : TypeLink) : RecordField TypeData := .link (·.link l) (fun d v => d.setLink v l)

def ofBinfoLink (l : BinfoLink) : RecordField BinfoData :=
  .link (·.link l) (fun d v => d.setLink v l)

def declAlign : RecordField DeclData := .scalar (·.align) fun d v => { d with align := v }
def declOffAlign : RecordField DeclData := .scalar (·.offAlign) fun d v => { d with offAlign := v }
def declMode : RecordField DeclData := .scalar (·.mode) fun d v => { d with mode := v }
def declBuiltinCode : RecordField DeclData :=
  .scalar (·.builtinCode) fun d v => { d with builtinCode := v }

def typePrecision : RecordField TypeData :=
  .scalar (·.precision) fun d v => { d with precision := v }
def typeMode : RecordField TypeData := .scalar (·.mode) fun d v => { d with mode := v }
def typeAlign : RecordField TypeData := .scalar (·.align) fun d v => { d with align := v }

end RecordField

open RecordField in
/-- The declaration fields streamed for a declaration kind, in order. -/
def declFields (code : TreeCode) : List (RecordField DeclData) :=
  match code with
  | .functionDecl =>
    [ofDeclLink .name, ofDeclLink .context, ofDeclLink .assemblerName, ofDeclLink .sectionName,
      ofDeclLink .comdatGroup, ofDeclLink .attributes, ofDeclLink .abstractOrigin,
      ofDeclLink .result, ofDeclLink .personality, ofDeclLink .vindex, declBuiltinCode]
  | .varDecl =>
    [ofDeclLink .name, ofDeclLink .context, ofDeclLink .assemblerName, ofDeclLink .sectionName,
      ofDeclLink .comdatGroup, ofDeclLink .attributes, ofDeclLink .abstractOrigin,
      ofDeclLink .size, ofDeclLink .sizeUnit, declAlign, declMode, ofDeclLink .initial,
      ofDeclLink .debugExpr, ofDeclLink .valueExpr]
  | .fieldDecl =>
    [ofDeclLink .name, ofDeclLink .context, ofDeclLink .size, ofDeclLink .sizeUnit, declAlign,
      declOffAlign, declMode, ofDeclLink .fieldOffset, ofDeclLink .bitFieldType,
      ofDeclLink .qualifier, ofDeclLink .bitOffset, ofDeclLink .fieldContext,
      ofDeclLink .initial, ofDeclLink .attributes, ofDeclLink .chain]
  | .parmDecl =>
    [ofDeclLink .name, ofDeclLink .context, ofDeclLink .size, ofDeclLink .sizeUnit, declAlign,
      declMode, ofDeclLink .argType, ofDeclLink .chain, ofDeclLink .attributes]
  | .resultDecl =>
    [ofDeclLink .name, ofDeclLink .context, ofDeclLink .size, ofDeclLink .sizeUnit, declAlign,
      declMode, ofDeclLink .attributes]
  | .typeDecl =>
    [ofDeclLink .name, ofDeclLink .context, ofDeclLink .attributes, ofDeclLink .abstractOrigin]
  | .constDecl => [ofDeclLink .name, ofDeclLink .context, ofDeclLink .initial]
  | _ => [ofDeclLink .name, ofDeclLink .context]

open RecordField in
/-- The type fields every type kind streams. -/
def typeCommonFields : List (RecordField TypeData) :=
  [ofTypeLink .name, ofTypeLink .context, ofTypeLink .size, ofTypeLink .sizeUnit,
    ofTypeLink .attributes, typePrecision, typeMode, typeAlign, ofTypeLink .mainVariant,
    ofTypeLink .nextVariant, ofTypeLink .canonical, ofTypeLink .stubDecl, ofTypeLink .pointerTo,
    ofTypeLink .referenceTo]

open RecordField in
/-- The type fields streamed for a type kind, in order: the common fields,
then bounds, values and binfo as the kind has them. -/
def typeFields (code : TreeCode) : List (RecordField TypeData) :=
  let bounds := [ofTypeLink .minValue, ofTypeLink .maxValue]
  let values := [ofTypeLink .values]
  let binfo := [ofTypeLink .binfo]
  match code with
  | .integerType | .booleanType | .realType => typeCommonFields ++ bounds
  | .enumeralType => typeCommonFields ++ bounds ++ values
  | .recordType | .unionType | .qualUnionType => typeCommonFields ++ values ++ binfo
  | .arrayType | .functionType | .methodType => typeCommonFields ++ values
  | _ => typeCommonFields

open RecordField in
/-- The binfo fields, in order. -/
def binfoFields : List (RecordField BinfoData) :=
  [ofBinfoLink .offset, ofBinfoLink .vtable, ofBinfoLink .virtuals, ofBinfoLink .vptrField,
    ofBinfoLink .vttSubvtt, ofBinfoLink .vttVptr,
    .links (·.baseAccesses) fun d v => { d with baseAccesses := v },
    .links (·.baseBinfos) fun d v => { d with baseBinfos := v },
    ofBinfoLink .chain]

end IrStream
