import IrStream.Service.Reply
import IrStream.Service.ProgramInput
import IrStream.View.Nodes
import IrStream.Codec.Tables
import IrStream.Wire.Position
import IrStream.Flags.Side

/-!
Requests on the fixed tables of the format: flag words, tree codes and tags,
delta-coded positions and label numbering.
-/

namespace IrStream.Service

/-- `word` and `width` of the attributes in `d` packed by `fields`; `all`
names every attribute the record has. -/
def packWith (all fields : List (FlagField ρ)) (base : ρ) (d : Doc) : Decode Doc := do
  let value ← flagsFrom all base d
  return .obj [("word", .nat (Flags.pack fields value)), ("width", .nat (Flags.width fields))]

/-- The attributes `fields` set from the low end of `word`. -/
def unpackWith (all fields : List (FlagField ρ)) (base : ρ) (word : Nat) : Doc :=
  .obj [("flags", View.flags all base (Flags.unpack fields word base))]

def treeTable? (table : String) : Option TreeCode :=
  match table.toList with
  | 't' :: 'r' :: 'e' :: 'e' :: ':' :: rest => TreeCode.ofName? (String.ofList rest)
  | _ => none

/-- Dispatch on the name of a flag table. -/
def withTable (table : String)
    (k : ∀ {ρ : Type}, List (FlagField ρ) → List (FlagField ρ) → ρ → Decode Doc) :
    Decode Doc :=
  match table with
  | "function_body" => k FunctionFlags.fields FunctionFlags.fields {}
  | "stmt" => k StmtFlags.fields StmtFlags.fields {}
  | "cgraph_node" => k CgraphFlags.fields CgraphFlags.fields {}
  | "cgraph_edge" => k EdgeFlags.fields EdgeFlags.fields {}
  | _ =>
    match treeTable? table with
    | some code => k TreeFlags.fields (TreeFlags.streamed code) {}
    | none => refuse s!"unknown flag table {table}"

def packFlags (req : Doc) : Decode Doc := do
  withTable (← requiredText req "table") fun all fields base => packWith all fields base (req.field "flags")

def unpackFlags (req : Doc) : Decode Doc := do
  let word := (← u64At req "word").toNat
  withTable (← requiredText req "table") fun all fields base => pure (unpackWith all fields base word)

def codeInfo (req : Doc) : Decode Doc := do
  let name ← requiredText req "code"
  let some code := TreeCode.ofName? name | refuse s!"unknown tree code {name}"
  return .obj [("tag", .nat (Tag.ofCode code)),
    ("category", Doc.opt (fun c => .str c.name) (DeclCategory.ofCode? code)),
    ("global_indexable", .bool code.isGlobalIndexable), ("streams_type", .bool code.streamsType),
    ("arity", Doc.opt .nat code.arity?), ("flag_width", .nat (Flags.width (TreeFlags.streamed code))),
    ("layout", .str code.layout.label), ("class", .str code.treeClass.label)]

def tagInfo (req : Doc) : Decode Doc := do
  let tag := (← u8Named "tag" (req.field "tag")).toNat
  return .obj [("tree_code", Doc.opt (fun c => .str c.name) (Tag.code? tag)),
    ("category", Doc.opt (fun c => .str c.name) (DeclCategory.ofTag? tag))]

/-- Read position-carrying words until the end; the first error ends the list. -/
def readPositions (strings : ByteArray) : Nat → Position.Last → CursorM (List Doc)
  | 0, _ => return []
  | fuel + 1, last => do
    if ← CursorM.isAtEnd then return []
    let c ← get
    match (PositionReader.read last strings).run c with
    | .ok (packed, locus, last) c =>
      set c
      return .arr [.nat packed.toNat, View.locus locus] :: (← readPositions strings fuel last)
    | .error e _ => return [streamError e]

/-- Read `count` words; the first error ends the list. -/
def readPositionCount (strings : ByteArray) : Nat → Position.Last → CursorM (List Doc)
  | 0, _ => return []
  | count + 1, last => do
    let c ← get
    match (PositionReader.read last strings).run c with
    | .ok (packed, locus, last) c =>
      set c
      return .arr [.nat packed.toNat, View.locus locus] :: (← readPositionCount strings count last)
    | .error e _ => return [streamError e]

def runList (name : String) (data : ByteArray) (m : CursorM (List Doc)) : List Doc :=
  match Cursor.run name data m with
  | .ok ds _ => ds
  | .error e _ => [streamError e]

/-- `locus`: write every item with one writer, then read as many words back. -/
def locusItems (req : Doc) : Decode Doc := do
  let enabled := boolOn (req.field "enabled")
  let items ← (← list (req.field "items")).mapM fun it => do
    return ((← u64At it "packed"), ← locusOf (it.field "locus"))
  let (out, strings, _) := items.foldl (fun (acc : ByteArray × StringTable × PositionWriter) it =>
    let (out, strings, w) := acc
    w.write out strings it.1 it.2) (.empty, {}, { enabled })
  let read := runList "main" out (readPositionCount strings.stream items.length {})
  return .obj [("main", hexDoc out), ("strings", hexDoc strings.stream), ("read", .arr read)]

def locusRead (req : Doc) : Decode Doc := do
  let main ← hexOrEmpty (req.field "main")
  let strings ← hexOrEmpty (req.field "strings")
  return .obj [("read", .arr (runList "main" main (readPositions strings (main.size + 1) {})))]

def labelTable (req : Doc) : Decode Doc := do
  let step (acc : LabelTable × List Doc) (e : Doc) : Decode (LabelTable × List Doc) := do
    match e with
    | .arr [id, named] =>
      let (i, t) := acc.1.encode ⟨(← u32Named "label" id).toNat⟩ (isTrue named)
      return (t, .int i :: acc.2)
    | _ => refuse "expected a label and a flag"
  let (t, results) ← (← list (req.field "encode")).foldlM step ({}, [])
  return .obj [("results", .arr results.reverse),
    ("named", .arr (t.named.toList.map fun n => .nat n.val)), ("num_unnamed", .nat t.unnamed)]

end IrStream.Service
