import IrStream.Body.Function
import IrStream.Section.Header
import IrStream.Codec.Cfg
import IrStream.Codec.Eh
import IrStream.Codec.Blocks
import IrStream.Codec.Locals

/-!
Function body sections. A body is written with its own string table and
back-references and with function-local tables for locals, labels and SSA
names; declarations it mentions go into the unit's tables, which the reader
must be given. The section carries seven streams: named labels, SSA names,
the control-flow graph, the local record index, the local records, the main
stream (function record, regions, arguments, blocks) and the strings.
-/

namespace IrStream

namespace WriteM

/-- The SSA stream: the table's length, then each present name's version,
variable and flag word, closed by version 0. -/
def writeSsaNames (out : ByteArray) (body : FunctionBody) : WriteM ByteArray := do
  let mut out := Out.uleb out body.ssaNames.length.toUInt64
  for (name?, version) in body.ssaNames.zipIdx do
    if version == 0 then continue
    let some name := name? | continue
    let n := (← get).program.node name
    match n.data with
    | .ssa _ var =>
      out ← writeTree (Out.uleb out version.toUInt64) var
      out := Out.uleb out (Flags.pack (TreeFlags.streamed .ssaName) n.flags).toUInt64
    | _ => fail (.consistency s!"{name}: ssa version {version} is a {n.code}")
  return Out.uleb out 0

/-- The main stream: the function record, its trees and regions, then every
present block, closed by a null tag. -/
def writeMain (body : FunctionBody) : WriteM ByteArray := do
  let out := Out.uleb (Out.u8 .empty Tag.function.toUInt8) (Flags.pack FunctionFlags.fields body.flags).toUInt64
  let out ← writeTree out body.staticChain
  let out ← writeTree out body.nonlocalGotoSaveArea
  let out ← match body.eh with
    | some eh => writeEhTable out eh
    | none => pure (Out.u8 out Tag.null.toUInt8)
  let out ← writeTree out body.arguments
  let out ← body.cfg.present.foldlM writeBlock out
  return Out.u8 out Tag.null.toUInt8

end WriteM

/-- The section of `body`, and the unit tables extended by the declarations
it mentions. -/
def FunctionBody.writeSection (program : Program) (decls : OutDeclState) (body : FunctionBody)
    (emitLocations : Bool) : Except StreamError (ByteArray × OutDeclState) := do
  let write : WriteM ByteArray := do
    let localDecls ← WriteM.writeLocalPreamble .empty body.localDecls
    let ssa ← WriteM.writeSsaNames .empty body
    let main ← WriteM.writeMain body
    let (localDecls, offsets) ← WriteM.writeLocalRecords localDecls
    let localIndex := offsets.foldl Out.uleb .empty
    let cfg := Cfg.write .empty body.cfg
    let w ← get
    let some scope := w.scope | WriteM.fail (.consistency "function scope lost while writing")
    let mut namedLabels := ByteArray.empty
    for label in scope.labels.named do
      let name := ((program.node label).decl?.bind (·.name)).bind program.arena.identifierName?
      namedLabels ← WriteM.stringRef namedLabels (name.map String.toUTF8)
    let counts : BodyCounts :=
      { localDecls := offsets.length.toUInt32
        namedLabels := scope.labels.named.size.toUInt32
        unnamedLabels := scope.labels.unnamed.toUInt32 }
    let strings := (← get).strings.stream
    match SectionData.write .functionBody counts
        [("named labels", namedLabels), ("ssa names", ssa), ("cfg", cfg),
         ("local decl index", localIndex), ("local decls", localDecls), ("main", main),
         ("strings", strings)] with
    | .ok bytes => return bytes
    | .error e => WriteM.fail e
  let start := { TreeWriter.new program decls emitLocations with
    scope := some (LocalScope.new body.decl body.localDecls) }
  let (bytes, w) ← write.run start
  return (bytes, w.decls)

namespace ReadM

/-- Block slots a graph may declare beyond the bytes that describe them. -/
def maxUnwrittenSsaNames : Nat := Nat.pow 2 20

/-- The SSA stream: names are made afresh, typed like their variables. -/
def readSsaNames : ReadM (List (Option NodeId)) := do
  let len ← onCursor CursorM.readUleb
  let len ← onCursor (CursorM.checkCount "ssa name" len maxUnwrittenSsaNames)
  let mut names : Array (Option NodeId) := Array.replicate (max len 1) none
  for _ in [0:(← get).cursor.remaining + 1] do
    let version ← onCursor CursorM.readU32
    if version == 0 then return names.toList
    let var ← readTree
    let packed ← onCursor CursorM.readUleb
    if names.size ≤ version.toNat then
      fail (.indexOutOfRange "ssa name" version.toUInt64.toInt64 len)
    let program := (← get).program
    let ty := var.bind fun v => (program.node v).ty
    let flags := Flags.unpack (TreeFlags.streamed .ssaName) packed.toNat {}
    let id ← alloc { code := .ssaName, ty, flags, data := .ssa version var }
    names := names.set! version.toNat (some id)
  return names.toList

/-- The main stream of a body after the scope is set up. -/
def readMain (function : NodeId) (cfg : Cfg) : ReadM FunctionBody := do
  let tag := (← onCursor CursorM.readU8).toNat
  if tag != Tag.function then fail (.unknownTag tag.toUInt64 "function record")
  let flags := Flags.unpack FunctionFlags.fields (← onCursor CursorM.readUleb).toNat {}
  let staticChain ← readTree
  let nonlocalGotoSaveArea ← readTree
  let ehTag := (← onCursor CursorM.readU8).toNat
  let eh ← if ehTag == Tag.null then pure none
    else if ehTag == Tag.ehTable then some <$> readEhTable
    else fail (.unknownTag ehTag.toUInt64 "eh table")
  let arguments ← readTree
  let cfg ← readBlocks (← remainingFuel) cfg
  return { decl := function, flags, staticChain, nonlocalGotoSaveArea, eh, arguments, cfg }

end ReadM

/-- A cursor over one stream of a section, for a reader. -/
def SectionData.cursorM (s : SectionData) (id : StreamId) : ReadM Cursor :=
  match s.cursor id with
  | .ok c => pure c
  | .error e => ReadM.fail e

/-- Read the body of `function` from its section into `program`, resolving
declarations through the unit tables `decls`. The program keeps what was
allocated even when reading fails. -/
def FunctionBody.readSection (program : Program) (decls : UnitDecls) (function : NodeId)
    (data : ByteArray) (verify : Bool) : Except StreamError FunctionBody × Program :=
  match SectionData.parse data .functionBody with
  | .error e => (.error e, program)
  | .ok sec =>
    let read : ReadM FunctionBody := do
      let counts := sec.header.counts
      let mut named := #[]
      let labelCursor ← sec.cursorM .namedLabels
      let strings := (← get).strings
      let (labelNames, _) ← ReadM.withCursor labelCursor do
        let names ← ReadM.readCount counts.namedLabels.toNat (ReadM.onCursor (StringReader.readStr strings))
        return (names, ())
      for name in labelNames do
        let id ← match name with
          | some s => some <$> modifyGet fun (r : TreeReader) =>
              let (id, p) := r.program.identifier s
              (id, { r with program := p })
          | none => pure none
        let label ← modifyGet fun (r : TreeReader) =>
          let (l, p) := r.program.labelDecl function id
          (l, { r with program := p })
        named := named.push label
      let offsets ← ReadM.withCursor (← sec.cursorM .localDeclIndex) do
        ReadM.readCount counts.localDecls.toNat (ReadM.onCursor CursorM.readUleb)
      let localData ← match sec.bytes .localDecls with
        | .ok b => pure b
        | .error e => ReadM.fail e
      ReadM.setScope
        { function
          locals := Array.replicate offsets.length none
          localOffsets := offsets.toArray
          localData
          namedLabels := named
          numUnnamedLabels := counts.unnamedLabels }
      ReadM.withCursor (← sec.cursorM .localDecls) do
        ReadM.readLocalPreamble (← ReadM.remainingFuel)
      let cfg ← ReadM.withCursor (← sec.cursorM .cfg) (ReadM.onCursor Cfg.read)
      let ssaNames ← ReadM.withCursor (← sec.cursorM .ssaNames) ReadM.readSsaNames
      let sc ← ReadM.scope "ssa names"
      ReadM.setScope { sc with ssaNames := ssaNames.toArray }
      let body ← ReadM.withCursor (← sec.cursorM .main) (ReadM.readMain function cfg)
      for index in [0:offsets.length] do
        discard (ReadM.localRef ReadM.readTree index.toUInt64)
      let some sc := (← get).scope | ReadM.fail (.consistency "function scope lost while reading")
      modify fun r => { r with scope := none }
      let sorted := sc.positions.toList.mergeSort fun a b => a.1 ≤ b.1
      let body := { body with localDecls := sorted.map (·.2), ssaNames := sc.ssaNames.toList }
      if verify then
        match body.verify with
        | .ok () => pure ()
        | .error fault => ReadM.fail (.verify fault)
      return body
    let strings := match sec.bytes .strings with
      | .ok b => b
      | .error _ => .empty
    let reader : TreeReader := { program, decls, strings, cursor := default }
    match read.run reader with
    | .ok body r => (.ok body, r.program)
    | .error e r => (.error e, r.program)

end IrStream
