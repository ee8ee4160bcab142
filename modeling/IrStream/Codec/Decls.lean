import IrStream.Section.Header
import IrStream.Codec.Writer
import IrStream.Codec.Reader

/-!
The declarations section of a unit: each declaration table in category order,
as a count and the trees, then the file-scope declarations. The tables hold
every declaration a body of the unit refers to, so body sections can name
them by table index; the file-scope declarations are added to their tables
before anything is written.
-/

namespace IrStream

/-- What a declarations section holds once read. -/
structure DeclsSection where
  decls : UnitDecls := {}
  globals : List NodeId := []
  deriving Inhabited

/-- The declarations section of `program`, given the tables its bodies filled,
and the tables with the file-scope declarations added. -/
def DeclsSection.write (program : Program) (decls : OutDeclState) (emitLocations : Bool) :
    Except StreamError (ByteArray × OutDeclState) := do
  let mut decls := decls
  for g in program.globals do
    let code := program.arena.code g
    let some c := DeclCategory.ofCode? code
      | throw (.consistency s!"{g}: {code} cannot be a file-scope declaration")
    decls := (decls.encode c g).2
  let snapshot := decls
  let write : WriteM ByteArray := do
    let mut main := ByteArray.empty
    for c in DeclCategory.all do
      let trees := snapshot.trees c
      main := Out.uleb main trees.length.toUInt64
      for t in trees do
        main ← WriteM.writeTree main (some t)
    main := Out.uleb main program.globals.length.toUInt64
    for g in program.globals do
      main ← WriteM.writeTree main (some g)
    return main
  let (main, w) ← write.run (TreeWriter.new program decls emitLocations)
  let bytes ← SectionData.write .decls {}
    [("named labels", .empty), ("main", main), ("strings", w.strings.stream)]
  return (bytes, w.decls)

/-- Read a declarations section into `program`. -/
def DeclsSection.read (program : Program) (data : ByteArray) :
    Except StreamError DeclsSection × Program :=
  match SectionData.parse data .decls with
  | .error e => (.error e, program)
  | .ok sec =>
    match sec.bytes .strings, sec.cursor .main with
    | .error e, _ | _, .error e => (.error e, program)
    | .ok strings, .ok main =>
      let read : ReadM DeclsSection := do
        let mut out : DeclsSection := {}
        for c in DeclCategory.all do
          let count ← ReadM.onCursor CursorM.readUleb
          for _ in [0:count.toNat] do
            out := { out with decls := out.decls.push c (← ReadM.readTreeRequired c.name) }
        let count ← ReadM.onCursor CursorM.readUleb
        let mut globals := #[]
        for _ in [0:count.toNat] do
          globals := globals.push (← ReadM.readTreeRequired "file-scope declaration")
        let c := (← get).cursor
        if !c.isAtEnd then
          ReadM.fail (.consistency s!"{data.size - c.pos} trailing bytes after the declaration tables")
        return { out with globals := globals.toList }
      match read.run { program, strings, cursor := main } with
      | .ok d r => (.ok d, r.program)
      | .error e r => (.error e, r.program)

end IrStream
