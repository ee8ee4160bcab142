import Mathlib
import IrStream.Proofs.Codec.DeclsAlignment
import IrStream.Proofs.Codec.EhStream

/-!
# A canonical declarations section read back node for node

For a canonical graph the writer and reader recursions run in step under a map
`τ` from reader nodes to the writer nodes they stand for (`TreeCodec.Inv`).
Started from the common nodes, the tables and then the file-scope
declarations are written and read back in step (`TreeCodec.main_step`); the
section framing hands the reader the main stream and the string table the
writer built, and the reader ends on the last byte. What the reader then holds
is a copy of the program under `τ` (`TreeCodec.ReadsBackAs`).

The writer refuses only a section whose main stream or string table reaches
4 GiB, the limit of a size word of the framing.
-/

namespace IrStream

namespace SectionData

/-- A section of three streams, with the labels stream small, frames exactly
when its main stream and string table each fit a size word. -/
theorem write_tabled_ok_iff {kind : SectionKind} (tabled : kind.streams = [.namedLabels, .main, .strings])
    {named main strings : ByteArray} (labels : named.size < 2 ^ 32) :
    (∃ bytes, write kind {} [("named labels", named), ("main", main), ("strings", strings)] = .ok bytes) ↔
      main.size < 2 ^ 32 ∧ strings.size < 2 ^ 32 := by
  constructor
  · rintro ⟨bytes, written⟩
    have small := small_of_write_ok written
    exact ⟨small ("main", main) (by simp), small ("strings", strings) (by simp)⟩
  · rintro ⟨mainSmall, stringsSmall⟩
    have small : ∀ s ∈ [("named labels", named), ("main", main), ("strings", strings)], s.2.size < 2 ^ 32 := by
      simp only [List.mem_cons, List.not_mem_nil, or_false]
      rintro s (rfl | rfl | rfl) <;> assumption
    obtain ⟨bytes, written, -⟩ := @write_ok kind {} _ (by rw [tabled]; rfl) small
    exact ⟨bytes, written⟩

end SectionData

namespace DeclsSection

variable {P : Program}

/-- Entering the file-scope declarations succeeds when each has a category,
and enters each in the table of its category. -/
theorem addGlobalsChecked_eq
    (categorized : ∀ g ∈ P.globals, ∃ c, DeclCategory.ofCode? (P.arena.code g) = some c)
    (D : OutDeclState) : addGlobalsChecked P D = .ok (OutDeclState.addGlobals P D) := by
  unfold addGlobalsChecked
  simp only [bind_pure]
  refine forIn_except_ok P.globals (OutDeclState.addGlobal P) (fun g member D => ?_) D
  obtain ⟨c, category⟩ := categorized g member
  simp only [OutDeclState.addGlobal, category]
  rfl

end DeclsSection

namespace TreeCodec

variable {P : Program} {roots : List NodeId}

/-- The main stream in step: the tables, then the file-scope declarations,
each entry read back as a node standing for the tree written. One writer run
serves every string stream the reader may resolve strings in. -/
theorem main_step (canonical : P.Canonical roots) (D : OutDeclState)
    (rooted : ∀ c, ∀ t ∈ D.trees c, t ∈ roots) (global : ∀ g ∈ P.globals, g ∈ roots) (fuel : Nat) :
    ∃ bs W', ∀ S, Step P roots S fuel (TreeWriter.new P D true)
      (fun main => DeclCategory.all.foldlM (fun main c => (D.trees c).foldlM
          (fun main t => WriteM.writeTree main (some t)) (Out.uleb main (D.trees c).length.toUInt64))
          main >>= fun main =>
        P.globals.foldlM (fun main g => WriteM.writeTree main (some g))
          (Out.uleb main P.globals.length.toUInt64))
      (do
        let out ← forIn DeclCategory.all ({} : DeclsSection) fun c out => do
          let count ← ReadM.onCursor CursorM.readUleb
          let out ← (do
            let l ← ReadM.readList count.toNat (ReadM.readTreeRequired c.name)
            pure (pushEntries c out l))
          pure (ForInStep.yield out)
        let count ← ReadM.onCursor CursorM.readUleb
        let l ← ReadM.readList count.toNat (ReadM.readTreeRequired "file-scope declaration")
        pure (out, l))
      (fun τ v => TablesRead D DeclCategory.all {} τ v.1 ∧
        List.Forall₂ (fun r g => τ[r.val]? = some g) v.2 P.globals) bs W' := by
  refine Step.uniform fun S => ?_
  have ok₀ := pathOk_new P D
  obtain ⟨bs₁, W₁, tables⟩ := tables_step (S := S) canonical D rooted fuel DeclCategory.all
    DeclCategory.nodup_all ok₀
  have first := tables {} rfl
  obtain ⟨bs₂, W₂, globals⟩ := counted_step (S := S) canonical "file-scope declaration" global fuel
    (ok₀.grow first.grows)
  refine ⟨bs₁ ++ bs₂, W₂, ?_⟩
  have both := first.bind fun out => globals.map (g := fun l => (out, l))
  simp only [bind_assoc] at both ⊢
  refine both.mono ?_
  rintro τ v ⟨out, read, l, agrees, rfl⟩
  exact ⟨read, agrees⟩

end TreeCodec

namespace DeclsSection

variable {P : Program} {roots : List NodeId} {D : OutDeclState}

/-- The main stream of a canonical graph is always written: the writer meets
no node it cannot encode. -/
theorem writeMain_ok (canonical : P.Canonical roots) (rooted : ∀ c, ∀ t ∈ D.trees c, t ∈ roots)
    (global : ∀ g ∈ P.globals, g ∈ roots) :
    ∃ main W, (writeMain P D).run (TreeWriter.new P D true) = .ok (main, W) ∧ W.decls = D := by
  obtain ⟨bs, W, steps⟩ := TreeCodec.main_step canonical D rooted global 0
  obtain ⟨main, run, -⟩ := (steps .empty).writes ByteArray.empty
  exact ⟨main, W, by rw [writeMain_eq]; exact run, (steps .empty).grows.decls⟩

/-- A canonical section, framed from the main stream and the string table the
writer built, is read into a fresh program as a copy under a map `τ`. -/
theorem readsBackAs_of_framed (canonical : P.Canonical roots)
    (rooted : ∀ c, ∀ t ∈ D.trees c, t ∈ roots) (global : ∀ g ∈ P.globals, g ∈ roots)
    {main bytes : ByteArray} {W : TreeWriter}
    (run : (writeMain P D).run (TreeWriter.new P D true) = .ok (main, W))
    (framed : SectionData.write .decls {}
      [("named labels", .empty), ("main", main), ("strings", W.strings.stream)] = .ok bytes) :
    ∃ sec q τ, read Program.new bytes = (.ok sec, q) ∧ TreeCodec.ReadsBackAs P D q sec τ := by
  obtain ⟨sec₀, parsed, strings, cursor, mainSmall, stringsSmall⟩ :=
    SectionData.parse_write_main rfl framed
  obtain ⟨bs, W', steps⟩ := TreeCodec.main_step canonical D rooted global (main.size + 1)
  have step := steps W.strings.stream
  obtain ⟨out, wrote, data⟩ := step.writes ByteArray.empty
  rw [writeMain_eq] at run
  obtain ⟨sameMain, sameWriter⟩ := Prod.mk.inj (Except.ok.inj (wrote.symm.trans run))
  subst sameMain sameWriter
  have whole : out.data.toList = bs := by simpa using data
  subst whole
  -- the reader starts from the common nodes, resolving strings in the table written
  let R₀ : TreeReader :=
    { program := Program.new, strings := W'.strings.stream, cursor := { name := "main", data := out } }
  have inv : TreeCodec.Inv P roots W'.strings.stream (TreeWriter.new P D true) R₀ CommonNode.ids [] :=
    TreeCodec.Inv.start canonical D step.grows.strings (by omega) rfl
      (by simp only [CommonNode.count]; omega)
  have ahead : R₀.cursor.ahead = out.data.toList ++ [] := by simp [R₀, Cursor.ahead]
  obtain ⟨v, R, τ, read, moved, inv', -, agrees⟩ :=
    step.readsBack [] R₀ CommonNode.ids [] inv (List.prefix_refl _) ahead (by simp) (by omega)
  -- nothing is left after the file-scope declarations, so the end check passes
  have atEnd : R.cursor.isAtEnd = true := by
    rw [moved]
    simp [Cursor.isAtEnd, Cursor.advance, R₀]
  have finished : (readMain bytes).run R₀ = .ok { v.1 with globals := v.2 } R := by
    rw [readMain_eq]
    show EStateM.bind _ _ R₀ = _
    rw [CursorM.bind_ok read]
    simp [bind, EStateM.bind, get, getThe, MonadStateOf.get, EStateM.get, atEnd, pure, EStateM.pure]
  have state : readState Program.new bytes = .ok ({ v.1 with globals := v.2 }, R) := by
    unfold readState
    rw [parsed]
    simp only [strings, cursor]
    rw [finished]
  obtain ⟨tables, globals⟩ := agrees τ (List.prefix_refl _)
  refine ⟨_, R.program, τ, read_of_readState state, inv'.mapSize, inv'.commons,
    fun r n entry => inv'.nodes r n entry List.not_mem_nil, fun c => ?_, globals⟩
  obtain ⟨l, table, inCs, -⟩ := tables.2.2 c
  rw [show ({ v.1 with globals := v.2 } : DeclsSection).decls = v.1.decls from rfl, table,
    UnitDecls.table_empty]
  simpa using inCs (DeclCategory.mem_all c)

/-- Once the main stream is written, the section is its framing. -/
theorem write_eq_framed
    (categorized : ∀ g ∈ P.globals, ∃ c, DeclCategory.ofCode? (P.arena.code g) = some c)
    {main : ByteArray} {W : TreeWriter}
    (run : (writeMain P (OutDeclState.addGlobals P D)).run
      (TreeWriter.new P (OutDeclState.addGlobals P D) true) = .ok (main, W)) :
    write P D true = (fun bytes => (bytes, W.decls)) <$> SectionData.write .decls {}
      [("named labels", .empty), ("main", main), ("strings", W.strings.stream)] := by
  rw [write_eq]
  unfold writeState
  rw [addGlobalsChecked_eq categorized]
  simp only [bind, Except.bind, run]
  cases SectionData.write .decls {}
    [("named labels", .empty), ("main", main), ("strings", W.strings.stream)] <;> rfl

/-- Declarations section round trip. Take a program whose table entries and
file-scope declarations all have a category, with the graph reachable from them
canonical. The main stream is always written. The section is refused exactly
when the main stream or the string table reaches 4 GiB, and then with a
consistency error naming the stream. A section written, with the tables it
returns, is read into a fresh program as a copy of the program under a map `τ`
from reader nodes to the writer nodes they stand for, table entry for table
entry and file-scope declaration for file-scope declaration. -/
theorem declarations_section_round_trip (P : Program) (D : OutDeclState)
    (declared : ∀ n ∈ D.entries ++ P.globals, ∃ c, DeclCategory.ofCode? (P.node n).code = some c)
    (canonical : P.Canonical (D.entries ++ P.globals)) :
    ∃ main W, (writeMain P (OutDeclState.addGlobals P D)).run
          (TreeWriter.new P (OutDeclState.addGlobals P D) true) = .ok (main, W) ∧
      ((∃ r, write P D true = .ok r) ↔ main.size < 2 ^ 32 ∧ W.strings.stream.size < 2 ^ 32) ∧
      (∀ bytes D', write P D true = .ok (bytes, D') → D' = OutDeclState.addGlobals P D ∧
        ∃ sec q τ, read Program.new bytes = (.ok sec, q) ∧ TreeCodec.ReadsBackAs P D' q sec τ) ∧
      ∀ e, write P D true = .error e →
        ∃ name : String, e = .consistency s!"{name} stream exceeds 4 GiB" := by
  have categorized : ∀ g ∈ P.globals, ∃ c, DeclCategory.ofCode? (P.arena.code g) = some c :=
    fun g member => declared g (List.mem_append_right _ member)
  -- the tables written hold the entries given and the file-scope declarations
  have rooted : ∀ c, ∀ t ∈ (OutDeclState.addGlobals P D).trees c, t ∈ D.entries ++ P.globals := by
    intro c t member
    rcases OutDeclState.mem_trees_addGlobals member with old | global
    · exact List.mem_append_left _ (OutDeclState.mem_entries old)
    · exact List.mem_append_right _ global
  have global : ∀ g ∈ P.globals, g ∈ D.entries ++ P.globals := fun g => List.mem_append_right _
  obtain ⟨main, W, run, decls⟩ := writeMain_ok canonical rooted global
  have framing := write_eq_framed categorized run
  rw [decls] at framing
  have fits : (∃ bytes, SectionData.write .decls {}
        [("named labels", .empty), ("main", main), ("strings", W.strings.stream)] = .ok bytes) ↔
      main.size < 2 ^ 32 ∧ W.strings.stream.size < 2 ^ 32 :=
    SectionData.write_tabled_ok_iff rfl (by decide)
  cases framed : SectionData.write .decls {}
      [("named labels", .empty), ("main", main), ("strings", W.strings.stream)] with
  | error e =>
    rw [framed] at framing fits
    obtain ⟨name, data, -, -, message⟩ := SectionData.write_error rfl framed
    refine ⟨main, W, run, ⟨fun ⟨r, written⟩ => ?_, fun small => ?_⟩, fun bytes D' written => ?_,
      fun e' failed => ?_⟩
    · rw [framing] at written
      cases written
    · obtain ⟨bytes, written⟩ := fits.2 small
      cases written
    · rw [framing] at written
      cases written
    · rw [framing] at failed
      cases failed
      exact ⟨name, message⟩
  | ok bytes =>
    rw [framed] at framing
    refine ⟨main, W, run, ⟨fun _ => fits.1 ⟨bytes, framed⟩, fun _ => ⟨_, framing⟩⟩,
      fun bytes' D' written => ?_, fun e failed => ?_⟩
    · rw [framing] at written
      obtain ⟨rfl, rfl⟩ := Prod.mk.inj (Except.ok.inj written)
      exact ⟨rfl, readsBackAs_of_framed canonical rooted global run framed⟩
    · rw [framing] at failed
      cases failed

/-- The identifier `main`. -/
def mainName : Node := { code := .identifierNode, data := .identifier "main" }

/-- A function declaration named by the node after the common ones. -/
def mainDecl : Node := { code := .functionDecl, data := .decl { name := some ⟨CommonNode.count⟩ } }

/-- A program declaring one function, `main`, after the common nodes: its
identifier, then its declaration, the one file-scope declaration. -/
def mainOnly : Program where
  arena := { CommonNode.arena with nodes := (CommonNode.arena.nodes.push mainName).push mainDecl }
  globals := [⟨CommonNode.count + 1⟩]

theorem mainOnly_name : mainOnly.node ⟨CommonNode.count⟩ = mainName := by
  simp [mainOnly, Program.node, Arena.node, Arena.get?, CommonNode.arena, CommonNode.all, CommonNode.count]

theorem mainOnly_decl : mainOnly.node ⟨CommonNode.count + 1⟩ = mainDecl := by
  simp [mainOnly, Program.node, Arena.node, Arena.get?, CommonNode.arena, CommonNode.all, CommonNode.count]

theorem mainName_canonical : mainName.Canonical where
  fits := by decide
  untyped _ := rfl
  flags := ⟨by decide, by decide, by decide, by decide⟩
  declFields _ same := by cases same
  typeFields _ same := by cases same
  bareIdentifier _ := ⟨rfl, rfl⟩

theorem mainDecl_canonical : mainDecl.Canonical where
  fits := by decide
  untyped _ := rfl
  flags := ⟨by decide, by decide, by decide, by decide⟩
  declFields _ same := by
    cases same
    decide
  typeFields _ same := by cases same
  bareIdentifier wrong := by cases wrong

/-- From `main`'s declaration only it and its name are reached. -/
theorem mainOnly_reaches {n : NodeId} (reached : mainOnly.Reaches [⟨CommonNode.count + 1⟩] n) :
    n = ⟨CommonNode.count + 1⟩ ∨ n = ⟨CommonNode.count⟩ := by
  induction reached with
  | root member => exact .inl (List.mem_singleton.1 member)
  | child _ slot parent =>
    rcases parent with rfl | rfl
    · rw [mainOnly_decl] at slot
      simp [mainDecl, Node.children, NodeData.children, DeclData.links] at slot
      exact .inr slot
    · rw [mainOnly_name] at slot
      simp [mainName, Node.children, NodeData.children] at slot

theorem mainOnly_canonical : mainOnly.Canonical [⟨CommonNode.count + 1⟩] where
  nodes n reached := by
    rcases mainOnly_reaches reached with rfl | rfl
    · rw [mainOnly_decl]
      exact mainDecl_canonical
    · rw [mainOnly_name]
      exact mainName_canonical
  inRange n reached := by
    rcases mainOnly_reaches reached with rfl | rfl <;> decide
  spellings a b s reachedA reachedB spelledA spelledB := by
    -- only the name spells anything
    have only : ∀ n, mainOnly.Reaches [⟨CommonNode.count + 1⟩] n →
        (mainOnly.node n).identifier? = some s → n = ⟨CommonNode.count⟩ := by
      intro n reached spelled
      rcases mainOnly_reaches reached with rfl | rfl
      · rw [mainOnly_decl] at spelled
        cases spelled
      · rfl
    rw [only a reachedA spelledA, only b reachedB spelledB]
  singleHolder n reached unshared := by
    rcases mainOnly_reaches reached with rfl | rfl
    · have indexable := unshared.unindexed
      rw [mainOnly_decl] at indexable
      cases indexable
    · have named := unshared.notIdentifier
      rw [mainOnly_name] at named
      exact absurd rfl named
  commons c := by cases c <;> rfl

/-- The declarations section of a program declaring `main` reads back. -/
theorem mainOnly_declarations_round_trip :
    (∀ n ∈ ({} : OutDeclState).entries ++ mainOnly.globals,
        ∃ c, DeclCategory.ofCode? (mainOnly.node n).code = some c) ∧
      mainOnly.Canonical (({} : OutDeclState).entries ++ mainOnly.globals) ∧
      ∃ main W, (writeMain mainOnly (OutDeclState.addGlobals mainOnly {})).run
          (TreeWriter.new mainOnly (OutDeclState.addGlobals mainOnly {}) true) = .ok (main, W) ∧
        ((∃ r, write mainOnly {} true = .ok r) ↔
          main.size < 2 ^ 32 ∧ W.strings.stream.size < 2 ^ 32) ∧
        (∀ bytes D', write mainOnly {} true = .ok (bytes, D') →
          D' = OutDeclState.addGlobals mainOnly {} ∧
          ∃ sec q τ, read Program.new bytes = (.ok sec, q) ∧ TreeCodec.ReadsBackAs mainOnly D' q sec τ) ∧
        ∀ e, write mainOnly {} true = .error e →
          ∃ name : String, e = .consistency s!"{name} stream exceeds 4 GiB" := by
  have roots : ({} : OutDeclState).entries ++ mainOnly.globals = [⟨CommonNode.count + 1⟩] := rfl
  have declared : ∀ n ∈ ({} : OutDeclState).entries ++ mainOnly.globals,
      ∃ c, DeclCategory.ofCode? (mainOnly.node n).code = some c := by
    rw [roots]
    intro n member
    rw [List.mem_singleton.1 member, mainOnly_decl]
    exact ⟨.function, rfl⟩
  have canonical : mainOnly.Canonical (({} : OutDeclState).entries ++ mainOnly.globals) := by
    rw [roots]
    exact mainOnly_canonical
  exact ⟨declared, canonical, declarations_section_round_trip mainOnly {} declared canonical⟩

end DeclsSection

end IrStream
