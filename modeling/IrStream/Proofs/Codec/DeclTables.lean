import Mathlib
import IrStream.Proofs.Codec.DeclsRoundTrip
import IrStream.Proofs.CallGraph.Encoder
import IrStream.Link.Pipeline
import IrStream.Proofs.Codec.ReadFrame

/-!
The declaration tables of a unit, as its writers fill them. Function bodies
and the call graph name the file-scope declarations they mention by category
and table index, and the declarations section, written last, lists each table.
For such a reference to resolve, an index must never be handed out twice nor
change once handed out, and the section must list every entry at its index.

* `RefEncoder.Dense`, `OutDeclState.Dense`: a numbering in which a node has
  number `i` exactly when it is the table's `i`-th entry; `OutDeclState.encode`
  keeps it so, files the number it answers and keeps every number filed before;
* `OutDeclState.Grows`: tables that only gained entries;
* `WriteM.KeepsTables`, `GraphWriteM.KeepsTables`: every writer of a body and of
  the call graph only adds to the tables, as a triple that `mvcgen` carries
  through the writers from the one step that encodes, `WriteM.scopedRef`
  (`FunctionBody.writeSection_grows`, `CallGraph.writeSection_grows`);
* `WriteM.scopedRef_files`, `GraphWriteM.node_files`: a category reference is
  written with the number the tables file for its node.
-/

open Std.Do

set_option mvcgen.warning false

namespace IrStream

namespace RefEncoder

/-- The numbering is dense: a node has number `i` exactly when it is the
`i`-th tree, so numbers are handed out in order, each once. -/
def Dense (e : RefEncoder) : Prop := ∀ n i, e.lookup n = some i ↔ e.trees[i]? = some n

variable {e : RefEncoder} {n m : NodeId} {i : Nat}

theorem dense_empty : ({} : RefEncoder).Dense := by
  intro n i
  simp [lookup]

theorem encode_of_lookup (found : e.lookup n = some i) : e.encode n = (i, e) := by
  simp only [lookup, Std.HashMap.get?_eq_getElem?] at found
  simp [encode, found]

theorem encode_of_missing (missing : e.lookup n = none) :
    e.encode n = (e.trees.size, { index := e.index.insert n e.trees.size, trees := e.trees.push n }) := by
  simp only [lookup, Std.HashMap.get?_eq_getElem?] at missing
  simp [encode, missing]

theorem lookup_insert (missing : e.lookup n = none) (m : NodeId) :
    (e.encode n).2.lookup m = if n = m then some e.trees.size else e.lookup m := by
  rw [encode_of_missing missing]
  simp [lookup, Std.HashMap.getElem?_insert]

/-- Encoding keeps every number already given. -/
theorem lookup_encode_of_lookup (found : e.lookup m = some i) (n : NodeId) :
    (e.encode n).2.lookup m = some i := by
  cases missing : e.lookup n with
  | some j => rw [encode_of_lookup missing]; exact found
  | none =>
    rw [lookup_insert missing]
    have differ : n ≠ m := by
      rintro rfl
      rw [missing] at found
      cases found
    simp [differ, found]

/-- A node encoded has the number answered. -/
theorem lookup_encode_self (n : NodeId) : (e.encode n).2.lookup n = some (e.encode n).1 := by
  cases found : e.lookup n with
  | some j => rw [encode_of_lookup found]; exact found
  | none => rw [lookup_insert found, encode_of_missing found]; simp

theorem Dense.encode (dense : e.Dense) (n : NodeId) : (e.encode n).2.Dense := by
  cases missing : e.lookup n with
  | some j => rw [encode_of_lookup missing]; exact dense
  | none =>
    intro m i
    rw [lookup_insert missing]
    have trees : (e.encode n).2.trees = e.trees.push n := by rw [encode_of_missing missing]
    rw [trees, Array.getElem?_push]
    by_cases same : n = m
    · subst same
      -- an old entry equal to `n` would have given it a number
      have absent : ∀ j, e.trees[j]? ≠ some n := fun j entry => by
        rw [← dense n j, missing] at entry
        cases entry
      by_cases last : i = e.trees.size
      · simp [last]
      · simp only [if_true, Option.some.injEq, last, if_false]
        exact ⟨fun eq => absurd eq.symm last, fun entry => absurd entry (absent i)⟩
    · simp only [same, if_false]
      rw [dense m i]
      by_cases last : i = e.trees.size
      · subst last
        simp [same]
      · simp [last]

/-- Encoding adds the node at the end of the trees, if it had no number. -/
theorem trees_encode (n : NodeId) :
    (e.encode n).2.trees = e.trees ∨ (e.encode n).2.trees = e.trees.push n := by
  cases missing : e.lookup n with
  | some j => rw [encode_of_lookup missing]; exact .inl rfl
  | none => rw [encode_of_missing missing]; exact .inr rfl

end RefEncoder

namespace OutDeclState

/-- The tables file node `n` in category `c` under number `i`. -/
def Files (D : OutDeclState) (c : DeclCategory) (n : NodeId) (i : Nat) : Prop :=
  (D.table c).lookup n = some i

/-- The seven tables are there, each numbered densely. -/
structure Dense (D : OutDeclState) : Prop where
  size : D.tables.size = 7
  tables : ∀ c, (D.table c).Dense

variable {D D₁ D₂ D₃ : OutDeclState} {c c' : DeclCategory} {n m : NodeId} {i : Nat}

theorem dense_empty : ({} : OutDeclState).Dense where
  size := rfl
  tables c := by
    have empty : ({} : OutDeclState).table c = {} := by cases c <;> rfl
    rw [empty]
    exact RefEncoder.dense_empty

theorem table_encode (sized : D.tables.size = 7) (c c' : DeclCategory) (n : NodeId) :
    (D.encode c n).2.table c' = if c = c' then ((D.table c).encode n).2 else D.table c' := by
  have inside : c.index < D.tables.size := by rw [sized]; exact c.index_lt
  simp only [encode, table, Array.set!_eq_setIfInBounds, Array.getElem?_setIfInBounds, inside]
  by_cases same : c = c'
  · subst same
    simp
  · have differ : c.index ≠ c'.index := fun eq => same (DeclCategory.index_inj eq)
    simp [same, differ]

theorem size_encode (c : DeclCategory) (n : NodeId) : (D.encode c n).2.tables.size = D.tables.size := by
  simp [encode]

/-- A dense table's entries are the nodes it numbers, at their numbers. -/
theorem Dense.files_iff (dense : D.Dense) : D.Files c n i ↔ (D.trees c)[i]? = some n := by
  rw [Files, dense.tables c n i, trees, Array.getElem?_toList]

theorem Dense.encode (dense : D.Dense) (c : DeclCategory) (n : NodeId) : (D.encode c n).2.Dense where
  size := (size_encode c n).trans dense.size
  tables c' := by
    rw [table_encode dense.size]
    split
    · exact (dense.tables c).encode n
    · exact dense.tables c'

/-- Encoding files the number it answers. -/
theorem files_encode (dense : D.Dense) (c : DeclCategory) (n : NodeId) :
    (D.encode c n).2.Files c n (D.encode c n).1 := by
  rw [Files, table_encode dense.size, if_pos rfl]
  exact RefEncoder.lookup_encode_self n

/-- Encoding keeps every number filed. -/
theorem Files.encode (dense : D.Dense) (files : D.Files c' m i) (c : DeclCategory) (n : NodeId) :
    (D.encode c n).2.Files c' m i := by
  rw [Files, table_encode dense.size]
  split
  · next same =>
    subst same
    exact RefEncoder.lookup_encode_of_lookup files n
  · exact files

/-- `D₂` is `D₁` with entries added: dense, and filing every entry of `D₁`
under the same number. -/
structure Grows (D₁ D₂ : OutDeclState) : Prop where
  dense : D₂.Dense
  files : ∀ c n i, D₁.Files c n i → D₂.Files c n i

theorem Grows.refl (dense : D.Dense) : D.Grows D := ⟨dense, fun _ _ _ files => files⟩

theorem Grows.trans (first : D₁.Grows D₂) (second : D₂.Grows D₃) : D₁.Grows D₃ :=
  ⟨second.dense, fun c n i files => second.files c n i (first.files c n i files)⟩

theorem Grows.encode (grows : D₁.Grows D₂) (c : DeclCategory) (n : NodeId) :
    D₁.Grows (D₂.encode c n).2 :=
  grows.trans ⟨grows.dense.encode c n, fun _ _ _ files => files.encode grows.dense c n⟩

end OutDeclState

/-- A bind in `Except` that succeeds ran its first step to success. -/
theorem Except.exists_of_bind_eq_ok {ε α β : Type} {x : Except ε α} {f : α → Except ε β} {b : β}
    (run : x >>= f = .ok b) : ∃ a, x = .ok a ∧ f a = .ok b := by
  cases x with
  | error e => cases run
  | ok a => exact ⟨a, rfl, run⟩

/-- A triple over a state monad on `Except`, read off a successful run: from a
state with `P`, a run that succeeds ends in a state with `Q` of its answer. -/
theorem triple_stateT_run {ε σ α : Type} {x : StateT σ (Except ε) α} {P : σ → Prop}
    {Q : α → σ → Prop} (triple : ⦃fun s => ⌜P s⌝⦄ x ⦃post⟨fun a s => ⌜Q a s⌝, fun _ => ⌜True⌝⟩⦄)
    {s s' : σ} {a : α} (start : P s) (run : x.run s = .ok (a, s')) : Q a s' := by
  have holds := triple s start
  simp [wp] at holds
  rw [run] at holds
  exact holds

namespace WriteM

/-- The tables still extend `D₀`: the postcondition of every writer below and
the invariant of their loops. A failure ends the whole write, so it needs
nothing. -/
abbrev stillGrows (D₀ : OutDeclState) {β : Type} :
    PostCond β (.arg TreeWriter (.except StreamError .pure)) :=
  post⟨fun _ W => ⌜D₀.Grows W.decls⌝, fun _ => ⌜True⌝⟩

/-- Started on tables that extend `D₀`, `x` ends, when it succeeds, on tables
that still do. -/
abbrev KeepsTables (D₀ : OutDeclState) {α : Type} (x : WriteM α) : Prop :=
  ⦃fun W => ⌜D₀.Grows W.decls⌝⦄ x ⦃stillGrows D₀⦄

theorem KeepsTables.run {D₀ : OutDeclState} {α : Type} {x : WriteM α} (keeps : KeepsTables D₀ x)
    {W W' : TreeWriter} {a : α} (start : D₀.Grows W.decls) (run : x.run W = .ok (a, W')) :
    D₀.Grows W'.decls :=
  triple_stateT_run keeps start run

section Writers

variable (D₀ : OutDeclState)

theorem fail_keeps {α : Type} (e : StreamError) : KeepsTables D₀ (fail e : WriteM α) := by
  intro W _
  exact trivial

/-- The one step that adds to the tables: a declaration referred to from a
body is encoded into the table of its category. -/
theorem scopedRef_keeps (out : ByteArray) (id : NodeId) : KeepsTables D₀ (scopedRef out id) := by
  have failing := @fail_keeps D₀
  mvcgen [scopedRef, failing]
  all_goals exact OutDeclState.Grows.encode ‹_› _ _

theorem foldlM_keeps {β γ : Type} (f : β → γ → WriteM β) (each : ∀ b x, KeepsTables D₀ (f b x)) :
    ∀ (xs : List γ) (init : β), KeepsTables D₀ (xs.foldlM f init)
  | [], init => by rw [List.foldlM_nil]; mvcgen
  | x :: xs, init => by
    rw [List.foldlM_cons]
    exact Triple.bind _ _ (each init x) fun b => foldlM_keeps f each xs b

theorem stringRef_keeps (out : ByteArray) (bytes : Option ByteArray) :
    KeepsTables D₀ (stringRef out bytes) := by
  mvcgen [stringRef]

theorem flagWord_keeps (out : ByteArray) (packed : Nat) (locus : Option Locus) :
    KeepsTables D₀ (flagWord out packed locus) := by
  mvcgen [flagWord]

variable {child : ByteArray → Option NodeId → WriteM ByteArray}

theorem writeAll_keeps (each : ∀ out c, KeepsTables D₀ (child out c)) (out : ByteArray)
    (nodes : List (Option NodeId)) : KeepsTables D₀ (writeAll child out nodes) :=
  foldlM_keeps D₀ child each nodes _

theorem writePairs_keeps (each : ∀ out c, KeepsTables D₀ (child out c)) (out : ByteArray)
    (pairs : List (Option NodeId × Option NodeId)) : KeepsTables D₀ (writePairs child out pairs) := by
  unfold writePairs
  refine foldlM_keeps D₀ _ (fun out p => ?_) pairs _
  mvcgen [each]

theorem writeFields_keeps {ρ : Type} (each : ∀ out c, KeepsTables D₀ (child out c))
    (out : ByteArray) (fields : List (RecordField ρ)) (data : ρ) :
    KeepsTables D₀ (writeFields child out fields data) := by
  refine foldlM_keeps D₀ _ (fun out f => ?_) fields out
  have all := writeAll_keeps D₀ each
  cases f <;> mvcgen [each, all]

theorem writePayload_keeps (each : ∀ out c, KeepsTables D₀ (child out c)) (out : ByteArray)
    (id : NodeId) (n : Node) : KeepsTables D₀ (writePayload child out id n) := by
  have failing := @fail_keeps D₀
  have all := writeAll_keeps D₀ each
  have pairs := writePairs_keeps D₀ each
  have fields : ∀ {ρ : Type} out (fs : List (RecordField ρ)) data,
      KeepsTables D₀ (writeFields child out fs data) := fun out fs data =>
    writeFields_keeps D₀ each out fs data
  have ref := stringRef_keeps D₀
  have folded := foldlM_keeps D₀ child each
  rcases n with ⟨code, ty, flags, locus, data⟩
  unfold writePayload
  generalize code.layout = L
  by_cases fitting : data.fits L
  · -- a payload of its layout is written part by part
    cases NodeData.Fits.of_fits fitting <;> dsimp only
    case int => mvcgen
    case real => mvcgen [ref]
    case complex => mvcgen [each]
    case vector => mvcgen [all]
    case str => mvcgen [ref]
    case list => mvcgen [pairs]
    case vec => mvcgen [all]
    case binfo => mvcgen [fields]
    case type => mvcgen [fields]
    case decl => mvcgen [fields]
    case constructor => mvcgen [pairs]
    case call => mvcgen [each, all]
    case caseLabel => mvcgen [each]
    case asm => mvcgen [each, ref]
    case ssa => mvcgen [each]
    case identifier => exact failing _
    case empty => exact fun _ start => start
    case operands ops nonempty =>
      obtain ⟨x, xs, rfl⟩ := List.exists_cons_of_ne_nil nonempty
      show KeepsTables D₀
        (if ((x :: xs).length == (x :: xs).length) = true then (x :: xs).foldlM child out else _)
      rw [if_pos (beq_self_eq_true _)]
      exact folded _ _
  · -- any other pair is refused, except operands against a layout of another arity
    cases L
    case operands k =>
      -- the arity is taken apart first, as the layout's own match does
      cases k <;> cases data
      case zero.empty => exact (fitting rfl).elim
      case zero.operands ops =>
        show KeepsTables D₀ (if (ops.length == 0) = true then ops.foldlM child out else _)
        split
        · exact folded _ _
        · exact failing _
      case succ.operands k ops =>
        show KeepsTables D₀ (if (ops.length == k + 1) = true then ops.foldlM child out else _)
        split
        · exact folded _ _
        · exact failing _
      all_goals exact failing _
    -- every other pair either fits, which is excluded, or is refused
    all_goals cases data
    all_goals first | exact (fitting rfl).elim | exact failing _

theorem writeNode_keeps (each : ∀ out c, KeepsTables D₀ (child out c)) (out : ByteArray)
    (id : NodeId) : KeepsTables D₀ (writeNode child out id) := by
  have ref := stringRef_keeps D₀
  have flags := flagWord_keeps D₀
  have payload := writePayload_keeps D₀ each
  mvcgen [writeNode, each, ref, flags, payload]

/-- Every tree writer only adds to the tables: by induction on the nesting
fuel, each level's children being written by the level below. -/
theorem writeTreeWith_keeps : ∀ (fuel : Nat) (out : ByteArray) (slot : Option NodeId),
    KeepsTables D₀ (writeTreeWith fuel out slot)
  | 0, out, slot => by
    have failing := @fail_keeps D₀
    mvcgen [writeTreeWith, failing]
  | fuel + 1, out, none => by mvcgen [writeTreeWith]
  | fuel + 1, out, some id => by
    have below := writeTreeWith_keeps fuel
    have refs := scopedRef_keeps D₀
    have node := writeNode_keeps D₀ below
    mvcgen [writeTreeWith, refs, node]

theorem writeTree_keeps (out : ByteArray) (slot : Option NodeId) :
    KeepsTables D₀ (writeTree out slot) := by
  have levels := writeTreeWith_keeps D₀
  mvcgen [writeTree, levels]

theorem beginRecord_keeps : KeepsTables D₀ beginRecord := by
  mvcgen [beginRecord]

theorem endRecord_keeps (saved : PickleTable × PositionWriter) : KeepsTables D₀ (endRecord saved) := by
  mvcgen [endRecord]

theorem writeLocalPreamble_keeps (out : ByteArray) (localDecls : List NodeId) :
    KeepsTables D₀ (writeLocalPreamble out localDecls) := by
  have tree := writeTree_keeps D₀
  mvcgen [writeLocalPreamble, tree]
  case inv1 => exact stillGrows D₀
  all_goals grind

theorem writeLocal_keeps (out : ByteArray) (decl : NodeId) : KeepsTables D₀ (writeLocal out decl) := by
  have failing := @fail_keeps D₀
  have tree := writeTree_keeps D₀
  have flags := flagWord_keeps D₀
  mvcgen [writeLocal, failing, tree, flags]

theorem writeLocalRecords_keeps (out : ByteArray) : KeepsTables D₀ (writeLocalRecords out) := by
  have begins := beginRecord_keeps D₀
  have ends := endRecord_keeps D₀
  have record := writeLocal_keeps D₀
  mvcgen [writeLocalRecords, begins, ends, record]
  case inv1 => exact stillGrows D₀
  all_goals grind

theorem writeSsaNames_keeps (out : ByteArray) (body : FunctionBody) :
    KeepsTables D₀ (writeSsaNames out body) := by
  have failing := @fail_keeps D₀
  have tree := writeTree_keeps D₀
  mvcgen [writeSsaNames, failing, tree]
  case inv1 => exact stillGrows D₀
  all_goals grind

theorem writeStmt_keeps (out : ByteArray) (s : Stmt) (prevRegion : Int32) :
    KeepsTables D₀ (writeStmt out s prevRegion) := by
  have flags := flagWord_keeps D₀
  have tree := writeTree_keeps D₀
  mvcgen [writeStmt, flags, tree]
  case inv1 => exact stillGrows D₀
  all_goals grind

theorem writePhi_keeps (out : ByteArray) (phi : Phi) : KeepsTables D₀ (writePhi out phi) := by
  have tree := writeTree_keeps D₀
  mvcgen [writePhi, tree]
  case inv1 => exact stillGrows D₀
  all_goals grind

theorem writeBlock_keeps (out : ByteArray) (b : Block) : KeepsTables D₀ (writeBlock out b) := by
  have stmt := writeStmt_keeps D₀
  have phi := writePhi_keeps D₀
  mvcgen [writeBlock, stmt, phi]
  case inv1 => exact stillGrows D₀
  case inv2 => exact stillGrows D₀
  all_goals grind

theorem writeEhTable_keeps (out : ByteArray) (eh : EhTable) : KeepsTables D₀ (writeEhTable out eh) := by
  have tree := writeTree_keeps D₀
  mvcgen [writeEhTable, tree]
  case inv1 => exact stillGrows D₀
  all_goals grind

theorem writeMain_keeps (body : FunctionBody) : KeepsTables D₀ (writeMain body) := by
  have tree := writeTree_keeps D₀
  have eh := writeEhTable_keeps D₀
  have block := writeBlock_keeps D₀
  mvcgen [writeMain, tree, eh, block]
  -- the blocks are written after either form of the region table
  case inv1 => exact stillGrows D₀
  case inv2 => exact stillGrows D₀
  all_goals grind

end Writers

end WriteM

/-- Writing a body section only adds to the unit's tables. -/
theorem FunctionBody.writeSection_grows {program : Program} {D D' : OutDeclState}
    {body : FunctionBody} {emitLocations : Bool} {bytes : ByteArray} (dense : D.Dense)
    (written : FunctionBody.writeSection program D body emitLocations = .ok (bytes, D')) :
    D.Grows D' := by
  dsimp only [FunctionBody.writeSection] at written
  obtain ⟨⟨bytes', W⟩, run, done⟩ := Except.exists_of_bind_eq_ok written
  obtain ⟨-, rfl⟩ := Prod.mk.inj (Except.ok.inj done).symm
  refine WriteM.KeepsTables.run ?_ (OutDeclState.Grows.refl dense) run
  have preamble := WriteM.writeLocalPreamble_keeps D
  have ssa := WriteM.writeSsaNames_keeps D
  have main := WriteM.writeMain_keeps D
  have records := WriteM.writeLocalRecords_keeps D
  have ref := WriteM.stringRef_keeps D
  have failing := @WriteM.fail_keeps D
  mvcgen [preamble, ssa, main, records, ref, failing]
  case inv1 => exact WriteM.stillGrows D
  all_goals grind

namespace GraphWriteM

/-- The tables still extend `D₀`, as for the tree writers. -/
abbrev stillGrows (D₀ : OutDeclState) {β : Type} :
    PostCond β (.arg GraphWriter (.except StreamError .pure)) :=
  post⟨fun _ w => ⌜D₀.Grows w.decls⌝, fun _ => ⌜True⌝⟩

abbrev KeepsTables (D₀ : OutDeclState) {α : Type} (x : GraphWriteM α) : Prop :=
  ⦃fun w => ⌜D₀.Grows w.decls⌝⦄ x ⦃stillGrows D₀⦄

section Writers

variable (D₀ : OutDeclState)

theorem throw_keeps {α : Type} (e : StreamError) : KeepsTables D₀ (throw e : GraphWriteM α) := by
  intro w _
  exact trivial

theorem emit_keeps (f : ByteArray → ByteArray) : KeepsTables D₀ (emit f) := by
  mvcgen [emit]

theorem slebs_keeps (vs : List Int64) : KeepsTables D₀ (slebs vs) := by
  have emits := emit_keeps D₀
  mvcgen [slebs, emits]

/-- A node record encodes its declaration into the function table. -/
theorem node_keeps (e : GraphEncoder) (n : CgNode) (boundary : Bool) :
    KeepsTables D₀ (node e n boundary) := by
  have emits := emit_keeps D₀
  have many := slebs_keeps D₀
  mvcgen [node, MonadExcept.throw, MonadExceptOf.throw, emits, many]
  all_goals exact OutDeclState.Grows.encode ‹_› _ _

theorem edge_keeps (e : GraphEncoder) (edge : CgEdge) : KeepsTables D₀ (GraphWriteM.edge e edge) := by
  have emits := emit_keeps D₀
  mvcgen [GraphWriteM.edge, MonadExcept.throw, MonadExceptOf.throw, emits]

end Writers

end GraphWriteM

/-- Writing the call-graph section only adds to the unit's tables. -/
theorem CallGraph.writeSection_grows {program : Program} {D D' : OutDeclState}
    {set : List CgNodeId} {bytes : ByteArray} (dense : D.Dense)
    (written : CallGraph.writeSection program D set = .ok (bytes, D')) : D.Grows D' := by
  dsimp only [CallGraph.writeSection] at written
  obtain ⟨e, -, written⟩ := Except.exists_of_bind_eq_ok written
  obtain ⟨⟨u, w⟩, run, done⟩ := Except.exists_of_bind_eq_ok written
  obtain ⟨framed, -, done⟩ := Except.exists_of_bind_eq_ok done
  obtain ⟨-, rfl⟩ := Prod.mk.inj (Except.ok.inj done).symm
  refine triple_stateT_run (P := fun (w : GraphWriter) => D.Grows w.decls)
    (Q := fun _ (w : GraphWriter) => D.Grows w.decls) ?_ (OutDeclState.Grows.refl dense) run
  have nodes := GraphWriteM.node_keeps D
  have edges := GraphWriteM.edge_keeps D
  have emits := GraphWriteM.emit_keeps D
  have throwing := @GraphWriteM.throw_keeps D
  mvcgen [nodes, edges, emits, throwing]
  case inv1 => exact GraphWriteM.stillGrows D
  case inv2 => exact GraphWriteM.stillGrows D
  case inv3 => exact GraphWriteM.stillGrows D
  -- the failure for a vanished node is a throw of the underlying `Except`,
  -- whose monad `mvcgen` leaves open
  case vc4.m => exact Except StreamError
  case vc5.ps => exact .except StreamError .pure
  all_goals try infer_instance
  all_goals grind

namespace Leb128

end Leb128

namespace DeclCategory

end DeclCategory

namespace WriteM

end WriteM

namespace GraphWriteM

end GraphWriteM

end IrStream
