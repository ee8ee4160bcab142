import Mathlib
import IrStream.Proofs.Codec.Tree
import IrStream.Proofs.Section.Framing

/-!
The declarations section read back, table by table. Writer and reader start in
step from the common nodes (`TreeCodec.Inv.start`); a slot holding a root,
written as a tree, reads back as a slot standing for it
(`TreeCodec.rootSlot_steps`), present when the root is (`TreeCodec.root_steps`);
a count and that many roots read back as the nodes standing for them
(`TreeCodec.counted_step`); and the seven declaration tables read back entry
for entry (`TreeCodec.tables_step`). `TreeCodec.ReadsBackAs` says what a whole
section read back has to satisfy.
-/

namespace IrStream

namespace CommonNode

theorem ids_eq : ids = (List.range count).map NodeId.mk := rfl

theorem getElem?_ids (i : Nat) : ids[i]? = if i < count then some ⟨i⟩ else none := by
  rw [ids_eq, List.getElem?_map]
  by_cases small : i < count
  · rw [List.getElem?_range small, if_pos small]
    rfl
  · rw [List.getElem?_eq_none (by simpa using small), if_neg small]
    rfl

theorem node_new (c : CommonNode) : Program.new.node c.id = c.node := by
  cases c <;> rfl

theorem size_new : Program.new.arena.size = count := rfl

/-- The common nodes hold only common nodes. -/
theorem children_small (c : CommonNode) : ∀ s ∈ c.node.children, ∀ r ∈ s, r.val < count := by
  cases c <;> decide

theorem identifier?_node (c : CommonNode) : c.node.identifier? = none := by
  cases c <;> rfl

end CommonNode

namespace DeclCategory

theorem index_lt (c : DeclCategory) : c.index < 7 := by
  cases c <;> decide

theorem index_inj {c c' : DeclCategory} : c.index = c'.index → c = c' := by
  cases c <;> cases c' <;> decide

theorem nodup_all : all.Nodup := by decide

theorem mem_all (c : DeclCategory) : c ∈ all := by
  cases c <;> decide

end DeclCategory

namespace UnitDecls

theorem size_push (u : UnitDecls) (c : DeclCategory) (node : NodeId) :
    (u.push c node).tables.size = u.tables.size := by
  simp [push]

/-- Pushing onto one table leaves the others. -/
theorem table_push {u : UnitDecls} (sized : u.tables.size = 7) (c c' : DeclCategory) (node : NodeId) :
    (u.push c node).table c' = if c = c' then (u.table c).push node else u.table c' := by
  have inside := c'.index_lt
  by_cases same : c = c'
  · subst same
    simp [push, table, Array.getElem_modify, sized, inside]
  · have differ : c.index ≠ c'.index := fun eq => same (DeclCategory.index_inj eq)
    simp [push, table, Array.getElem?_modify, differ, same]

theorem table_empty (c : DeclCategory) : ({} : UnitDecls).table c = #[] := by
  cases c <;> rfl

end UnitDecls

/-- A loop in `Except` whose every step succeeds and goes on is a fold. -/
theorem forIn_except_ok {α σ ε : Type} (xs : List α) (step : σ → α → σ)
    {f : α → σ → Except ε (ForInStep σ)} (each : ∀ x ∈ xs, ∀ d, f x d = .ok (.yield (step d x))) :
    ∀ init, forIn xs init f = .ok (xs.foldl step init) := by
  induction xs with
  | nil => intro init; rfl
  | cons x xs ih =>
    intro init
    rw [List.forIn_cons, each x List.mem_cons_self init]
    exact ih (fun y member => each y (List.mem_cons_of_mem _ member)) _

namespace RefEncoder

/-- Encoding a node adds it to the trees, if anything. -/
theorem mem_trees_encode {e : RefEncoder} {node t : NodeId} (member : t ∈ (e.encode node).2.trees.toList) :
    t ∈ e.trees.toList ∨ t = node := by
  unfold encode at member
  split at member
  · exact .inl member
  · simp only [Array.toList_push, List.mem_append, List.mem_singleton] at member
    exact member

end RefEncoder

namespace OutDeclState

/-- Encoding a node into one table adds it to that table, if anything. -/
theorem mem_trees_encode {D : OutDeclState} {c c' : DeclCategory} {g t : NodeId}
    (member : t ∈ (D.encode c g).2.trees c') : t ∈ D.trees c' ∨ t = g := by
  simp only [encode, trees, table, Array.set!_eq_setIfInBounds, Array.getElem?_setIfInBounds] at member
  split_ifs at member with same inside
  · rcases RefEncoder.mem_trees_encode member with old | rfl
    · rw [DeclCategory.index_inj same] at old
      exact .inl old
    · exact .inr rfl
  · simp at member
  · exact .inl member

end OutDeclState

namespace OutDeclState

/-- Every entry of every table, in table order. -/
def entries (D : OutDeclState) : List NodeId := DeclCategory.all.flatMap D.trees

theorem mem_entries {D : OutDeclState} {c : DeclCategory} {t : NodeId} (member : t ∈ D.trees c) :
    t ∈ D.entries :=
  List.mem_flatMap.2 ⟨c, DeclCategory.mem_all c, member⟩

/-- A file-scope declaration entered in the table of its category. -/
def addGlobal (P : Program) (D : OutDeclState) (g : NodeId) : OutDeclState :=
  match DeclCategory.ofCode? (P.arena.code g) with
  | some c => (D.encode c g).2
  | none => D

/-- The file-scope declarations, each entered in the table of its category. -/
def addGlobals (P : Program) (D : OutDeclState) : OutDeclState := P.globals.foldl (addGlobal P) D

theorem mem_trees_addGlobals {P : Program} {D : OutDeclState} {c : DeclCategory} {t : NodeId}
    (member : t ∈ (addGlobals P D).trees c) : t ∈ D.trees c ∨ t ∈ P.globals := by
  unfold addGlobals at member
  generalize P.globals = globals at member ⊢
  induction globals generalizing D with
  | nil => exact .inl member
  | cons g globals ih =>
    rcases ih member with old | later
    · unfold addGlobal at old
      split at old
      · rcases mem_trees_encode old with old | rfl
        · exact .inl old
        · exact .inr List.mem_cons_self
      · exact .inl old
    · exact .inr (List.mem_cons_of_mem _ later)

end OutDeclState

namespace WriteM

/-- A tree is written with fuel for two more levels than the arena has nodes. -/
theorem writeTree_run (W : TreeWriter) (out : ByteArray) (slot : Option NodeId) :
    (writeTree out slot).run W = (writeTreeWith (W.program.arena.size + 2) out slot).run W := rfl

end WriteM

namespace ReadM

/-- A counted loop that folds each item into an accumulator reads its items
first, in order. -/
theorem forIn_range'_fold {σ α : Type} (item : ReadM α) (push : σ → α → σ) :
    ∀ (n s : Nat) (acc : σ),
      forIn (List.range' s n) acc (fun (_ : Nat) (acc : σ) => do
          let a ← item
          pure (ForInStep.yield (push acc a))) =
        (readList n item >>= fun l => pure (l.foldl push acc))
  | 0, s, acc => by simp [readList]
  | n + 1, s, acc => by
    simp only [List.range'_succ, List.forIn_cons, readList, bind_assoc, pure_bind]
    congr 1
    funext a
    rw [forIn_range'_fold item push n (s + 1) (push acc a)]
    simp

theorem forIn_range_fold {σ α : Type} (item : ReadM α) (push : σ → α → σ) (n : Nat) (acc : σ) :
    forIn [:n] acc (fun (_ : Nat) (acc : σ) => do
        let a ← item
        pure (ForInStep.yield (push acc a))) =
      (readList n item >>= fun l => pure (l.foldl push acc)) := by
  simp only [Std.Legacy.Range.forIn_eq_forIn_range']
  rw [show (Std.Legacy.Range.mk 0 n 1 (by omega)).size = n by simp [Std.Legacy.Range.size]]
  exact forIn_range'_fold item push n 0 acc

theorem readTree_of_run {R R' : TreeReader} {v : Option NodeId}
    (run : readTreeWith (nestingBound R) R = .ok v R') : readTree R = .ok v R' := by
  simp only [readTree, bind, EStateM.bind, get, getThe, MonadStateOf.get, EStateM.get, run]

end ReadM

namespace TreeCodec

/-- A common node stands for itself under the map of the common nodes. -/
theorem nodeAgrees_common (c : CommonNode) : NodeAgrees CommonNode.ids c.node c.node := by
  have fixed : ∀ s ∈ c.node.children, Option.map (image CommonNode.ids) s = id s := by
    intro s member
    cases s with
    | none => rfl
    | some r =>
      have small := c.children_small _ member r rfl
      have entry : CommonNode.ids[r.val]? = some r := by
        rw [CommonNode.getElem?_ids, if_pos small]
      simp [image_eq entry]
  refine ⟨fun s member r inSlot => ?_, ?_⟩
  · simpa [CommonNode.ids_eq] using c.children_small s member r inSlot
  · rw [Node.mapChildren_congr fixed]
    simp [Node.mapChildren]

variable {P : Program} {roots : List NodeId} {S : ByteArray}

/-- An entry of the map of the common nodes is a common node standing for itself. -/
theorem getElem?_ids_eq {r n : NodeId} (entry : CommonNode.ids[r.val]? = some n) :
    r.val < CommonNode.count ∧ n = r := by
  rw [CommonNode.getElem?_ids] at entry
  split at entry
  · next small => exact ⟨small, (Option.some.inj entry).symm⟩
  · cases entry

/-- Writer and reader start in step: the writer of `P` with only the common
nodes numbered, and a reader of a fresh program at the start of its stream. -/
theorem Inv.start (canonical : P.Canonical roots) (D : OutDeclState) {c : Cursor}
    (strings : ({} : StringTable).stream.data.toList <+: S.data.toList) (stringsSmall : S.size < 2 ^ 64)
    (atStart : c.pos = 0) (small : CommonNode.count + c.data.size ≤ 2 ^ 64) :
    Inv P roots S (TreeWriter.new P D true) { program := Program.new, strings := S, cursor := c }
      CommonNode.ids [] where
  readerScope := rfl
  readerStrings := rfl
  stringsHold := StringTable.empty_holds
  stringsPrefix := strings
  stringsSmall := stringsSmall
  last := rfl
  mapSize := rfl
  commons c := by
    rw [CommonNode.getElem?_ids, if_pos (by cases c <;> decide)]
    rfl
  uncommon i n above entry := by
    rw [CommonNode.getElem?_ids, if_neg (by omega)] at entry
    cases entry
  pickles n i := by
    simp only [TreeWriter.new, PickleTable.lookup_preloaded]
    constructor
    · intro numbered
      split at numbered
      · next small =>
        obtain rfl := Option.some.inj numbered
        refine ⟨n, ?_, ?_⟩
        · simp [CommonNode.getElem?_ids, small]
        · simp [CommonNode.getElem?_ids, small]
      · cases numbered
    · rintro ⟨r, entry, named⟩
      have entry' : CommonNode.ids[i]? = some r := by simpa using entry
      obtain ⟨small, rfl⟩ := getElem?_ids_eq (r := ⟨i⟩) entry'
      obtain ⟨-, rfl⟩ := getElem?_ids_eq named
      simp [small]
  pickleCount := by
    simp [TreeWriter.new, PickleTable.size_preloaded, CommonNode.ids_eq]
  picklesKnown r member := by
    simp only [List.mem_toArray, CommonNode.ids_eq, List.mem_map, List.mem_range] at member
    obtain ⟨i, small, rfl⟩ := member
    simpa [CommonNode.ids_eq] using small
  indexed i n above entry := by
    rw [CommonNode.getElem?_ids, if_neg (by omega)] at entry
    cases entry
  reached i n above entry := by
    rw [CommonNode.getElem?_ids, if_neg (by omega)] at entry
    cases entry
  nodes r n entry _ := by
    obtain ⟨small, rfl⟩ := getElem?_ids_eq entry
    obtain ⟨c, rfl⟩ := CommonNode.exists_id small
    rw [canonical.commons c, CommonNode.node_new]
    exact nodeAgrees_common c
  spelled s r found := by
    simp [Program.new, CommonNode.arena] at found
  identified r s small _ named := by
    obtain ⟨c, rfl⟩ := CommonNode.exists_id (by simpa [CommonNode.ids_eq] using small)
    rw [CommonNode.node_new, CommonNode.identifier?_node] at named
    cases named
  opensKnown r member := by cases member
  numbered := by simp [TreeWriter.new, PickleTable.size_preloaded]
  cursorInside := by simp [atStart]
  cursorSmall := small

/-- A slot empty or holding a root, written as a tree and read back as a slot
standing for it, whatever the byte budget: the reader's own fuel covers the
bytes ahead of it. -/
theorem rootSlot_steps (canonical : P.Canonical roots) {slot : Option NodeId}
    (rooted : ∀ t ∈ slot, t ∈ roots) (fuel : Nat) :
    Steps P roots S fuel (PathOk P []) (fun out slot => WriteM.writeTree out slot) ReadM.readTree
      Agrees slot := by
  have step := fun g => tree_step (S := S) canonical (P.arena.size + 2) List.nodup_nil (by simp)
    (by simp) (fun t member => .root (rooted t member)) g
  intro W ok
  obtain ⟨bs, W', long, first⟩ := step 0 W ok
  have writes : Writes (fun out => WriteM.writeTree out slot) W bs W' := fun out => by
    obtain ⟨out', run, data⟩ := first.writes out
    exact ⟨out', by rw [WriteM.writeTree_run, ok.writer.program]; exact run, data⟩
  refine ⟨bs, W', long, writes, first.grows, fun opens R τ rest inv extended ahead _ _ => ?_⟩
  -- the reader picks its fuel from the bytes left, which cover `bs`
  have inside := Cursor.pos_add_le_of_ahead ahead inv.cursorInside
  have nesting : ReadM.nestingBound R = R.cursor.remaining + 2 := by
    simp [ReadM.nestingBound, inv.readerScope]
  have bounded := inv.cursorSmall
  obtain ⟨bs', W'', -, fuelled⟩ := step (ReadM.nestingBound R) W ok
  obtain ⟨rfl, rfl⟩ := Writes.unique first.writes fuelled.writes
  obtain ⟨v, R', τ', run, cursor, inv', grown, agrees⟩ :=
    fuelled.readsBack opens R τ rest inv extended ahead
      (by rw [nesting]; simp only [Cursor.remaining]; omega)
      (by rw [nesting]; simp only [Cursor.remaining, CommonNode.count] at bounded ⊢; omega)
  exact ⟨v, R', τ', ReadM.readTree_of_run run, cursor, inv', grown, agrees⟩

/-- A root written as a tree and read back as a present node standing for it,
whatever the byte budget. -/
theorem root_steps (canonical : P.Canonical roots) {t : NodeId} (root : t ∈ roots) (what : String)
    (fuel : Nat) :
    Steps P roots S fuel (PathOk P []) (fun out t => WriteM.writeTree out (some t))
      (ReadM.readTreeRequired what) (fun τ r t => τ[r.val]? = some t) t := by
  intro W ok
  obtain ⟨bs, W', long, step⟩ :=
    rootSlot_steps canonical (show ∀ n ∈ some t, n ∈ roots from fun _ member => by cases member; exact root)
      fuel W ok
  -- the slot read is present, so the check for a null tree passes
  have present : ∀ τ v, Agrees τ v (some t) → ∃ r, v = some r ∧ τ[r.val]? = some t := by
    rintro τ (_ | r) agrees
    · cases agrees.2
    · exact ⟨r, rfl, agrees_some.1 agrees⟩
  refine ⟨bs, W', long, (Step.bind_pure_of_agrees (g := fun v => v.getD t) step ?_).mono ?_⟩
  · intro τ v agrees
    obtain ⟨r, rfl, -⟩ := present τ v agrees
    rfl
  · rintro τ _ ⟨v, agrees, rfl⟩
    obtain ⟨r, rfl, found⟩ := present τ v agrees
    exact found

/-- A count and that many roots, read back as present nodes standing for them. -/
theorem counted_step (canonical : P.Canonical roots) (what : String) {trees : List NodeId}
    (rooted : ∀ t ∈ trees, t ∈ roots) (fuel : Nat) {W : TreeWriter} (ok : PathOk P [] W) :
    ∃ bs W', Step P roots S fuel W
      (fun main => trees.foldlM (fun main t => WriteM.writeTree main (some t))
        (Out.uleb main trees.length.toUInt64))
      (ReadM.onCursor CursorM.readUleb >>= fun count =>
        ReadM.readList count.toNat (ReadM.readTreeRequired what))
      (fun τ l => List.Forall₂ (fun r t => τ[r.val]? = some t) l trees) bs W' := by
  obtain ⟨bs, W', long, items⟩ := list_step (fun ok grows => PathOk.grow ok grows) trees
    (fun t member => root_steps canonical (rooted t member) what fuel) W ok
  have counted := Step.counted long items
  simp only [ReadM.readCount_eq] at counted
  exact ⟨_, W', counted⟩

/-- The reader's section once the entries `l` are pushed onto table `c`. -/
def pushEntries (c : DeclCategory) (out : DeclsSection) (l : List NodeId) : DeclsSection :=
  l.foldl (fun acc a => { decls := acc.decls.push c a, globals := acc.globals }) out

theorem pushEntries_globals (c : DeclCategory) (out : DeclsSection) (l : List NodeId) :
    (pushEntries c out l).globals = out.globals := by
  induction l generalizing out with
  | nil => rfl
  | cons a l ih => exact ih _

theorem pushEntries_size (c : DeclCategory) (out : DeclsSection) (l : List NodeId) :
    (pushEntries c out l).decls.tables.size = out.decls.tables.size := by
  induction l generalizing out with
  | nil => rfl
  | cons a l ih => exact (ih _).trans (UnitDecls.size_push _ c a)

theorem pushEntries_table {out : DeclsSection} (sized : out.decls.tables.size = 7) (c c' : DeclCategory)
    (l : List NodeId) :
    (pushEntries c out l).decls.table c' =
      if c = c' then out.decls.table c ++ l.toArray else out.decls.table c' := by
  induction l generalizing out with
  | nil =>
    by_cases same : c = c'
    · subst same
      simp [pushEntries]
    · simp [pushEntries, same]
  | cons a l ih =>
    have sized' : (out.decls.push c a).tables.size = 7 := by rw [UnitDecls.size_push, sized]
    rw [pushEntries, List.foldl_cons, ← pushEntries, ih sized']
    by_cases same : c = c'
    · subst same
      simp [UnitDecls.table_push sized]
    · simp [UnitDecls.table_push sized, same]

/-- The tables once table `c` is read onto `out` and then the tables `cs`:
table `c` gains the entries read for it, each other table what `cs` gave it.
Whatever ties an entry to its tree (`R`), the bookkeeping is the same. -/
theorem tables_cons {R : NodeId → NodeId → Prop} {D : OutDeclState} {c : DeclCategory}
    {cs : List DeclCategory} {out out' : DeclsSection} {l : List NodeId} (notIn : c ∉ cs)
    (sized : out.decls.tables.size = 7) (agrees : List.Forall₂ R l (D.trees c))
    (rest : out'.globals = (pushEntries c out l).globals ∧ out'.decls.tables.size = 7 ∧
      ∀ c', ∃ l', out'.decls.table c' = (pushEntries c out l).decls.table c' ++ l'.toArray ∧
        (c' ∈ cs → List.Forall₂ R l' (D.trees c')) ∧ (c' ∉ cs → l' = [])) :
    out'.globals = out.globals ∧ out'.decls.tables.size = 7 ∧
      ∀ c', ∃ l', out'.decls.table c' = out.decls.table c' ++ l'.toArray ∧
        (c' ∈ c :: cs → List.Forall₂ R l' (D.trees c')) ∧ (c' ∉ c :: cs → l' = []) := by
  obtain ⟨globals, size, tables⟩ := rest
  refine ⟨by rw [globals, pushEntries_globals], size, fun c' => ?_⟩
  obtain ⟨l', table, inCs, outCs⟩ := tables c'
  by_cases same : c = c'
  · subst same
    refine ⟨l, ?_, fun _ => agrees, fun absent => absurd List.mem_cons_self absent⟩
    rw [table, outCs notIn, pushEntries_table sized, if_pos rfl]
    simp
  · refine ⟨l', ?_, fun member => inCs (List.mem_of_ne_of_mem (Ne.symm same) member),
      fun absent => outCs fun member => absent (List.mem_cons_of_mem _ member)⟩
    rw [table, pushEntries_table sized, if_neg same]

/-- What reading the tables `cs` onto `out` leaves: the globals and the number
of tables are kept, and each table gains entries, which stand for the trees
written for it when it is one of `cs`, and are none otherwise. -/
def TablesRead (D : OutDeclState) (cs : List DeclCategory) (out : DeclsSection) (τ : List NodeId)
    (out' : DeclsSection) : Prop :=
  out'.globals = out.globals ∧ out'.decls.tables.size = 7 ∧
    ∀ c, ∃ l, out'.decls.table c = out.decls.table c ++ l.toArray ∧
      (c ∈ cs → List.Forall₂ (fun r t => τ[r.val]? = some t) l (D.trees c)) ∧ (c ∉ cs → l = [])

/-- The declaration tables in step: each table's count and trees are written,
and the reader pushes the nodes it reads onto the same table. By induction on
the list of tables, which the reader runs through in the writer's order. -/
theorem tables_step (canonical : P.Canonical roots) (D : OutDeclState)
    (rooted : ∀ c, ∀ t ∈ D.trees c, t ∈ roots) (fuel : Nat) :
    ∀ (cs : List DeclCategory), cs.Nodup → ∀ {W : TreeWriter}, PathOk P [] W →
      ∃ bs W', ∀ out : DeclsSection, out.decls.tables.size = 7 →
        Step P roots S fuel W
          (fun main => cs.foldlM (fun main c => (D.trees c).foldlM
            (fun main t => WriteM.writeTree main (some t)) (Out.uleb main (D.trees c).length.toUInt64))
            main)
          (forIn cs out fun c out => do
            let count ← ReadM.onCursor CursorM.readUleb
            let out ← (do
              let l ← ReadM.readList count.toNat (ReadM.readTreeRequired c.name)
              pure (pushEntries c out l))
            pure (ForInStep.yield out))
          (TablesRead D cs out) bs W'
  | [], _, W, _ => by
    refine ⟨[], W, fun out sized => ?_⟩
    rw [List.forIn_nil]
    refine (Step.congr_write (fun _ => rfl) (Step.nil out W)).mono ?_
    rintro τ _ rfl
    exact ⟨rfl, sized, fun c => ⟨[], by simp, fun member => absurd member List.not_mem_nil,
      fun _ => rfl⟩⟩
  | c :: cs, nodup, W, ok => by
    obtain ⟨notIn, nodup'⟩ := List.nodup_cons.1 nodup
    obtain ⟨bs₁, W₁, first⟩ := counted_step (S := S) canonical c.name (rooted c) fuel ok
    obtain ⟨bs₂, W₂, rest⟩ := tables_step canonical D rooted fuel cs nodup' (ok.grow first.grows)
    refine ⟨bs₁ ++ bs₂, W₂, fun out sized => ?_⟩
    -- the reader reads table `c`, then goes on from the section with it pushed
    have step := first.bind fun l => rest (pushEntries c out l) (by rw [pushEntries_size, sized])
    rw [List.forIn_cons]
    simp only [bind_assoc, pure_bind] at step ⊢
    refine (Step.congr_write (fun _ => rfl) step).mono ?_
    rintro τ out' ⟨l, agrees, rest⟩
    exact tables_cons notIn sized agrees rest

/-- The writer writes the same whatever stream the reader resolves strings
in, so one writer run serves every such stream. -/
theorem Step.uniform {α : Type} {fuel : Nat} {W : TreeWriter} {write : ByteArray → WriteM ByteArray}
    {read : ReadM α} {A : List NodeId → α → Prop}
    (steps : ∀ S, ∃ bs W', Step P roots S fuel W write read A bs W') :
    ∃ bs W', ∀ S, Step P roots S fuel W write read A bs W' := by
  obtain ⟨bs, W', first⟩ := steps .empty
  refine ⟨bs, W', fun S => ?_⟩
  obtain ⟨bs', W'', step⟩ := steps S
  obtain ⟨rfl, rfl⟩ := Writes.unique first.writes step.writes
  exact step

/-- A fresh writer of `P` writes trees from the roots down. -/
theorem pathOk_new (P : Program) (D : OutDeclState) : PathOk P [] (TreeWriter.new P D true) where
  writer := {
    program := rfl
    scope := rfl
    enabled := rfl
    commons := fun c => by
      simp [TreeWriter.new, PickleTable.lookup_preloaded, CommonNode.id]
      cases c <;> decide }
  numbered m member := absurd member List.not_mem_nil

/-- The reader's program `q` and section `sec` stand for the writer's program
`P` and tables `D` under the map `τ` from reader nodes to writer nodes: the
common nodes stand for themselves, every reader node renamed by `τ` is the
writer node it stands for, and the tables and file-scope declarations read
are those written, entry for entry. -/
structure ReadsBackAs (P : Program) (D : OutDeclState) (q : Program) (sec : DeclsSection)
    (τ : List NodeId) : Prop where
  size : τ.length = q.arena.size
  commons : ∀ c : CommonNode, τ[c.index]? = some c.id
  nodes : ∀ (r : NodeId) (n : NodeId), τ[r.val]? = some n → NodeAgrees τ (q.node r) (P.node n)
  tables : ∀ c, List.Forall₂ (fun r t => τ[r.val]? = some t) (sec.decls.table c).toList (D.trees c)
  globals : List.Forall₂ (fun r g => τ[r.val]? = some g) sec.globals P.globals

end TreeCodec

end IrStream
