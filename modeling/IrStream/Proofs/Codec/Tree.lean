import Mathlib
import IrStream.Proofs.Codec.Payload

/-!
Trees in step. The tree writer recurses with a fuel bound and the reader with
a byte budget; this module shows that on a canonical graph the writer never
runs out of fuel and the reader reads back a tree standing for the one
written:

* `Program.Path`: the nodes on the way down from a root to the slot being
  written. Below an unshared node the path never comes back to it
  (`Program.Path.not_mem`), because the node has a single holder; types,
  declarations and binfos are numbered before their fields are written, so
  the writer meets them again only as back-references. So every path is
  duplicate free, and fuel for one more level than there are nodes suffices.
* the run lemmas of the two recursions: `ReadM.readTreeWith_null`,
  `readTreeWith_pickle`, `readTreeWith_node` for the three tags the writer
  uses outside function bodies, `WriteM.writeTreeWith_full` and the node
  equations `WriteM.writeNode_body`, `ReadM.readNode_plain`,
  `ReadM.readNode_indexable`;
* one step lemma per way a slot is written: `null_step`, `pickle_step`,
  `identifier_step`, and `node_step` for a node written in full, which opens a
  placeholder for a type, declaration or binfo and allocates any other node
  once its fields are read;
* `tree_step`, by induction on the writer's fuel: every slot placed below a
  duplicate-free path with enough fuel is written and read back in step.
-/

namespace IrStream

namespace Program

/-- The nodes on the way down to a slot, the last one first: the first node
is held at a position of the roots, and each next one in a slot of the one
before it. -/
inductive Path (p : Program) (roots : List NodeId) : List NodeId → Prop
  | root {n : NodeId} : n ∈ roots → Path p roots [n]
  | child {n m : NodeId} {ms : List NodeId} : Path p roots (m :: ms) →
      some n ∈ (p.node m).children → Path p roots (n :: m :: ms)

variable {p : Program} {roots : List NodeId}

theorem Path.reaches {l : List NodeId} (path : p.Path roots l) : ∀ n ∈ l, p.Reaches roots n := by
  induction path with
  | root member => exact fun n mem => by rw [List.mem_singleton.1 mem]; exact .root member
  | child _ slot reaches =>
    intro n mem
    rcases List.mem_cons.1 mem with rfl | mem
    · exact .child (reaches _ List.mem_cons_self) slot
    · exact reaches n mem

/-- A node of a path is held at a root, if it is the first, or by the node
before it. -/
theorem Path.holder {l : List NodeId} (path : p.Path roots l) :
    ∀ {pre post : List NodeId} {n : NodeId}, l = pre ++ n :: post →
      (post = [] ∧ n ∈ roots) ∨
        ∃ q rest, post = q :: rest ∧ some n ∈ (p.node q).children ∧ p.Reaches roots q := by
  induction path with
  | root member =>
    intro pre post n split
    rcases pre with _ | ⟨x, pre⟩
    · simp only [List.nil_append, List.cons.injEq] at split
      obtain ⟨rfl, rfl⟩ := split
      exact .inl ⟨rfl, member⟩
    · simp at split
  | child path slot holder =>
    intro pre post n split
    rcases pre with _ | ⟨x, pre⟩
    · simp only [List.nil_append, List.cons.injEq] at split
      obtain ⟨rfl, rfl⟩ := split
      exact .inr ⟨_, _, rfl, slot, path.reaches _ List.mem_cons_self⟩
    · simp only [List.cons_append, List.cons.injEq] at split
      exact holder split.2

theorem exists_holder_slot {a n : NodeId} (reached : p.Reaches roots a)
    (slot : some n ∈ (p.node a).children) : ∃ i, p.Holder roots n (.inr (a, i)) := by
  obtain ⟨i, entry⟩ := List.mem_iff_getElem?.1 slot
  exact ⟨i, .slot reached entry⟩

theorem exists_holder_root {n : NodeId} (member : n ∈ roots) : ∃ i, p.Holder roots n (.inl i) := by
  obtain ⟨i, entry⟩ := List.mem_iff_getElem?.1 member
  exact ⟨i, .root entry⟩

/-- Below an unshared node, a duplicate-free path does not come back to it: the
node's single holder is the node just above it, which would then stand twice
on the path. -/
theorem Path.not_mem (canonical : p.Canonical roots) {n : NodeId} {path : List NodeId}
    (held : p.Path roots (n :: path)) (nodup : path.Nodup) (unshared : p.Unshared n) :
    n ∉ path := by
  intro member
  have reached := held.reaches n List.mem_cons_self
  cases held with
  | root _ => simp at member
  | child above slot =>
    rename_i b rest
    obtain ⟨i, fromAbove⟩ := exists_holder_slot (above.reaches b List.mem_cons_self) slot
    obtain ⟨pre, post, split⟩ := List.append_of_mem member
    rcases above.holder split with ⟨-, root⟩ | ⟨q, post', rfl, slot', reachedQ⟩
    · -- held at a root and in a slot
      obtain ⟨j, fromRoot⟩ := exists_holder_root root
      cases canonical.singleHolder n reached unshared _ _ fromAbove fromRoot
    · -- held by `b` and by the node after it on the path, so `b` stands twice
      obtain ⟨j, fromQ⟩ := exists_holder_slot reachedQ slot'
      cases canonical.singleHolder n reached unshared _ _ fromAbove fromQ
      rw [split] at nodup
      rcases pre with _ | ⟨x, pre⟩
      · simp at split nodup
        exact nodup.1.1 split.1.symm
      · simp only [List.cons_append, List.cons.injEq] at split
        rw [split.1] at nodup
        simp at nodup

end Program

namespace CommonNode

/-- The first 22 ids are the common nodes'. -/
theorem exists_id {n : NodeId} (small : n.val < count) : ∃ c : CommonNode, c.id = n := by
  obtain ⟨v⟩ := n
  refine ⟨all.get ⟨v, by simp [all]; exact small⟩, ?_⟩
  simp only [count] at small
  interval_cases v <;> rfl

end CommonNode

namespace Tag

theorem ofCode_toUInt8 (code : TreeCode) : (ofCode code).toUInt8.toNat = ofCode code := by
  have small := code.index_lt
  simp only [ofCode, tree]
  rw [Nat.toUInt8_eq, UInt8.toNat_ofNat_of_lt' (by simp only [UInt8.size]; omega)]

theorem code?_ofCode (code : TreeCode) : code? (ofCode code) = some code := by
  simp [code?, ofCode, TreeCode.ofIndex?_index]

end Tag

theorem DeclCategory.ofTag?_ofCode (code : TreeCode) : DeclCategory.ofTag? (Tag.ofCode code) = none := by
  unfold DeclCategory.ofTag?
  rw [if_pos (by simp only [Tag.ofCode, Tag.tree, Tag.categoryRef]; omega)]
  exact List.getElem?_eq_none
    (by simp only [DeclCategory.all, Tag.ofCode, Tag.tree, Tag.categoryRef, List.length_cons, List.length_nil]; omega)

namespace ReadM

theorem readTreeWith_null {R : TreeReader} {rest : List UInt8} (g : Nat)
    (ahead : R.cursor.ahead = Tag.null.toUInt8 :: rest) :
    readTreeWith (g + 1) R = .ok none { R with cursor := R.cursor.advance 1 } := by
  simp [readTreeWith, bind, EStateM.bind, onCursor, EStateM.run, CursorM.readU8_of_ahead ahead,
    Tag.null, pure, EStateM.pure]

theorem readTreeWith_pickle {R : TreeReader} {i : UInt64} {r : NodeId} {rest : List UInt8} (g : Nat)
    (ahead : R.cursor.ahead = Tag.pickleRef.toUInt8 :: (Leb128.ofUInt64 i ++ rest))
    (found : R.pickles.nodes[i.toNat]? = some r) :
    readTreeWith (g + 1) R =
      .ok (some r) { R with cursor := R.cursor.advance ((Leb128.ofUInt64 i).length + 1) } := by
  have index : (R.cursor.advance 1).ahead = Leb128.ofUInt64 i ++ rest := by simp [ahead]
  simp [readTreeWith, bind, EStateM.bind, onCursor, EStateM.run, CursorM.readU8_of_ahead ahead,
    CursorM.readUleb_of_ahead index, Tag.null, Tag.pickleRef, pure, EStateM.pure, get, getThe,
    MonadStateOf.get, EStateM.get, ReadTable.get, found, Nat.add_comm]

theorem readTreeWith_node {R : TreeReader} {rest : List UInt8} (g : Nat) (code : TreeCode)
    (ahead : R.cursor.ahead = (Tag.ofCode code).toUInt8 :: rest) :
    readTreeWith (g + 1) R =
      (readNode (readTreeWith g) code >>= fun id => pure (some id))
        { R with cursor := R.cursor.advance 1 } := by
  have tag := Tag.ofCode_toUInt8 code
  have above : 64 ≤ Tag.ofCode code := by simp [Tag.ofCode, Tag.tree]
  simp only [readTreeWith, bind, EStateM.bind, onCursor, EStateM.run, CursorM.readU8_of_ahead ahead, tag,
    DeclCategory.ofTag?_ofCode, Tag.code?_ofCode]
  simp [Tag.null, Tag.pickleRef, Tag.localRef, Tag.labelRef, Tag.ssaNameRef,
    show Tag.ofCode code ≠ 0 by omega, show Tag.ofCode code ≠ 1 by omega,
    show Tag.ofCode code ≠ 9 by omega, show Tag.ofCode code ≠ 10 by omega,
    show Tag.ofCode code ≠ 11 by omega]
  rfl

end ReadM

namespace WriteM

/-- What `writeNode` writes after the tag of a node that is not an identifier:
its type, if the kind streams it, the flag word and the payload. -/
def nodeBody (child : ByteArray → Option NodeId → WriteM ByteArray) (out : ByteArray)
    (id : NodeId) (n : Node) : WriteM ByteArray := do
  let out ← (if n.code.streamsType then child out n.ty else pure out)
  let out ← flagWord out (Flags.pack (TreeFlags.streamed n.code) n.flags) n.locus
  writePayload child out id n

variable {child : ByteArray → Option NodeId → WriteM ByteArray}

theorem writeTreeWith_none (f : Nat) (out : ByteArray) (W : TreeWriter) :
    (writeTreeWith (f + 1) out none).run W = .ok (Out.u8 out Tag.null.toUInt8, W) := rfl

theorem writeTreeWith_pickled {W : TreeWriter} {n : NodeId} {i : Nat}
    (found : W.pickles.lookup n = some i) (f : Nat) (out : ByteArray) :
    (writeTreeWith (f + 1) out (some n)).run W =
      .ok (Out.uleb (Out.u8 out Tag.pickleRef.toUInt8) i.toUInt64, W) := by
  simp [writeTreeWith, found]
  rfl

theorem writeTreeWith_full {W : TreeWriter} {n : NodeId} (missing : W.pickles.lookup n = none)
    (outside : W.scope = none) (f : Nat) (out : ByteArray) :
    (writeTreeWith (f + 1) out (some n)).run W = (writeNode (writeTreeWith f) out n).run W := by
  simp [writeTreeWith, missing, scopedRef, outside]

theorem writeNode_identifier {W : TreeWriter} {id : NodeId} {s : String}
    (named : (W.program.node id).data = .identifier s)
    (plain : (W.program.node id).code.isGlobalIndexable = false) (out : ByteArray) :
    (writeNode child out id).run W =
      (stringRef (Out.u8 out (Tag.ofCode (W.program.node id).code).toUInt8) (some s.toUTF8)).run W := by
  simp [writeNode, named, plain]

theorem writeNode_body {W : TreeWriter} {id : NodeId}
    (unnamed : ∀ s, (W.program.node id).data ≠ .identifier s) (out : ByteArray) :
    (writeNode child out id).run W =
      (nodeBody child (Out.u8 out (Tag.ofCode (W.program.node id).code).toUInt8) id
        (W.program.node id)).run
        (if (W.program.node id).code.isGlobalIndexable then { W with pickles := W.pickles.register id }
          else W) := by
  cases indexable : (W.program.node id).code.isGlobalIndexable <;>
    cases streams : (W.program.node id).code.streamsType <;>
    simp [writeNode, indexable, streams, nodeBody]

end WriteM

namespace ReadM

/-- What `readNode` reads after the tag of a node that is not an identifier. -/
def nodeBody (child : ReadM (Option NodeId)) (code : TreeCode) : ReadM Node := do
  let ty ← (if code.streamsType then child else pure none)
  let (packed, locus) ← flagWord
  let data ← readPayload child code
  pure { code, ty, flags := Flags.unpack (TreeFlags.streamed code) packed.toNat {}, locus, data }

variable {child : ReadM (Option NodeId)}

theorem readNode_identifier :
    readNode child .identifierNode = requiredStr >>= fun name => modifyGet fun s =>
      let (id, p) := s.program.identifier name
      (id, { s with program := p }) := by
  simp [readNode]

theorem readNode_plain {code : TreeCode} (named : code ≠ .identifierNode)
    (plain : code.isGlobalIndexable = false) :
    readNode child code = nodeBody child code >>= alloc := by
  cases streams : code.streamsType <;> simp [readNode, named, plain, nodeBody, streams, bind_assoc]

theorem readNode_indexable {code : TreeCode} (named : code ≠ .identifierNode)
    (indexable : code.isGlobalIndexable = true) (R : TreeReader) :
    readNode child code R =
      (nodeBody child code >>= fun n => replace ⟨R.program.arena.size⟩ n >>= fun _ =>
        pure ⟨R.program.arena.size⟩)
        { R with program := (R.program.alloc (Node.fresh code)).2,
                 pickles := R.pickles.register ⟨R.program.arena.size⟩ } := by
  have body : readNode child code = alloc (Node.fresh code) >>= fun id =>
      modify (fun s : TreeReader => { s with pickles := s.pickles.register id }) >>= fun _ =>
      nodeBody child code >>= fun n => replace id n >>= fun _ => pure id := by
    cases streams : code.streamsType <;>
      simp [readNode, named, indexable, nodeBody, streams, bind_assoc]
  rw [body]
  rfl

end ReadM

namespace Node

/-- A canonical node holding a spelling is a bare identifier node. -/
theorem code_of_identifier {n : Node} (canonical : n.Canonical) {s : String}
    (named : n.data = .identifier s) : n.code = .identifierNode := by
  have fits := NodeData.Fits.of_fits canonical.fits
  rw [named] at fits
  generalize layout : n.code.layout = L at fits
  cases fits
  exact TreeCode.layout_eq_identifier.1 layout

/-- A canonical identifier node holds a spelling. -/
theorem exists_identifier_of_code {n : Node} (canonical : n.Canonical)
    (code : n.code = .identifierNode) : ∃ s, n.data = .identifier s := by
  have fits := NodeData.Fits.of_fits canonical.fits
  rw [code] at fits
  change NodeData.Fits .identifier n.data at fits
  generalize n.data = d at fits ⊢
  cases fits with
  | identifier s => exact ⟨s, rfl⟩

theorem eq_identifierNode {n : Node} (canonical : n.Canonical) {s : String}
    (named : n.data = .identifier s) : n = Program.identifierNode s := by
  have code := code_of_identifier canonical named
  have untyped := canonical.untyped (by rw [code]; rfl)
  obtain ⟨flags, locus⟩ := canonical.bareIdentifier code
  rcases n with ⟨code', ty, flags', locus', data⟩
  simp only at code untyped flags locus named
  subst code untyped flags locus named
  rfl

/-- Only identifier nodes hold a spelling. -/
theorem identifier?_of_code {n : Node} (canonical : n.Canonical) (plain : n.code ≠ .identifierNode) :
    n.identifier? = none := by
  unfold identifier?
  split
  · next s named => exact absurd (code_of_identifier canonical named) plain
  · rfl

end Node

namespace TreeCodec

theorem Writes.unique {write : ByteArray → WriteM ByteArray} {W W₁ W₂ : TreeWriter}
    {bs bs' : List UInt8} (first : Writes write W bs W₁) (second : Writes write W bs' W₂) :
    bs = bs' ∧ W₁ = W₂ := by
  obtain ⟨out₁, run₁, data₁⟩ := first .empty
  obtain ⟨out₂, run₂, data₂⟩ := second .empty
  rw [run₁] at run₂
  obtain ⟨rfl, rfl⟩ := Prod.mk.inj (Except.ok.inj run₂)
  exact ⟨List.append_cancel_left (data₁.symm.trans data₂), rfl⟩

/-- Slots a renaming leaves alone. -/
theorem known_of_kept {τ : List NodeId} {d : NodeData} (kept : d.mapChildren (keep τ) = d) :
    ∀ c ∈ d.children, Known τ c := by
  have same : d.children.map (keep τ) = d.children := by
    rw [← NodeData.children_mapChildren, kept]
  intro c member
  obtain ⟨i, entry⟩ := List.mem_iff_getElem?.1 member
  have fixed := List.map_eq_iff.1 same i
  rw [entry, Option.map_some, Option.some.injEq] at fixed
  exact known_iff_keep.2 fixed.symm

section Tree

variable {P : Program} {roots : List NodeId} {S : ByteArray}

theorem Step.unbudgeted {α : Type} {write : ByteArray → WriteM ByteArray} {read : ReadM α}
    {A : List NodeId → α → Prop} {bs : List UInt8} {W W' : TreeWriter} (writes : Writes write W bs W')
    (grows : Grows W W') : Step P roots S 0 W write read A bs W' where
  writes := writes
  grows := grows
  readsBack _ := fun _ _ _ _ _ _ budget _ => absurd budget (Nat.not_lt_zero _)

/-- A node the writer has not numbered is not one of the common nodes. -/
theorem uncommon_of_fresh {W : TreeWriter} (ok : WriterOk P W) {n : NodeId}
    (fresh : W.pickles.lookup n = none) : CommonNode.count ≤ n.val := by
  by_contra small
  obtain ⟨c, rfl⟩ := CommonNode.exists_id (Nat.lt_of_not_le small)
  have numbered := ok.commons c
  rw [fresh] at numbered
  exact Bool.false_ne_true numbered

/-- The writer state once the tag of `n` is written: a type, declaration or
binfo is numbered before its fields. -/
def numberFor (W : TreeWriter) (n : NodeId) : TreeWriter :=
  if (W.program.node n).code.isGlobalIndexable then { W with pickles := W.pickles.register n } else W

theorem grows_numberFor (W : TreeWriter) (n : NodeId) : Grows W (numberFor W n) := by
  unfold numberFor
  split
  · exact ⟨rfl, rfl, rfl, fun m i found => PickleTable.lookup_register_of_found found n,
      List.prefix_refl _, rfl⟩
  · exact Grows.refl W

variable {fuel : Nat} {ok : TreeWriter → Prop} {write : ByteArray → Option NodeId → WriteM ByteArray}
  {read : ReadM (Option NodeId)}

/-- The body of a node that is not an identifier, in step: its type slot, flag
word and payload, read back as a node standing for the one written. -/
theorem body_step (okGrows : ∀ {W W'}, ok W → Grows W W' → ok W')
    (writerOk : ∀ {W}, ok W → WriterOk P W) (id : NodeId) {n : Node} (canonical : n.Canonical)
    (plain : n.code ≠ .identifierNode)
    (each : ∀ c ∈ n.children, Steps P roots S fuel ok write read Agrees c)
    {W : TreeWriter} (okW : ok W) :
    ∃ bs W', Step P roots S fuel W (fun out => WriteM.nodeBody write out id n)
      (ReadM.nodeBody read n.code) (fun τ m => NodeAgrees τ m n) bs W' := by
  obtain ⟨bs₁, W₁, tyStep⟩ := optional_step rfl canonical.untyped
    (fun _ => each n.ty List.mem_cons_self) okW
  have ok₁ := okGrows okW tyStep.grows
  have small := TreeFlags.pack_lt n.code n.flags
  have flagStep : Step P roots S fuel W₁ _ _ _ _ _ :=
    flagWord_step (writerOk ok₁) (lt_trans small (by norm_num)) n.locus fuel
  obtain ⟨bs₃, W₃, payloadStep⟩ := payload_step okGrows id canonical plain
    (fun c member => each c (List.mem_cons_of_mem _ member)) (okGrows ok₁ flagStep.grows)
  refine ⟨_, W₃, (tyStep.bind fun _ => Step.bind_eq flagStep payloadStep.map).mono ?_⟩
  rintro τ m ⟨ty, agreesTy, data, ⟨kept, renamed⟩, rfl⟩
  have packed : (Flags.pack (TreeFlags.streamed n.code) n.flags).toUInt64.toNat =
      Flags.pack (TreeFlags.streamed n.code) n.flags := by
    rw [Nat.toUInt64_eq, UInt64.toNat_ofNat_of_lt' (lt_trans small (by norm_num))]
  refine ⟨fun c member => ?_, ?_⟩
  · rcases List.mem_cons.1 member with rfl | member
    · exact agreesTy.1
    · exact known_of_kept kept c member
  · simp only [Node.mapChildren, agreesTy.2, renamed, packed, TreeFlags.unpack_pack canonical.flags]

/-- An empty slot is written as the null tag. -/
theorem null_step (f g : Nat) (W : TreeWriter) :
    Step P roots S (g + 1) W (WriteM.writeTreeWith (f + 1) · none) (ReadM.readTreeWith (g + 1))
      (Agrees · · none) [Tag.null.toUInt8] W where
  writes out := ⟨_, WriteM.writeTreeWith_none f out W, Bytes.u8_data out _⟩
  grows := Grows.refl W
  readsBack _ := by
    intro R τ rest inv _ ahead _ _
    exact ⟨none, _, τ, ReadM.readTreeWith_null g ahead, rfl, inv.advance ahead, List.prefix_refl _,
      fun _ _ => agrees_none⟩

/-- A node the writer has numbered is written as a back-reference, which
resolves to the reader node standing for it. -/
theorem pickle_step {W : TreeWriter} {n : NodeId} {i : Nat} (found : W.pickles.lookup n = some i)
    (f g : Nat) :
    Step P roots S (g + 1) W (WriteM.writeTreeWith (f + 1) · (some n)) (ReadM.readTreeWith (g + 1))
      (Agrees · · (some n)) (Tag.pickleRef.toUInt8 :: Leb128.ofUInt64 i.toUInt64) W where
  writes out := ⟨_, WriteM.writeTreeWith_pickled found f out, by
    rw [Bytes.uleb_data, Bytes.u8_data, List.append_assoc]
    rfl⟩
  grows := Grows.refl W
  readsBack _ := by
    intro R τ rest inv _ ahead _ _
    obtain ⟨r, entry, named⟩ := (inv.pickles n i).1 found
    -- The index is below the number of back-references, which the stream's size bounds.
    have inside : i < R.pickles.nodes.size := (Array.getElem?_eq_some_iff.1 entry).1
    have before : R.cursor.pos < R.cursor.data.size := Cursor.pos_lt_of_ahead ahead
    have small : i < 2 ^ 64 := by
      have numbered := inv.numbered
      have cursorSmall := inv.cursorSmall
      rw [inv.pickleCount] at numbered
      simp only [CommonNode.count] at numbered cursorSmall
      omega
    have index : i.toUInt64.toNat = i := by
      rw [Nat.toUInt64_eq, UInt64.toNat_ofNat_of_lt' small]
    rw [← index] at entry
    exact ⟨some r, _, τ, ReadM.readTreeWith_pickle g ahead entry, rfl, inv.advance ahead,
      List.prefix_refl _, fun _ longer => agrees_some.2 (getElem?_of_isPrefix longer named)⟩

/-- The reader's cursor after a tag and the bytes that follow it. -/
theorem advance_tag {c c' : Cursor} {t : UInt8} {bs : List UInt8}
    (after : c' = (c.advance 1).advance bs.length) : c' = c.advance (t :: bs).length := by
  rw [after, Cursor.advance_advance, Nat.add_comm]
  rfl

/-- An identifier is written as its tag and spelling; the reader finds the node
of that spelling, or makes one. -/
theorem identifier_step (canonical : P.Canonical roots) {W : TreeWriter} (ok : WriterOk P W)
    {n : NodeId} {s : String} (reached : P.Reaches roots n) (fresh : W.pickles.lookup n = none)
    (named : (P.node n).data = .identifier s) (f g : Nat) :
    Step P roots S (g + 1) W (WriteM.writeTreeWith (f + 1) · (some n)) (ReadM.readTreeWith (g + 1))
      (Agrees · · (some n))
      ((Tag.ofCode .identifierNode).toUInt8 ::
        (W.strings.writeRef .empty (some s.toUTF8)).1.data.toList)
      (afterRef W (some s.toUTF8)) := by
  have node := canonical.nodes n reached
  have code := Node.code_of_identifier node named
  have program := ok.program
  have spelling : Step P roots S (g + 1) W _ _ _ _ _ := requiredStr_step W s (g + 1)
  refine ⟨fun out => ?_, spelling.grows, fun opens => ?_⟩
  · obtain ⟨out', run, data⟩ := spelling.writes (Out.u8 out (Tag.ofCode .identifierNode).toUInt8)
    refine ⟨out', ?_, by rw [data, Bytes.u8_data, List.append_assoc]; rfl⟩
    rw [WriteM.writeTreeWith_full fresh ok.scope,
      WriteM.writeNode_identifier (by rw [program]; exact named) (by rw [program, code]; rfl),
      program, code]
    exact run
  · intro R τ rest inv extended ahead budget bound
    have ahead₀ : (R.cursor.advance 1).ahead =
        (W.strings.writeRef .empty (some s.toUTF8)).1.data.toList ++ rest := by simp [ahead]
    obtain ⟨v, R₂, τ₂, run, cursor, inv₂, grown, agrees⟩ :=
      spelling.readsBack opens _ τ rest (inv.advanceTag ahead) extended ahead₀
        (by simp only [List.length_cons] at budget; omega) (by omega)
    have spelled : v = s := agrees τ₂ (List.prefix_refl _)
    subst spelled
    -- The reader looks the spelling up, and allocates it if it is new.
    have whole : ReadM.readTreeWith (g + 1) R =
        .ok (some (R₂.program.identifier v).1) { R₂ with program := (R₂.program.identifier v).2 } := by
      have run₀ : ReadM.requiredStr { R with cursor := R.cursor.advance 1 } = .ok v R₂ := run
      rw [ReadM.readTreeWith_node g _ ahead, ReadM.readNode_identifier]
      simp only [bind, EStateM.bind, run₀]
      rfl
    have after := advance_tag (t := (Tag.ofCode .identifierNode).toUInt8) cursor
    cases found : R₂.program.arena.identifiers.get? v with
    | some r =>
      have entry := inv₂.identifierHit canonical found reached (by simp [Node.identifier?, named])
      refine ⟨some r, R₂, τ₂, ?_, after, inv₂, grown,
        fun _ longer => agrees_some.2 (getElem?_of_isPrefix longer entry)⟩
      rw [whole, Program.identifier_of_found found]
    | none =>
      have inv₃ := inv₂.identifierNew found (Node.eq_identifierNode node named)
        (uncommon_of_fresh ok fresh) reached
      have id : (R₂.program.identifier v).1 = ⟨τ₂.length⟩ := by
        rw [Program.identifier_of_absent found, inv₂.mapSize]
      refine ⟨_, _, τ₂ ++ [n], whole, after, inv₃, grown.trans (List.prefix_append _ _),
        fun _ longer => ?_⟩
      rw [id]
      exact agrees_some.2 (getElem?_of_isPrefix longer (by simp))

/-- A node that is neither shared nor an identifier, read in full: after its tag
the reader reads its body, then allocates it. -/
theorem plain_readsBack {W W' : TreeWriter} (ok : WriterOk P W) {n : NodeId} {bs : List UInt8}
    {g : Nat} {opens : List NodeId} (reached : P.Reaches roots n) (fresh : W.pickles.lookup n = none)
    (node : (P.node n).Canonical) (plain : (P.node n).code ≠ .identifierNode)
    (unindexed : (P.node n).code.isGlobalIndexable = false)
    (body : ReadsBack P roots S opens W W' bs g (ReadM.nodeBody (ReadM.readTreeWith g) (P.node n).code)
      (fun τ m => NodeAgrees τ m (P.node n))) :
    ReadsBack P roots S opens W W' ((Tag.ofCode (P.node n).code).toUInt8 :: bs) (g + 1)
      (ReadM.readTreeWith (g + 1)) (Agrees · · (some n)) := by
  intro R τ rest inv extended ahead budget bound
  have ahead₀ : (R.cursor.advance 1).ahead = bs ++ rest := by simp [ahead]
  obtain ⟨m, R₂, τ₂, run, cursor, inv₂, grown, agrees⟩ :=
    body _ τ rest (inv.advanceTag ahead) extended ahead₀
      (by simp only [List.length_cons] at budget; omega) (by omega)
  have bare : m.identifier? = none := by
    rw [← Node.identifier?_mapChildren (Option.map (image τ₂)) m, (agrees τ₂ (List.prefix_refl _)).2]
    exact Node.identifier?_of_code node plain
  have inv₃ := inv₂.allocNode (agrees _ (List.prefix_append _ _)) bare (uncommon_of_fresh ok fresh)
    unindexed reached
  have run₀ : ReadM.nodeBody (ReadM.readTreeWith g) (P.node n).code
      { R with cursor := R.cursor.advance 1 } = .ok m R₂ := run
  refine ⟨some ⟨R₂.program.arena.size⟩, { R₂ with program := (R₂.program.alloc m).2 }, τ₂ ++ [n],
    ?_, advance_tag cursor, inv₃,
    grown.trans (List.prefix_append _ _), fun _ longer => ?_⟩
  · rw [ReadM.readTreeWith_node g _ ahead, ReadM.readNode_plain plain unindexed]
    simp only [bind, EStateM.bind, run₀]
    rfl
  · rw [← inv₂.mapSize]
    exact agrees_some.2 (getElem?_of_isPrefix longer (by simp))

/-- A type, declaration or binfo read in full: after its tag the reader opens a
placeholder, numbered as the writer numbers the node, reads the body with the
placeholder open, and puts the node read in its place. -/
theorem placeholder_readsBack {W W' : TreeWriter} (ok : WriterOk P W) {n : NodeId} {bs : List UInt8}
    {g : Nat} {opens : List NodeId} (reached : P.Reaches roots n) (fresh : W.pickles.lookup n = none)
    (node : (P.node n).Canonical) (plain : (P.node n).code ≠ .identifierNode)
    (indexable : (P.node n).code.isGlobalIndexable = true)
    (body : ∀ opens, ReadsBack P roots S opens { W with pickles := W.pickles.register n } W' bs g
      (ReadM.nodeBody (ReadM.readTreeWith g) (P.node n).code) (fun τ m => NodeAgrees τ m (P.node n))) :
    ReadsBack P roots S opens W W' ((Tag.ofCode (P.node n).code).toUInt8 :: bs) (g + 1)
      (ReadM.readTreeWith (g + 1)) (Agrees · · (some n)) := by
  intro R τ rest inv extended ahead budget bound
  have ahead₀ : (R.cursor.advance 1).ahead = bs ++ rest := by simp [ahead]
  have inv₀ := inv.advanceTag ahead
  -- The tag just read leaves room for one more number.
  have room : W.pickles.size < CommonNode.count + (R.cursor.advance 1).pos := by
    have numbered := inv.numbered
    simp only [Cursor.advance]
    omega
  have inv₁ := inv₀.openPlaceholder fresh (uncommon_of_fresh ok fresh) reached (P.node n).code room
  obtain ⟨m, R₂, τ₂, run, cursor, inv₂, grown, agrees⟩ :=
    body _ _ _ rest inv₁ extended ahead₀ (by simp only [List.length_cons] at budget; omega) (by omega)
  have bare : m.identifier? = none := by
    rw [← Node.identifier?_mapChildren (Option.map (image τ₂)) m, (agrees τ₂ (List.prefix_refl _)).2]
    exact Node.identifier?_of_code node plain
  have entry : τ₂[R.program.arena.size]? = some n := by
    rw [← inv.mapSize]
    exact getElem?_of_isPrefix grown (by simp)
  have inv₃ := inv₂.closePlaceholder entry (agrees τ₂ (List.prefix_refl _)) bare
  have run₁ : ReadM.nodeBody (ReadM.readTreeWith g) (P.node n).code
      { R with cursor := R.cursor.advance 1,
               program := (R.program.alloc (Node.fresh (P.node n).code)).2,
               pickles := R.pickles.register ⟨R.program.arena.size⟩ } = .ok m R₂ := run
  refine ⟨some ⟨R.program.arena.size⟩, { R₂ with program := R₂.program.replace ⟨R.program.arena.size⟩ m },
    τ₂, ?_, advance_tag cursor, inv₃, (List.prefix_append _ _).trans grown,
    fun _ longer => agrees_some.2 (getElem?_of_isPrefix longer entry)⟩
  rw [ReadM.readTreeWith_node g _ ahead]
  show EStateM.bind _ _ _ = _
  simp only [EStateM.bind]
  rw [ReadM.readNode_indexable plain indexable]
  simp only [bind, EStateM.bind, run₁]
  rfl

/-- A node written in full: its tag, then its body. A type, declaration or
binfo is numbered before its body. -/
theorem node_step {W : TreeWriter} (ok : WriterOk P W) {n : NodeId} (reached : P.Reaches roots n)
    (fresh : W.pickles.lookup n = none) (node : (P.node n).Canonical)
    (plain : (P.node n).code ≠ .identifierNode) {f g : Nat} {bs : List UInt8} {W' : TreeWriter}
    (body : Step P roots S g (numberFor W n)
      (fun out => WriteM.nodeBody (WriteM.writeTreeWith f) out n (P.node n))
      (ReadM.nodeBody (ReadM.readTreeWith g) (P.node n).code) (fun τ m => NodeAgrees τ m (P.node n))
      bs W') :
    Step P roots S (g + 1) W (WriteM.writeTreeWith (f + 1) · (some n)) (ReadM.readTreeWith (g + 1))
      (Agrees · · (some n)) ((Tag.ofCode (P.node n).code).toUInt8 :: bs) W' where
  writes out := by
    have unnamed : ∀ s, (W.program.node n).data ≠ .identifier s := fun s named =>
      plain (Node.code_of_identifier node (by rw [← ok.program]; exact named))
    obtain ⟨out', run, data⟩ := body.writes (Out.u8 out (Tag.ofCode (P.node n).code).toUInt8)
    refine ⟨out', ?_, by rw [data, Bytes.u8_data, List.append_assoc]; rfl⟩
    have same : W.program.node n = P.node n := by rw [ok.program]
    rw [← same] at run
    rw [WriteM.writeTreeWith_full fresh ok.scope, WriteM.writeNode_body unnamed]
    exact run
  grows := (grows_numberFor W n).trans body.grows
  readsBack opens := by
    cases indexable : (P.node n).code.isGlobalIndexable
    · have start : numberFor W n = W := by simp [numberFor, ok.program, indexable]
      rw [start] at body
      exact plain_readsBack ok reached fresh node plain indexable (body.readsBack opens)
    · have start : numberFor W n = { W with pickles := W.pickles.register n } := by
        simp [numberFor, ok.program, indexable]
      rw [start] at body
      exact placeholder_readsBack ok reached fresh node plain indexable body.readsBack

/-- With no fuel left the reader reads nothing, so a slot in step whenever the
reader has one more level of fuel is in step at every fuel. -/
theorem steps_of_succ {ok : TreeWriter → Prop} {slot : Option NodeId}
    (succ : ∀ g, Steps P roots S (g + 1) ok write (ReadM.readTreeWith (g + 1)) Agrees slot) :
    ∀ g, Steps P roots S g ok write (ReadM.readTreeWith g) Agrees slot
  | 0, W, okW => by
    obtain ⟨bs, W', long, step⟩ := succ 0 W okW
    exact ⟨bs, W', long, Step.unbudgeted step.writes step.grows⟩
  | g + 1, W, okW => succ g W okW

/-- A duplicate-free list of nodes of the arena is no longer than the arena. -/
theorem length_le_of_nodup {path : List NodeId} {k : Nat} (nodup : path.Nodup)
    (inside : ∀ m ∈ path, m.val < k) : path.length ≤ k := by
  have within : path ⊆ (List.range k).map NodeId.mk := fun m member =>
    List.mem_map.2 ⟨m.val, List.mem_range.2 (inside m member), rfl⟩
  simpa using (List.subperm_of_subset nodup within).length_le

/-- A writer state fit for writing below `path`: the types, declarations and
binfos on the path are numbered, so the writer meets them again only as
back-references. -/
structure PathOk (P : Program) (path : List NodeId) (W : TreeWriter) : Prop where
  writer : WriterOk P W
  numbered : ∀ m ∈ path, (P.node m).code.isGlobalIndexable = true → (W.pickles.lookup m).isSome

namespace PathOk

variable {path : List NodeId} {W W' : TreeWriter}

theorem grow (ok : PathOk P path W) (grows : Grows W W') : PathOk P path W' where
  writer := ok.writer.grow grows
  numbered m member indexable := by
    obtain ⟨i, found⟩ := Option.isSome_iff_exists.1 (ok.numbered m member indexable)
    simp [grows.pickles m i found]

/-- Once the tag of `n` is written, the path goes on down through `n`. -/
theorem numberFor (ok : PathOk P path W) (n : NodeId) : PathOk P (n :: path) (numberFor W n) where
  writer := ok.writer.grow (grows_numberFor W n)
  numbered m member indexable := by
    rcases List.mem_cons.1 member with rfl | member
    · have registered : TreeCodec.numberFor W m = { W with pickles := W.pickles.register m } := by
        simp [TreeCodec.numberFor, ok.writer.program, indexable]
      rw [registered]
      cases found : W.pickles.lookup m with
      | none => simp [PickleTable.lookup_register_of_fresh found]
      | some i => simp [PickleTable.lookup_register_of_found found]
    · exact (ok.grow (grows_numberFor W n)).numbered m member indexable

end PathOk

/-- The writer and reader recursions in step: every slot below a
duplicate-free path of arena nodes, with writer fuel for two more levels than
there are nodes off the path, is written and read back. The induction is on
the writer's fuel. A node written in full is not on its own path (a type,
declaration or binfo there is numbered, and any other node has a single
holder), so the path stays duplicate free one level down. -/
theorem tree_step (canonical : P.Canonical roots) :
    ∀ (f : Nat) {path : List NodeId} {slot : Option NodeId}, path.Nodup →
      (∀ m ∈ path, m.val < P.arena.size) → P.arena.size + 2 ≤ f + path.length →
      (∀ n ∈ slot, P.Path roots (n :: path)) →
      ∀ g, Steps P roots S g (PathOk P path) (WriteM.writeTreeWith f) (ReadM.readTreeWith g)
        Agrees slot
  | 0, path, _, nodup, inside, fuel, _ => by
    have short := length_le_of_nodup nodup inside
    omega
  | f + 1, path, slot, nodup, inside, fuel, held => by
    refine steps_of_succ fun g W ok => ?_
    cases slot with
    | none => exact ⟨_, W, by simp, null_step f g W⟩
    | some n =>
      have path' := held n rfl
      have reached := path'.reaches n List.mem_cons_self
      cases found : W.pickles.lookup n with
      | some i => exact ⟨_, W, by simp, pickle_step found f g⟩
      | none =>
        have node := canonical.nodes n reached
        by_cases named : ∃ s, (P.node n).data = .identifier s
        · obtain ⟨s, named⟩ := named
          exact ⟨_, _, by simp, identifier_step canonical ok.writer reached found named f g⟩
        have plain : (P.node n).code ≠ .identifierNode := fun code =>
          named (Node.exists_identifier_of_code node code)
        have off : n ∉ path := by
          intro member
          cases indexable : (P.node n).code.isGlobalIndexable
          · exact Program.Path.not_mem canonical path' nodup
              ⟨uncommon_of_fresh ok.writer found, indexable, plain⟩ member
          · have numbered := ok.numbered n member indexable
            rw [found] at numbered
            exact Bool.false_ne_true numbered
        have down : ∀ c ∈ (P.node n).children, Steps P roots S g (PathOk P (n :: path))
            (WriteM.writeTreeWith f) (ReadM.readTreeWith g) Agrees c := fun c member =>
          tree_step canonical f (List.nodup_cons.2 ⟨off, nodup⟩)
            (fun m on => by
              rcases List.mem_cons.1 on with rfl | on
              · exact canonical.inRange m reached
              · exact inside m on)
            (by simp only [List.length_cons]; omega)
            (fun m slot => path'.child (slot ▸ member)) g
        obtain ⟨bs, W', body⟩ := body_step (fun ok grows => ok.grow grows) (fun ok => ok.writer) n
          node plain down (ok.numberFor n)
        exact ⟨_, W', by simp, node_step ok.writer reached found node plain body⟩

end Tree

end TreeCodec

end IrStream
