import Mathlib
import IrStream.Body.Cfg
import IrStream.Proofs.Codec.DeclsRoundTrip

/-!
Control-flow graphs as a body builds them: from the graph with only the entry
and exit blocks, by appending blocks, adding edges between present blocks and
changing the counters of blocks and edges (`Cfg.Reachable`).

Every such graph has the same shape (`Cfg.Shape`): its slots hold blocks
numbered by their position with no hole, every edge lands inside the slots,
and the layout chain is a permutation of the slot numbers that starts at the
entry and ends at the exit. A new block goes into the chain just before the
first exit entry, which is never the head and always exists, so both ends stay
(`Shape.addBlock`). Block numbers are 32-bit, so while the slots fit in 32 bits
the chain has no duplicate and names only present blocks, which is everything
`Cfg.verify` checks (`Shape.verify_eq_ok`).
-/

namespace IrStream

namespace Cfg

/-- One call that builds a graph: a new block, an edge between two present
blocks, or a change to a block that keeps its number and the destinations of
its edges (its counters, flags and contents, and the counters and flags of its
edges). -/
inductive Step : Cfg → Cfg → Prop
  | addBlock (g : Cfg) : Step g g.addBlock.2
  | addEdge (g : Cfg) (src : Nat) (edge : Edge) (source : (g.block? src).isSome)
      (target : (g.block? edge.dest.toNat).isSome) : Step g (g.addEdge src edge)
  | update (g : Cfg) (index : Nat) {f : Block → Block}
      (keeps : ∀ b, (f b).index = b.index ∧ (f b).succs.map (·.dest) = b.succs.map (·.dest)) :
      Step g (g.modifyBlock index f)

/-- The graphs built by steps from the one with only the fixed blocks. -/
def Reachable (g : Cfg) : Prop := Relation.ReflTransGen Step initial g

/-- The slot where `addBlock` puts a new block in the chain: the first exit
entry, or the end if there is none. -/
def chainSlot (order : List UInt32) : Nat := (order.findIdx? (· == exitBlock)).getD order.length

/-- The shape of every graph built by steps. -/
structure Shape (g : Cfg) : Prop where
  /-- Slot `i` holds the block numbered `i`, and no slot is a hole. -/
  numbered : g.blocks.map (Option.map (·.index)) = (List.range g.lastBlock).map fun i => some i.toUInt32
  fixed : 2 ≤ g.lastBlock
  targets : ∀ b, some b ∈ g.blocks → ∀ e ∈ b.succs, e.dest.toNat < g.lastBlock
  chain : g.order.Perm ((List.range g.lastBlock).map Nat.toUInt32)
  first : g.order.head? = some entryBlock
  last : g.order.getLast? = some exitBlock

variable {g g' : Cfg}

/-! ### What the calls change -/

@[simp] theorem lastBlock_modifyBlock (index : Nat) (f : Block → Block) :
    (g.modifyBlock index f).lastBlock = g.lastBlock := by
  simp [modifyBlock, lastBlock]

@[simp] theorem order_modifyBlock (index : Nat) (f : Block → Block) :
    (g.modifyBlock index f).order = g.order := rfl

@[simp] theorem blocks_addBlock : g.addBlock.2.blocks = g.blocks ++ [some { index := g.lastBlock.toUInt32 }] :=
  rfl

@[simp] theorem order_addBlock : g.addBlock.2.order = g.order.insertIdx (chainSlot g.order) g.lastBlock.toUInt32 :=
  rfl

theorem block?_eq_some_iff {i : Nat} {b : Block} : g.block? i = some b ↔ g.blocks[i]? = some (some b) :=
  Option.join_eq_some_iff

@[simp] theorem blocks_modifyBlock (index : Nat) (f : Block → Block) :
    (g.modifyBlock index f).blocks = g.blocks.modify index (Option.map f) := rfl

theorem mem_blocks_modifyBlock {index : Nat} {f : Block → Block} {b : Block}
    (member : some b ∈ (g.modifyBlock index f).blocks) : some b ∈ g.blocks ∨ ∃ b₀, some b₀ ∈ g.blocks ∧ b = f b₀ := by
  obtain ⟨i, entry⟩ := List.mem_iff_getElem?.1 member
  simp only [modifyBlock, List.getElem?_modify] at entry
  cases old : g.blocks[i]? with
  | none => simp [old] at entry
  | some o =>
    rw [old] at entry
    have old := List.mem_of_getElem? old
    by_cases here : index = i
    · cases o with
      | none => simp [here] at entry
      | some b₀ =>
        simp only [here, if_true, Option.map_some, Option.map_eq_map, Option.some.injEq] at entry
        exact .inr ⟨b₀, old, entry.symm⟩
    · simp only [here, if_false, Option.map_eq_map, Option.map_some, Option.some.injEq] at entry
      exact .inl (entry ▸ old)

/-- Adding an edge from a present block only changes that block. -/
theorem addEdge_of_present {src : Nat} (edge : Edge) (source : (g.block? src).isSome) :
    g.addEdge src edge = g.modifyBlock src fun b => { b with succs := b.succs ++ [edge] } := by
  obtain ⟨b, found⟩ := Option.isSome_iff_exists.1 source
  have inside : src < g.blocks.length := by
    have := (List.getElem?_eq_some_iff.1 (block?_eq_some_iff.1 found)).1
    exact this
  have kept : g.ensureBlock src = g := by
    have entry := block?_eq_some_iff.1 found
    have slot : g.blocks[src] = some b := (List.getElem?_eq_some_iff.1 entry).2
    simp only [ensureBlock, if_neg (Nat.not_le.2 inside)]
    congr 1
    rw [List.modify_eq_set_getElem?, entry]
    show g.blocks.set src (some b) = g.blocks
    rw [← slot]
    exact List.set_getElem_self inside
  rw [addEdge, kept]

/-! ### The chain slot -/

/-- In a chain that starts at the entry and ends at the exit, a new block goes
after the head and before the last entry. -/
theorem chainSlot_bounds {order : List UInt32} (first : order.head? = some entryBlock)
    (last : order.getLast? = some exitBlock) : 1 ≤ chainSlot order ∧ chainSlot order < order.length := by
  have member : exitBlock ∈ order := List.mem_of_getLast? last
  cases found : order.findIdx? (· == exitBlock) with
  | none =>
    have := (List.findIdx?_eq_none_iff.1 found) exitBlock member
    simp at this
  | some k =>
    obtain ⟨below, exit, before⟩ := List.findIdx?_eq_some_iff_getElem.1 found
    refine ⟨?_, by simpa [chainSlot, found] using below⟩
    simp only [chainSlot, found, Option.getD_some]
    rcases Nat.eq_zero_or_pos k with rfl | positive
    · have head : order[0] = entryBlock := by
        rw [List.head?_eq_getElem?, List.getElem?_eq_getElem below] at first
        exact Option.some.inj first
      simp [head, entryBlock, exitBlock] at exit
    · exact positive

theorem head?_insertIdx {order : List UInt32} {k : Nat} (after : 1 ≤ k) (x : UInt32) :
    (order.insertIdx k x).head? = order.head? := by
  rw [List.head?_eq_getElem?, List.head?_eq_getElem?, List.getElem?_insertIdx_of_lt after]

theorem getLast?_insertIdx {order : List UInt32} {k : Nat} (before : k < order.length) (x : UInt32) :
    (order.insertIdx k x).getLast? = order.getLast? := by
  rw [List.getLast?_eq_getElem?, List.getLast?_eq_getElem?, List.length_insertIdx_of_le_length before.le,
    Nat.add_sub_cancel, List.getElem?_insertIdx_of_gt (by omega)]

/-! ### Each step keeps the shape -/

theorem initial_shape : initial.Shape where
  numbered := rfl
  fixed := by decide
  targets b member := by
    simp only [initial, List.mem_cons, Option.some.injEq, List.not_mem_nil, or_false] at member
    rcases member with rfl | rfl <;> simp
  chain := by decide
  first := rfl
  last := rfl

namespace Shape

/-- A block changed without changing its number or edge destinations, or
given edges that land inside the slots. -/
theorem modifyBlock (shape : g.Shape) (index : Nat) {f : Block → Block} (keepsIndex : ∀ b, (f b).index = b.index)
    (lands : ∀ b, some b ∈ g.blocks → ∀ e ∈ (f b).succs, e.dest.toNat < g.lastBlock) :
    (g.modifyBlock index f).Shape where
  numbered := by
    rw [lastBlock_modifyBlock, ← shape.numbered]
    apply List.ext_getElem?
    intro i
    simp only [blocks_modifyBlock, List.getElem?_map, List.getElem?_modify]
    cases g.blocks[i]? with
    | none => rfl
    | some o => cases o <;> split_ifs <;> simp [keepsIndex]
  fixed := by simpa using shape.fixed
  targets b member := by
    rw [lastBlock_modifyBlock]
    rcases mem_blocks_modifyBlock member with old | ⟨b₀, old, rfl⟩
    · exact shape.targets b old
    · exact lands b₀ old
  chain := by simpa using shape.chain
  first := shape.first
  last := shape.last

theorem addBlock (shape : g.Shape) : g.addBlock.2.Shape where
  numbered := by
    rw [lastBlock_addBlock, blocks_addBlock, List.map_append, shape.numbered, List.range_succ,
      List.map_append]
    rfl
  fixed := by rw [lastBlock_addBlock]; exact Nat.le_succ_of_le shape.fixed
  targets b member e edge := by
    rw [lastBlock_addBlock]
    rw [blocks_addBlock, List.mem_append, List.mem_singleton, Option.some.injEq] at member
    rcases member with old | rfl
    · exact Nat.lt_succ_of_lt (shape.targets b old e edge)
    · simp at edge
  chain := by
    have bounds := chainSlot_bounds shape.first shape.last
    rw [order_addBlock, lastBlock_addBlock, List.range_succ, List.map_append, List.map_singleton]
    exact (List.perm_insertIdx _ _ bounds.2.le).trans
      ((shape.chain.cons _).trans (List.perm_append_singleton _ _).symm)
  first := by
    rw [order_addBlock, head?_insertIdx (chainSlot_bounds shape.first shape.last).1]
    exact shape.first
  last := by
    rw [order_addBlock, getLast?_insertIdx (chainSlot_bounds shape.first shape.last).2]
    exact shape.last

theorem step (shape : g.Shape) (step : Step g g') : g'.Shape := by
  cases step with
  | addBlock => exact shape.addBlock
  | addEdge src edge source target =>
    rw [addEdge_of_present edge source]
    refine shape.modifyBlock src (fun _ => rfl) fun b old e member => ?_
    rcases List.mem_append.1 member with old' | new
    · exact shape.targets b old e old'
    · rw [List.mem_singleton.1 new]
      obtain ⟨d, found⟩ := Option.isSome_iff_exists.1 target
      exact (List.getElem?_eq_some_iff.1 (block?_eq_some_iff.1 found)).1
  | update index keeps =>
    refine shape.modifyBlock index (fun b => (keeps b).1) fun b old e member => ?_
    -- the edge has the destination of one the block had before
    have moved : e.dest ∈ (b.succs.map (·.dest)) := by
      rw [← (keeps b).2]
      exact List.mem_map_of_mem member
    obtain ⟨e₀, member₀, same⟩ := List.mem_map.1 moved
    rw [← same]
    exact shape.targets b old e₀ member₀

/-! ### What `verify` sees in a graph of that shape -/

theorem block?_of_lt (shape : g.Shape) {i : Nat} (below : i < g.lastBlock) :
    ∃ b, g.block? i = some b ∧ b.index = i.toUInt32 := by
  have entry := congrArg (·[i]?) shape.numbered
  simp only [List.getElem?_map, List.getElem?_range below, Option.map_some] at entry
  cases slot : g.blocks[i]? with
  | none => simp [slot] at entry
  | some o =>
    cases o with
    | none => simp [slot] at entry
    | some b =>
      simp only [slot, Option.map_some, Option.some.injEq] at entry
      exact ⟨b, block?_eq_some_iff.2 slot, entry⟩

theorem present_map_index (shape : g.Shape) :
    g.present.map (·.index) = (List.range g.lastBlock).map Nat.toUInt32 := by
  have slots := congrArg (List.filterMap id) shape.numbered
  simp only [List.filterMap_map] at slots
  rw [present, List.map_filterMap]
  simpa using slots

theorem index_of_block? (shape : g.Shape) {i : Nat} {b : Block} (found : g.block? i = some b) :
    b.index = i.toUInt32 := by
  have below : i < g.lastBlock := (List.getElem?_eq_some_iff.1 (block?_eq_some_iff.1 found)).1
  obtain ⟨b', found', index⟩ := shape.block?_of_lt below
  rw [found] at found'
  cases found'
  exact index

/-- A 32-bit block number below the slot count names a present block. -/
theorem present_of_toNat_lt (shape : g.Shape) {i : UInt32} (below : i.toNat < g.lastBlock) :
    (g.block? i.toNat).isSome := by
  obtain ⟨b, found, -⟩ := shape.block?_of_lt below
  simp [found]

theorem mem_chain (shape : g.Shape) (fits : g.lastBlock ≤ UInt32.size) {i : UInt32} (member : i ∈ g.order) :
    i.toNat < g.lastBlock := by
  obtain ⟨k, below, rfl⟩ := List.mem_map.1 (shape.chain.subset member)
  have small : k < UInt32.size := lt_of_lt_of_le (List.mem_range.1 below) fits
  rw [Nat.toUInt32_eq, UInt32.toNat_ofNat_of_lt' small]
  exact List.mem_range.1 below

theorem chain_nodup (shape : g.Shape) (fits : g.lastBlock ≤ UInt32.size) : g.order.Nodup := by
  refine shape.chain.nodup_iff.2 (List.Nodup.map_on ?_ List.nodup_range)
  intro x below y below' same
  have small : x < UInt32.size := lt_of_lt_of_le (List.mem_range.1 below) fits
  have small' : y < UInt32.size := lt_of_lt_of_le (List.mem_range.1 below') fits
  have := congrArg UInt32.toNat same
  rwa [Nat.toUInt32_eq, Nat.toUInt32_eq, UInt32.toNat_ofNat_of_lt' small,
    UInt32.toNat_ofNat_of_lt' small'] at this

end Shape

/-- A chain whose entries name present blocks, with no duplicate and none
already seen, has no bad entry. -/
theorem firstBadInOrder_eq_none {l seen : List UInt32} (named : ∀ i ∈ l, (g.block? i.toNat).isSome)
    (nodup : l.Nodup) (fresh : ∀ i ∈ l, i ∉ seen) : g.firstBadInOrder l seen = none := by
  induction l generalizing seen with
  | nil => rfl
  | cons i rest ih =>
    have present : (g.block? i.toNat).isNone = false := by
      simpa [Option.isNone_iff_eq_none, ← Option.isSome_iff_ne_none] using named i List.mem_cons_self
    have unseen : seen.contains i = false := by simpa using fresh i List.mem_cons_self
    rw [firstBadInOrder, present, unseen, Bool.or_false, if_neg Bool.false_ne_true]
    refine ih (fun j member => named j (List.mem_cons_of_mem _ member)) (List.nodup_cons.1 nodup).2 ?_
    intro j member
    rw [List.mem_cons, not_or]
    exact ⟨fun same => (List.nodup_cons.1 nodup).1 (same ▸ member), fresh j (List.mem_cons_of_mem _ member)⟩

/-- A loop of checks that all pass. -/
theorem forIn_checks_ok {α ε : Type} (xs : List α) {f : α → Unit → Except ε (ForInStep Unit)}
    (each : ∀ x ∈ xs, f x () = .ok (.yield ())) : forIn xs () f = .ok () :=
  forIn_except_ok xs (fun _ _ => ()) (fun x member _ => each x member) ()

namespace Shape

/-- A graph of that shape whose slots fit in 32 bits passes `verify`. -/
theorem verify_eq_ok (shape : g.Shape) (fits : g.lastBlock ≤ UInt32.size) : g.verify = .ok () := by
  have headOk : (g.order.head? != some entryBlock) = false := by simp [shape.first]
  have chainOk : g.firstBadInOrder g.order [] = none :=
    firstBadInOrder_eq_none (fun i member => shape.present_of_toNat_lt (shape.mem_chain fits member))
      (shape.chain_nodup fits) (fun _ _ => List.not_mem_nil)
  have allListed : g.present.find? (fun b => !g.order.contains b.index) = none := by
    rw [List.find?_eq_none]
    intro b member
    have listed : b.index ∈ g.order :=
      shape.chain.symm.subset (shape.present_map_index ▸ List.mem_map_of_mem member)
    simp [listed]
  unfold verify
  rw [forIn_checks_ok _ (fun fixed member => ?fixed), forIn_checks_ok _ (fun b member => ?edges)]
  · simp only [headOk, chainOk, allListed]
    rfl
  case fixed =>
    -- the entry and the exit are slots 0 and 1
    have present : (g.block? fixed.toNat).isSome := by
      refine shape.present_of_toNat_lt ?_
      have := shape.fixed
      simp only [List.mem_cons, List.not_mem_nil, or_false] at member
      rcases member with rfl | rfl <;> simp [entryBlock, exitBlock] <;> omega
    simp [Option.isSome_iff_ne_none.1 present, Option.isNone_iff_eq_none]
    rfl
  case edges =>
    have old : some b ∈ g.blocks := by simpa [present] using member
    rw [forIn_checks_ok _ (fun e edge => ?landed)]
    · rfl
    case landed =>
      have landed := shape.present_of_toNat_lt (shape.targets b old e edge)
      simp [Option.isSome_iff_ne_none.1 landed, Option.isNone_iff_eq_none]
      rfl

end Shape

theorem Reachable.shape (reach : g.Reachable) : g.Shape := by
  induction reach with
  | refl => exact initial_shape
  | tail _ step shape => exact shape.step step

/-- Every graph built by appending blocks, adding edges between present blocks
and changing counters has each block at the slot of its 32-bit number, and its
chain is a permutation of the present blocks that starts at the entry and ends
at the exit. While the slots fit in 32 bits it passes `verify`. -/
theorem reachable_chain_verified (reach : g.Reachable) :
    (∀ i b, g.block? i = some b → b.index = i.toUInt32) ∧
    g.order.Perm (g.present.map (·.index)) ∧
    g.order.head? = some entryBlock ∧ g.order.getLast? = some exitBlock ∧
    (g.lastBlock ≤ UInt32.size → g.verify = .ok ()) := by
  have shape := reach.shape
  refine ⟨fun i b found => shape.index_of_block? found, ?_, shape.first, shape.last,
    shape.verify_eq_ok⟩
  rw [shape.present_map_index]
  exact shape.chain

/-- A diamond: the entry falls through to a test block whose two arms meet at
the exit, with profile counts on the arms. -/
def diamond : Cfg :=
  let g := initial.addBlock.2.addBlock.2.addBlock.2
  let g := g.addEdge 0 { dest := 2, probability := 10000, flags := 0x0001 }
  let g := g.addEdge 2 { dest := 3, probability := 7000, flags := 0x0100 }
  let g := g.addEdge 2 { dest := 4, probability := 3000, flags := 0x0200 }
  let g := g.addEdge 3 { dest := 1, probability := 10000, count := -4 }
  let g := g.addEdge 4 { dest := 1, probability := 10000 }
  g.modifyBlock 2 fun b => { b with count := 12, frequency := 1000 }

theorem diamond_chain_verified :
    diamond.Reachable ∧
    (∀ i b, diamond.block? i = some b → b.index = i.toUInt32) ∧
    diamond.order.Perm (diamond.present.map (·.index)) ∧
    diamond.order.head? = some entryBlock ∧ diamond.order.getLast? = some exitBlock ∧
    (diamond.lastBlock ≤ UInt32.size → diamond.verify = .ok ()) :=
  have reach : diamond.Reachable :=
    .tail (.tail (.tail (.tail (.tail (.tail (.tail (.tail (.single (.addBlock _))
      (.addBlock _)) (.addBlock _))
      (.addEdge _ _ _ (by decide) (by decide)))
      (.addEdge _ _ _ (by decide) (by decide)))
      (.addEdge _ _ _ (by decide) (by decide)))
      (.addEdge _ _ _ (by decide) (by decide)))
      (.addEdge _ _ _ (by decide) (by decide)))
      (.update _ _ fun _ => ⟨rfl, rfl⟩)
  ⟨reach, reachable_chain_verified reach⟩

/-- New blocks go before the exit, in the order they were added. -/
example : diamond.order = [0, 2, 3, 4, 1] := by decide

end Cfg

end IrStream
