import Mathlib
import IrStream.Codec.Cfg
import IrStream.Proofs.Wire
import IrStream.Proofs.Body.CfgChain

/-!
The control-flow stream read back. The writer appends the profile status, the
slot count, one record per present block (its number, its edge count and each
edge's destination, probability, count and flags), an end mark, the chain and
a second end mark (`Cfg.write_data`, with `Cfg.records` for everything after
the slot count).

The reader makes a graph of holes as long as the slot count and fills it record
by record (`Cfg.stepBlock`): every destination a record names gets a block
with default fields, and the record's own block gets its edges. Read in slot
order, a slot below the records read so far holds what the written graph
holds there, and a slot above holds a default block exactly when an edge read
so far lands on it (`Cfg.Staged`). So a graph whose blocks carry only their
number and edges, and whose edges land on present blocks, is rebuilt
exactly, holes included (`Cfg.foldl_stepBlock_present`).

`CursorM.Reads` says that a reader, on any cursor with given bytes ahead,
returns a value and moves over exactly those bytes; it composes along `>>=`,
and each loop of the reader is one induction over what the writer wrote
(`readEdges_reads`, `readBlockList_reads`, `readOrder_reads`).
-/

namespace IrStream

namespace CursorM

/-- On every cursor with `bs` ahead, `m` returns `v` and moves over `bs`. -/
def Reads {α : Type} (m : CursorM α) (bs : List UInt8) (v : α) : Prop :=
  ∀ (c : Cursor) (rest : List UInt8), c.ahead = bs ++ rest → m c = .ok v (c.advance bs.length)

namespace Reads

variable {α β : Type} {m : CursorM α} {p q : List UInt8} {a : α}

theorem pure (v : α) : Reads (Pure.pure v) [] v := fun _ _ _ => rfl

theorem bind {k : α → CursorM β} {b : β} (first : Reads m p a) (second : Reads (k a) q b) :
    Reads (m >>= k) (p ++ q) b := by
  intro c rest ahead
  rw [List.append_assoc] at ahead
  have ahead₂ : (c.advance p.length).ahead = q ++ rest := by simp [ahead]
  show EStateM.bind m k c = _
  rw [bind_ok (first c _ ahead), second _ rest ahead₂, Cursor.advance_advance, List.length_append]

theorem congr_bytes (same : p = q) (reads : Reads m p a) : Reads m q a := same ▸ reads

/-- A part that reads nothing, then the rest. -/
theorem bind_nil {k : α → CursorM β} {b : β} (first : Reads m [] a) (second : Reads (k a) q b) :
    Reads (m >>= k) q b :=
  first.bind second

/-- A last part whose value is passed through a function. -/
theorem bind_end {f : α → β} (first : Reads m p a) :
    Reads (m >>= fun x => Pure.pure (f x)) p (f a) := by
  simpa using first.bind (k := fun x => Pure.pure (f x)) (pure (f a))

theorem discard (reads : Reads m p a) : Reads (discard m) p PUnit.unit := by
  intro c rest ahead
  show EStateM.map _ m c = _
  simp only [EStateM.map, reads c rest ahead]

theorem uleb (v : UInt64) : Reads readUleb (Leb128.ofUInt64 v) v := fun _ _ => readUleb_of_ahead

theorem sleb (v : Int64) : Reads readSleb (Leb128.ofInt64 v) v := fun _ _ => readSleb_of_ahead

theorem u32 (v : UInt32) : Reads readU32 (Leb128.ofUInt64 v.toUInt64) v := fun _ _ => readU32_of_ahead

theorem i32 (v : Int32) : Reads readI32 (Leb128.ofInt64 v.toInt64) v := fun _ _ => readI32_of_ahead

/-- A loop that reads one item per round into an array reads the items one
after another. -/
theorem forIn_push {item : CursorM α} {record : α → List UInt8} :
    ∀ (items : List α), (∀ x ∈ items, Reads item (record x) x) → ∀ (s : Nat) (acc : Array α),
      Reads (forIn (List.range' s items.length) acc fun (_ : Nat) (acc : Array α) => do
          let x ← item
          Pure.pure (ForInStep.yield (acc.push x)))
        (items.flatMap record) (acc ++ items.toArray)
  | [], _, _, acc => by simpa using Reads.pure acc
  | x :: items, each, s, acc => by
    simp only [List.length_cons, List.range'_succ, List.forIn_cons, List.flatMap_cons, bind_assoc,
      pure_bind]
    refine (each x List.mem_cons_self).bind ?_
    have rest := forIn_push items (fun y member => each y (List.mem_cons_of_mem _ member)) (s + 1)
      (acc.push x)
    simpa using rest

/-- A loop whose fuel is one more than the bytes left reads what it reads with
any fuel above the length of what it reads. -/
theorem fuelled {l : Nat → CursorM α} {k : α → CursorM β} {b : β} (bound : Nat)
    (enough : ∀ fuel, bound < fuel → Reads (l fuel) p a) (short : bound ≤ p.length)
    (next : Reads (k a) q b) :
    Reads (get >>= fun (c : Cursor) => l (c.remaining + 1) >>= k) (p ++ q) b := by
  intro c rest ahead
  have left := Cursor.length_le_remaining ahead
  rw [List.length_append] at left
  exact (enough (c.remaining + 1) (by omega)).bind next c rest ahead

/-- A count no larger than the bytes still to read, or than the allowance,
passes the check, which reads nothing. -/
theorem checkCount_bind {k : Nat → CursorM β} {b : β} {what : String} {count : UInt64}
    {unwritten : Nat} (bounded : count.toNat ≤ max p.length unwritten) (next : Reads (k count.toNat) p b) :
    Reads (checkCount what count unwritten >>= k) p b := by
  intro c rest ahead
  have left := Cursor.length_le_remaining ahead
  show EStateM.bind _ k c = _
  rw [bind_ok (checkCount_of_le (by omega))]
  exact next c rest ahead

end Reads

end CursorM

namespace ProfileStatus

@[simp] theorem ofCode?_code (p : ProfileStatus) : ofCode? p.code = some p := by
  cases p <;> rfl

@[simp] theorem code_toUInt64_toNat (p : ProfileStatus) : p.code.toUInt64.toNat = p.code := by
  cases p <;> rfl

end ProfileStatus

namespace Cfg

/-! ### What the writer appends -/

/-- The bytes of one edge: destination, probability, count and flags. -/
def edgeRecord (e : Edge) : List UInt8 :=
  Leb128.ofUInt64 e.dest.toUInt64 ++ Leb128.ofInt64 e.probability.toInt64 ++ Leb128.ofInt64 e.count ++
    Leb128.ofUInt64 e.flags.toUInt64

/-- The bytes of one present block: its number, its edge count and its edges. -/
def blockRecord (b : Block) : List UInt8 :=
  Leb128.ofInt64 b.index.toUInt64.toInt64 ++ Leb128.ofUInt64 b.succs.length.toUInt64 ++
    b.succs.flatMap edgeRecord

/-- The bytes of one chain entry. -/
def chainEntry (i : UInt32) : List UInt8 := Leb128.ofInt64 i.toUInt64.toInt64

/-- The end mark of the block records and of the chain. -/
def endMark : List UInt8 := Leb128.ofInt64 listEnd

/-- Everything written after the slot count. -/
def records (g : Cfg) : List UInt8 :=
  g.present.flatMap blockRecord ++ endMark ++ g.order.flatMap chainEntry ++ endMark

theorem foldl_edges_data (es : List Edge) (out : ByteArray) :
    (es.foldl (fun out e => Out.uleb (Out.sleb (Out.sleb (Out.uleb out e.dest.toUInt64)
      e.probability.toInt64) e.count) e.flags.toUInt64) out).data.toList =
      out.data.toList ++ es.flatMap edgeRecord := by
  induction es generalizing out with
  | nil => simp
  | cons e es ih => simp [ih, edgeRecord]

theorem foldl_blocks_data (bs : List Block) (out : ByteArray) :
    (bs.foldl (fun out b =>
      let out := Out.uleb (Out.sleb out b.index.toUInt64.toInt64) b.succs.length.toUInt64
      b.succs.foldl (fun out e => Out.uleb (Out.sleb (Out.sleb (Out.uleb out e.dest.toUInt64)
        e.probability.toInt64) e.count) e.flags.toUInt64) out) out).data.toList =
      out.data.toList ++ bs.flatMap blockRecord := by
  induction bs generalizing out with
  | nil => simp
  | cons b bs ih => simp [ih, foldl_edges_data, blockRecord]

theorem foldl_chain_data (order : List UInt32) (out : ByteArray) :
    (order.foldl (fun out i => Out.sleb out i.toUInt64.toInt64) out).data.toList =
      out.data.toList ++ order.flatMap chainEntry := by
  induction order generalizing out with
  | nil => simp
  | cons i order ih => simp [ih, chainEntry]

/-- The writer appends the profile status, the slot count and the records. -/
theorem write_data (out : ByteArray) (g : Cfg) :
    (write out g).data.toList = out.data.toList ++ Leb128.ofUInt64 g.profile.code.toUInt64 ++
      Leb128.ofUInt64 g.lastBlock.toUInt64 ++ g.records := by
  simp [write, foldl_blocks_data, foldl_chain_data, records, endMark]

/-! ### The reader's loops -/

theorem blockIndex_of_lt {i last : UInt32} (below : i.toNat < last.toNat) :
    CursorM.Reads (blockIndex i.toUInt64.toInt64 last) [] i := by
  have value := Leb128.toInt_toInt64 i
  have inRange : (0 ≤ i.toUInt64.toInt64.toInt && i.toUInt64.toInt64.toInt < last.toNat) = true := by
    simp only [value, Bool.and_eq_true, decide_eq_true_eq]
    omega
  have back : (i.toNat : Int).toNat.toUInt32 = i := by simp
  rw [blockIndex, if_pos inRange, value, back]
  exact CursorM.Reads.pure i

theorem readEdge_reads {last : UInt32} {e : Edge} (below : e.dest.toNat < last.toNat) :
    CursorM.Reads (readEdge last) (edgeRecord e) e := by
  rw [edgeRecord, List.append_assoc, List.append_assoc]
  unfold readEdge
  refine (CursorM.Reads.u32 e.dest).bind ?_
  refine (blockIndex_of_lt below).discard.bind_nil ?_
  refine (CursorM.Reads.i32 e.probability).bind ?_
  refine (CursorM.Reads.sleb e.count).bind ?_
  exact (CursorM.Reads.u32 e.flags).bind_end

/-- A chain entry is no end mark: block numbers are unsigned. -/
theorem toInt64_ne_listEnd (i : UInt32) : (i.toUInt64.toInt64 == listEnd) = false := by
  have value := Leb128.toInt_toInt64 i
  rw [beq_eq_false_iff_ne]
  intro same
  have := congrArg Int64.toInt same
  rw [value] at this
  simp [listEnd] at this

/-- What the reader does with one block record: every destination gets a
block, made with default fields where there was none, and the record's own
block, made the same way, gets the record's edges. -/
def stepBlock (h : Cfg) (b : Block) : Cfg :=
  let h := b.succs.foldl (fun h e => h.ensureBlock e.dest.toNat) h
  (h.ensureBlock b.index.toNat).modifyBlock b.index.toNat fun x => { x with succs := b.succs }

/-- The edges of one record, as many as its count says. -/
theorem readEdges_reads {last : UInt32} {es : List Edge} (below : ∀ e ∈ es, e.dest.toNat < last.toNat)
    (small : es.length < 2 ^ 64) :
    CursorM.Reads (forIn [:es.length.toUInt64.toNat] (#[] : Array Edge) fun (_ : Nat) (succs : Array Edge) => do
        let e ← readEdge last
        pure (ForInStep.yield (succs.push e))) (es.flatMap edgeRecord) es.toArray := by
  have count : es.length.toUInt64.toNat = es.length := by
    rw [Nat.toUInt64_eq, UInt64.toNat_ofNat_of_lt' small]
  rw [count, Std.Legacy.Range.forIn_eq_forIn_range']
  have loop := CursorM.Reads.forIn_push es (fun e member => readEdge_reads (below e member)) 0 #[]
  simpa [Std.Legacy.Range.size] using loop

/-- Block records up to the end mark: each is read and handed to `stepBlock`. -/
theorem readBlockList_reads (last : UInt32) :
    ∀ (todo : List Block) (h : Cfg) (fuel : Nat), todo.length < fuel →
      (∀ b ∈ todo, b.index.toNat < last.toNat ∧ b.succs.length < 2 ^ 64 ∧
        ∀ e ∈ b.succs, e.dest.toNat < last.toNat) →
      CursorM.Reads (readBlockList last fuel h) (todo.flatMap blockRecord ++ endMark)
        (todo.foldl stepBlock h)
  | _, _, 0, long, _ => absurd long (Nat.not_lt_zero _)
  | [], h, fuel + 1, _, _ => by
    rw [List.flatMap_nil, List.nil_append, endMark, ← List.append_nil (Leb128.ofInt64 listEnd),
      readBlockList]
    refine (CursorM.Reads.sleb listEnd).bind ?_
    simpa using CursorM.Reads.pure h
  | b :: todo, h, fuel + 1, long, inside => by
    obtain ⟨index, small, dests⟩ := inside b List.mem_cons_self
    have rest := readBlockList_reads last todo (stepBlock h b) fuel
      (by simp only [List.length_cons] at long; omega)
      (fun b' member => inside b' (List.mem_cons_of_mem _ member))
    rw [List.flatMap_cons, blockRecord, List.append_assoc, List.append_assoc, List.append_assoc,
      readBlockList]
    refine (CursorM.Reads.sleb _).bind ?_
    simp only [toInt64_ne_listEnd, Bool.false_eq_true, if_false]
    refine (blockIndex_of_lt index).bind_nil ?_
    refine (CursorM.Reads.uleb _).bind ?_
    refine (readEdges_reads dests small).bind ?_
    simpa [stepBlock] using rest

/-- Chain entries up to the end mark, gathered in order. -/
theorem readOrder_reads (last : UInt32) :
    ∀ (order acc : List UInt32) (fuel : Nat), order.length < fuel → (∀ i ∈ order, i.toNat < last.toNat) →
      CursorM.Reads (readOrder last fuel acc) (order.flatMap chainEntry ++ endMark) (acc.reverse ++ order)
  | _, _, 0, long, _ => absurd long (Nat.not_lt_zero _)
  | [], acc, fuel + 1, _, _ => by
    rw [List.flatMap_nil, List.nil_append, endMark, ← List.append_nil (Leb128.ofInt64 listEnd),
      readOrder]
    refine (CursorM.Reads.sleb listEnd).bind ?_
    simpa using CursorM.Reads.pure acc.reverse
  | i :: order, acc, fuel + 1, long, inside => by
    have rest := readOrder_reads last order (i :: acc) fuel
      (by simp only [List.length_cons] at long; omega)
      (fun j member => inside j (List.mem_cons_of_mem _ member))
    rw [List.flatMap_cons, chainEntry, List.append_assoc, readOrder]
    refine (CursorM.Reads.sleb _).bind ?_
    simp only [toInt64_ne_listEnd, Bool.false_eq_true, if_false]
    refine (blockIndex_of_lt (inside i List.mem_cons_self)).bind_nil ?_
    simpa using rest

/-! ### The graph the reader fills -/

section Filling

variable {h : Cfg} {j : Nat}

/-- The block `ensureBlock` makes in an empty slot. -/
def fresh (i : Nat) : Block := { index := i.toUInt32 }

theorem ensureBlock_of_lt (inside : j < h.blocks.length) :
    h.ensureBlock j = { h with blocks := h.blocks.modify j fun o => some (o.getD (fresh j)) } := by
  simp only [ensureBlock, if_neg (Nat.not_le.2 inside)]
  congr 2
  funext o
  cases o <;> rfl

theorem block?_ensureBlock (inside : j < h.blocks.length) (i : Nat) :
    (h.ensureBlock j).block? i = if j = i then some ((h.block? j).getD (fresh j)) else h.block? i := by
  rw [ensureBlock_of_lt inside]
  simp only [block?, List.getElem?_modify]
  split_ifs with here
  · subst here
    rw [List.getElem?_eq_getElem inside]
    rfl
  · cases h.blocks[i]? <;> rfl

@[simp] theorem length_ensureBlock (inside : j < h.blocks.length) :
    (h.ensureBlock j).blocks.length = h.blocks.length := by
  simp [ensureBlock_of_lt inside]

@[simp] theorem profile_ensureBlock (i : Nat) : (h.ensureBlock i).profile = h.profile := rfl

@[simp] theorem order_ensureBlock (i : Nat) : (h.ensureBlock i).order = h.order := rfl

theorem block?_modifyBlock (f : Block → Block) (i : Nat) :
    (h.modifyBlock j f).block? i = if j = i then (h.block? i).map f else h.block? i := by
  simp only [block?, blocks_modifyBlock, List.getElem?_modify]
  split_ifs <;> cases h.blocks[i]? <;> simp

@[simp] theorem length_modifyBlock (f : Block → Block) :
    (h.modifyBlock j f).blocks.length = h.blocks.length := by
  simp

@[simp] theorem profile_modifyBlock (f : Block → Block) : (h.modifyBlock j f).profile = h.profile := rfl

/-- Making blocks at the destinations of some edges: a slot some edge lands on
holds its old block or a fresh one, and every other slot is as it was. -/
theorem foldl_ensureBlock (es : List Edge) :
    ∀ h : Cfg, (∀ e ∈ es, e.dest.toNat < h.blocks.length) →
      let h' := es.foldl (fun h e => h.ensureBlock e.dest.toNat) h
      h'.blocks.length = h.blocks.length ∧ h'.profile = h.profile ∧ h'.order = h.order ∧
        ∀ i, h'.block? i = if es.any (·.dest.toNat == i) then some ((h.block? i).getD (fresh i))
          else h.block? i := by
  induction es with
  | nil => intro h _; simp
  | cons e es ih =>
    intro h inside
    have first : e.dest.toNat < h.blocks.length := inside e List.mem_cons_self
    obtain ⟨length, profile, order, slots⟩ := ih (h.ensureBlock e.dest.toNat) (by
      intro e' member
      rw [length_ensureBlock first]
      exact inside e' (List.mem_cons_of_mem _ member))
    refine ⟨by simpa [length_ensureBlock first] using length, by simpa using profile,
      by simpa using order, fun i => ?_⟩
    simp only [List.foldl_cons, List.any_cons]
    rw [slots i, block?_ensureBlock first i]
    by_cases here : e.dest.toNat = i
    · subst here
      simp
    · have miss : (e.dest.toNat == i) = false := by simpa using here
      simp only [here, if_false, miss, Bool.false_or]

/-- One record read into a graph whose slots cover the record's block and its
destinations: the block gets its edges, on its old block or a fresh one, each
destination holds its old block or a fresh one, and the rest is as it was. -/
theorem block?_stepBlock {b : Block} (lands : ∀ e ∈ b.succs, e.dest.toNat < h.blocks.length)
    (inside : b.index.toNat < h.blocks.length) (i : Nat) :
    (stepBlock h b).block? i =
      if b.index.toNat = i then some { (h.block? i).getD (fresh i) with succs := b.succs }
      else if b.succs.any (·.dest.toNat == i) then some ((h.block? i).getD (fresh i))
      else h.block? i := by
  obtain ⟨length, -, -, slots⟩ := foldl_ensureBlock b.succs h lands
  have inside₁ := length ▸ inside
  simp only [stepBlock]
  rw [block?_modifyBlock, block?_ensureBlock inside₁, slots]
  by_cases here : b.index.toNat = i
  · subst here
    rw [slots]
    split_ifs <;> simp
  · simp only [here, if_false]
    exact slots i

theorem stepBlock_frame {b : Block} (lands : ∀ e ∈ b.succs, e.dest.toNat < h.blocks.length)
    (inside : b.index.toNat < h.blocks.length) :
    (stepBlock h b).blocks.length = h.blocks.length ∧ (stepBlock h b).profile = h.profile ∧
      (stepBlock h b).order = h.order := by
  obtain ⟨length, profile, order, -⟩ := foldl_ensureBlock b.succs h lands
  simp only [stepBlock, length_modifyBlock, profile_modifyBlock, order_modifyBlock,
    profile_ensureBlock, order_ensureBlock, length_ensureBlock (length ▸ inside), length, profile, order,
    and_self]

end Filling

/-! ### Slot by slot -/

section Staged

variable {g h : Cfg} {k : Nat}

/-- Slot `i` is the destination of an edge of a block in the first `k` slots. -/
def Hit (g : Cfg) (k i : Nat) : Prop :=
  ∃ j < k, ∃ b, g.block? j = some b ∧ ∃ e ∈ b.succs, e.dest.toNat = i

theorem hit_succ {i : Nat} :
    g.Hit (k + 1) i ↔ g.Hit k i ∨ ∃ b, g.block? k = some b ∧ ∃ e ∈ b.succs, e.dest.toNat = i := by
  constructor
  · rintro ⟨j, below, b, found, e, member, dest⟩
    rcases Nat.lt_succ_iff_lt_or_eq.1 below with below | rfl
    · exact .inl ⟨j, below, b, found, e, member, dest⟩
    · exact .inr ⟨b, found, e, member, dest⟩
  · rintro (⟨j, below, b, found, e, member, dest⟩ | ⟨b, found, e, member, dest⟩)
    · exact ⟨j, Nat.lt_succ_of_lt below, b, found, e, member, dest⟩
    · exact ⟨k, Nat.lt_succ_self k, b, found, e, member, dest⟩

/-- Every edge of the graph lands on a present block. -/
def Closed (g : Cfg) : Prop := ∀ j b, g.block? j = some b → ∀ e ∈ b.succs, (g.block? e.dest.toNat).isSome

/-- Every present block carries its slot number and its edges, and nothing else:
its counters, flags, statements and phis are the defaults. -/
def Numbered (g : Cfg) : Prop := ∀ i b, g.block? i = some b → b = { index := i.toUInt32, succs := b.succs }

theorem lt_lastBlock {i : Nat} {b : Block} (found : g.block? i = some b) : i < g.lastBlock :=
  (List.getElem?_eq_some_iff.1 (block?_eq_some_iff.1 found)).1

/-- A property of every present block is one of the blocks in the first
`lastBlock` slots. -/
theorem forall_block?_iff {P : Nat → Block → Prop} :
    (∀ i < g.lastBlock, ∀ b ∈ g.block? i, P i b) ↔ ∀ i b, g.block? i = some b → P i b :=
  ⟨fun slots i b found => slots i (lt_lastBlock found) b found, fun each i _ b found => each i b found⟩

instance : Decidable g.Closed := decidable_of_iff _ forall_block?_iff

instance : Decidable g.Numbered := decidable_of_iff _ forall_block?_iff

theorem present_of_hit (closed : g.Closed) {i : Nat} (hit : g.Hit k i) : (g.block? i).isSome := by
  obtain ⟨j, -, b, found, e, member, rfl⟩ := hit
  exact closed j b found e member

/-- The reader's graph after the records of the first `k` slots of `g`: those
slots as `g` has them, and above them a fresh block exactly where an edge read
so far lands. -/
structure Staged (g : Cfg) (k : Nat) (h : Cfg) : Prop where
  profile : h.profile = g.profile
  order : h.order = []
  length : h.blocks.length = g.blocks.length
  below : ∀ i < k, h.block? i = g.block? i
  hit : ∀ i, k ≤ i → g.Hit k i → h.block? i = some (fresh i)
  missed : ∀ i, k ≤ i → ¬ g.Hit k i → h.block? i = none

/-- The graph of holes the reader starts from. -/
def holes (g : Cfg) : Cfg := { profile := g.profile, blocks := List.replicate g.lastBlock none }

theorem staged_holes : g.Staged 0 g.holes where
  profile := rfl
  order := rfl
  length := by simp [holes, lastBlock]
  below i below := absurd below (Nat.not_lt_zero i)
  hit i _ hit := by
    obtain ⟨j, below, -⟩ := hit
    exact absurd below (Nat.not_lt_zero j)
  missed i _ _ := by
    simp only [holes, block?, List.getElem?_replicate]
    split_ifs <;> rfl

/-- A hole read past: nothing lands on it, so it stays a hole. -/
theorem Staged.hole (staged : g.Staged k h) (closed : g.Closed) (hole : g.block? k = none) :
    g.Staged (k + 1) h where
  profile := staged.profile
  order := staged.order
  length := staged.length
  below i below := by
    rcases Nat.lt_succ_iff_lt_or_eq.1 below with below | rfl
    · exact staged.below i below
    · rw [hole]
      refine staged.missed i le_rfl fun hit => ?_
      have present := present_of_hit closed hit
      rw [hole] at present
      exact Bool.false_ne_true present
  hit i above hit := by
    rcases hit_succ.1 hit with hit | ⟨b, found, -⟩
    · exact staged.hit i (by omega) hit
    · rw [hole] at found
      cases found
  missed i above miss := staged.missed i (by omega) fun hit => miss (hit_succ.2 (.inl hit))

/-- A block record read: its slot now holds the written block, and its
destinations above hold fresh blocks. -/
theorem Staged.block (staged : g.Staged k h) {b : Block} (found : g.block? k = some b)
    (numbered : b = { index := k.toUInt32, succs := b.succs }) (small : k < UInt32.size)
    (closed : g.Closed) : g.Staged (k + 1) (stepBlock h b) := by
  have index : b.index.toNat = k := by
    rw [numbered, Nat.toUInt32_eq]
    exact UInt32.toNat_ofNat_of_lt' small
  have inside : k < h.blocks.length :=
    staged.length ▸ (List.getElem?_eq_some_iff.1 (block?_eq_some_iff.1 found)).1
  have lands : ∀ e ∈ b.succs, e.dest.toNat < h.blocks.length := by
    intro e member
    obtain ⟨d, landed⟩ := Option.isSome_iff_exists.1 (closed k b found e member)
    exact staged.length ▸ (List.getElem?_eq_some_iff.1 (block?_eq_some_iff.1 landed)).1
  obtain ⟨length, profile, order⟩ := stepBlock_frame lands (index ▸ inside)
  have slot := block?_stepBlock lands (index ▸ inside)
  -- above the slots read, a slot holds a fresh block or nothing, so `getD` gives a fresh one
  have freshAbove : ∀ i, k ≤ i → (h.block? i).getD (fresh i) = fresh i := by
    intro i above
    by_cases hit : g.Hit k i
    · rw [staged.hit i above hit]
      rfl
    · rw [staged.missed i above hit]
      rfl
  have landsOn : ∀ i, b.succs.any (·.dest.toNat == i) = true ↔ ∃ e ∈ b.succs, e.dest.toNat = i := by
    intro i
    simp
  refine ⟨profile.trans staged.profile, order.trans staged.order, length.trans staged.length, ?_, ?_, ?_⟩
  · intro i below
    rw [slot, index]
    rcases Nat.lt_succ_iff_lt_or_eq.1 below with below | rfl
    · rw [if_neg (by omega), staged.below i below]
      split_ifs with landed
      · -- an earlier slot an edge lands on is present
        obtain ⟨e, member, dest⟩ := (landsOn i).1 landed
        obtain ⟨c, present⟩ := Option.isSome_iff_exists.1 (dest ▸ closed k b found e member)
        simp [present]
      · rfl
    · rw [if_pos rfl, freshAbove i le_rfl, found, numbered]
      rfl
  · intro i above hit
    rw [slot, index, if_neg (by omega)]
    split_ifs with landed
    · rw [freshAbove i (by omega)]
    · rcases hit_succ.1 hit with hit | ⟨b', found', e, member, dest⟩
      · exact staged.hit i (by omega) hit
      · rw [found] at found'
        cases found'
        exact absurd ((landsOn i).2 ⟨e, member, dest⟩) landed
  · intro i above miss
    rw [slot, index, if_neg (by omega)]
    have landed : b.succs.any (·.dest.toNat == i) = false := by
      rw [← Bool.not_eq_true, landsOn]
      exact fun ⟨e, member, dest⟩ => miss (hit_succ.2 (.inr ⟨b, found, e, member, dest⟩))
    rw [landed, if_neg Bool.false_ne_true]
    exact staged.missed i (by omega) fun hit => miss (hit_succ.2 (.inl hit))

/-- All slots read: the graph is the written one without its chain. -/
theorem Staged.eq (staged : g.Staged g.lastBlock h) : h = { g with order := [] } := by
  have blocks : h.blocks = g.blocks := by
    apply List.ext_getElem staged.length
    intro i below below'
    have same := staged.below i below'
    simp only [block?, List.getElem?_eq_getElem below, List.getElem?_eq_getElem below',
      Option.join_some] at same
    exact same
  have profile := staged.profile
  have order := staged.order
  cases h
  cases g
  simp only at profile order blocks
  subst profile order blocks
  rfl

end Staged

/-- The records of a graph's present blocks, read in slot order into its
holes, give back the graph without its chain. -/
theorem foldl_stepBlock_present {g : Cfg} (numbered : g.Numbered) (closed : g.Closed) (fits : g.lastBlock < UInt32.size) :
    g.present.foldl stepBlock g.holes = { g with order := [] } := by
  -- induction on the slots read: the blocks of the first `k` slots are the
  -- records of the first `k` slots
  have staged : ∀ k ≤ g.lastBlock,
      g.Staged k (((g.blocks.take k).filterMap id).foldl stepBlock g.holes) := by
    intro k
    induction k with
    | zero => intro _; simpa using staged_holes
    | succ k ih =>
      intro within
      have before := ih (by omega)
      have inside : k < g.blocks.length := within
      rw [List.take_add_one, List.filterMap_append, List.foldl_append,
        List.getElem?_eq_getElem inside]
      cases slot : g.blocks[k] with
      | none =>
        have hole : g.block? k = none := by simp [block?, List.getElem?_eq_getElem inside, slot]
        simpa using before.hole closed hole
      | some b =>
        have found : g.block? k = some b := by simp [block?, List.getElem?_eq_getElem inside, slot]
        simpa using before.block found (numbered k b found) (by omega) closed
  have all := staged g.lastBlock le_rfl
  have whole : g.blocks.take g.lastBlock = g.blocks := List.take_of_length_le le_rfl
  rw [whole] at all
  exact all.eq

/-! ### The whole stream -/

theorem signed_ne_nil (v : Int) : Leb128.signed v ≠ [] := by
  rw [Leb128.signed]
  split <;> simp

/-- Records of at least a byte each are at least as many bytes as records. -/
theorem length_le_flatMap {α : Type} (xs : List α) {f : α → List UInt8} (nonempty : ∀ x, f x ≠ []) :
    xs.length ≤ (xs.flatMap f).length := by
  induction xs with
  | nil => simp
  | cons x xs ih =>
    have := List.length_pos_of_ne_nil (nonempty x)
    simp only [List.flatMap_cons, List.length_append, List.length_cons]
    omega

theorem blockRecord_ne_nil (b : Block) : blockRecord b ≠ [] := by
  simp [blockRecord, Leb128.ofInt64, signed_ne_nil]

theorem chainEntry_ne_nil (i : UInt32) : chainEntry i ≠ [] := by
  simp [chainEntry, Leb128.ofInt64, signed_ne_nil]

theorem mem_present {g : Cfg} {b : Block} (member : b ∈ g.present) : ∃ i, g.block? i = some b := by
  obtain ⟨o, slot, found⟩ := List.mem_filterMap.1 member
  obtain ⟨i, at_i⟩ := List.mem_iff_getElem?.1 slot
  rw [show o = some b from found] at at_i
  exact ⟨i, block?_eq_some_iff.2 at_i⟩

/-- On a graph whose blocks carry only their number and edges, whose edges land
on present blocks, whose chain names slots and whose slot count fits in 32
bits, the reader reads the writer's bytes after the output it was given,
provided the slot count is within the allowance or the bytes after it. -/
theorem read_reads {g : Cfg} (numbered : g.Numbered) (closed : g.Closed) (chain : ∀ i ∈ g.order, i.toNat < g.lastBlock)
    (fits : g.lastBlock < UInt32.size) (counts : ∀ b ∈ g.present, b.succs.length < 2 ^ 64)
    (room : g.lastBlock ≤ max g.records.length maxUnwrittenBlocks) :
    CursorM.Reads read
      (Leb128.ofUInt64 g.profile.code.toUInt64 ++ Leb128.ofUInt64 g.lastBlock.toUInt64 ++ g.records) g := by
  have last : g.lastBlock.toUInt32.toNat = g.lastBlock := Leb128.toNat_toUInt32 fits
  have widened : g.lastBlock.toUInt32.toUInt64 = g.lastBlock.toUInt64 := Leb128.toUInt64_toUInt32 fits
  have inside : ∀ b ∈ g.present, b.index.toNat < g.lastBlock.toUInt32.toNat ∧ b.succs.length < 2 ^ 64 ∧
      ∀ e ∈ b.succs, e.dest.toNat < g.lastBlock.toUInt32.toNat := by
    intro b member
    obtain ⟨i, found⟩ := mem_present member
    have index : b.index.toNat = i := by
      rw [numbered i b found, Nat.toUInt32_eq]
      exact UInt32.toNat_ofNat_of_lt' (by have := lt_lastBlock found; omega)
    refine ⟨by rw [index, last]; exact lt_lastBlock found, counts b member, fun e edge => ?_⟩
    obtain ⟨d, landed⟩ := Option.isSome_iff_exists.1 (closed i b found e edge)
    rw [last]
    exact lt_lastBlock landed
  rw [List.append_assoc]
  unfold read
  refine (CursorM.Reads.uleb _).bind ?_
  simp only [ProfileStatus.code_toUInt64_toNat, ProfileStatus.ofCode?_code]
  rw [← widened]
  refine (CursorM.Reads.u32 _).bind ?_
  refine CursorM.Reads.checkCount_bind (by rw [UInt32.toNat_toUInt64, last]; exact room) ?_
  rw [UInt32.toNat_toUInt64, last, records, List.append_assoc]
  refine CursorM.Reads.fuelled (l := fun fuel => readBlockList _ fuel g.holes) g.present.length
    (fun fuel long => readBlockList_reads _ g.present g.holes fuel long inside)
    (length_le_flatMap _ blockRecord_ne_nil |>.trans (by simp)) ?_
  rw [foldl_stepBlock_present numbered closed fits, ← List.append_nil (g.order.flatMap chainEntry ++ endMark)]
  refine CursorM.Reads.fuelled (l := fun fuel => readOrder _ fuel []) g.order.length
    (fun fuel long => readOrder_reads _ g.order [] fuel long fun i member => by rw [last]; exact chain i member)
    (length_le_flatMap _ chainEntry_ne_nil |>.trans (by simp)) ?_
  exact CursorM.Reads.pure g

/-- A graph whose present blocks carry only their number and their edges, whose
edges land on present blocks, whose chain names slots below the slot count and
whose slot count, a 32-bit field, is at most the allowance for unwritten blocks
or at most the bytes written after it, reads back from its stream as written:
profile status, holes, every edge field and the chain. The read ends at the end
of the stream. -/
theorem read_write_cfg (g : Cfg) (numbered : g.Numbered) (closed : g.Closed) (chain : ∀ i ∈ g.order, i.toNat < g.lastBlock)
    (fits : g.lastBlock < UInt32.size) (counts : ∀ b ∈ g.present, b.succs.length < 2 ^ 64)
    (room : g.lastBlock ≤ maxUnwrittenBlocks ∨ g.lastBlock ≤ g.records.length) :
    Cursor.run "cfg" (write .empty g) read =
      .ok g { name := "cfg", data := write .empty g, pos := (write .empty g).size } := by
  have bytes := write_data .empty g
  have ahead : ({ name := "cfg", data := write .empty g } : Cursor).ahead =
      Leb128.ofUInt64 g.profile.code.toUInt64 ++ Leb128.ofUInt64 g.lastBlock.toUInt64 ++ g.records ++ [] := by
    simpa [Cursor.ahead] using bytes
  have reads := read_reads numbered closed chain fits counts
    (le_max_iff.2 room.symm) _ [] ahead
  have size : (write .empty g).size = (Leb128.ofUInt64 g.profile.code.toUInt64 ++
      Leb128.ofUInt64 g.lastBlock.toUInt64 ++ g.records).length := by
    have length := congrArg List.length bytes
    have empty : ByteArray.empty.data.toList = [] := rfl
    rw [Array.length_toList, empty, List.nil_append] at length
    exact length
  rw [Cursor.run, EStateM.run, reads, size]
  simp [Cursor.advance]

/-- Four slots with a hole at 2: the entry falls through to block 3, and the
chain skips the hole. -/
def holey : Cfg where
  profile := .guessed
  blocks := [some { index := 0, succs := [{ dest := 3, probability := 10000, flags := 1 }] },
    some { index := 1 }, none, some { index := 3 }]
  order := [0, 3, 1]

theorem holey_read_write :
    holey.Numbered ∧ holey.Closed ∧ (∀ i ∈ holey.order, i.toNat < holey.lastBlock) ∧
      holey.lastBlock < UInt32.size ∧ (∀ b ∈ holey.present, b.succs.length < 2 ^ 64) ∧
      (holey.lastBlock ≤ maxUnwrittenBlocks ∨ holey.lastBlock ≤ holey.records.length) ∧
      Cursor.run "cfg" (write .empty holey) read =
        .ok holey { name := "cfg", data := write .empty holey, pos := (write .empty holey).size } := by
  have numbered : holey.Numbered := by decide +kernel
  have closed : holey.Closed := by decide +kernel
  have chain : ∀ i ∈ holey.order, i.toNat < holey.lastBlock := by simp [holey, lastBlock]
  have fits : holey.lastBlock < UInt32.size := by decide
  have counts : ∀ b ∈ holey.present, b.succs.length < 2 ^ 64 := by decide
  have room : holey.lastBlock ≤ maxUnwrittenBlocks ∨ holey.lastBlock ≤ holey.records.length :=
    .inl (by decide)
  exact ⟨numbered, closed, chain, fits, counts, room,
    read_write_cfg holey numbered closed chain fits counts room⟩

end Cfg

end IrStream
