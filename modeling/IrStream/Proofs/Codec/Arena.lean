import Mathlib
import IrStream.Proofs.Codec.Lockstep

/-!
The reader's arena and back-reference table kept in step with the writer's
back-reference table. Reading a node changes the reader's graph in one of
four ways, and each keeps `TreeCodec.Inv`:

* a type, declaration or binfo gets a placeholder, numbered for
  back-references before its fields are read, exactly as the writer numbers
  the node before writing its fields (`Inv.openPlaceholder`); the finished
  node then replaces the placeholder (`Inv.closePlaceholder`);
* any other node is allocated once its fields are read (`Inv.allocNode`);
* an identifier is looked up by spelling (`Inv.identifierHit`) and allocated
  only when its spelling is new (`Inv.identifierNew`).

The lemmas before them describe the operations themselves: registering a
node in a `PickleTable`, and allocating, replacing and hash-consing nodes of
a `Program`.
-/

namespace IrStream

namespace PickleTable

theorem lookup_register_of_fresh {t : PickleTable} {node : NodeId} (fresh : t.lookup node = none)
    (n : NodeId) : (t.register node).lookup n = if node = n then some t.size else t.lookup n := by
  have absent : t.index.contains node = false := by
    rw [Std.HashMap.contains_eq_isSome_getElem?]
    simpa [lookup] using fresh
  simp [register, absent, lookup, size, Std.HashMap.getElem?_insert]

theorem size_register_of_fresh {t : PickleTable} {node : NodeId} (fresh : t.lookup node = none) :
    (t.register node).size = t.size + 1 := by
  have absent : ¬ node ∈ t.index := by
    rw [Std.HashMap.mem_iff_isSome_getElem?]
    simpa [lookup] using fresh
  simp [register, size, Std.HashMap.contains_iff_mem, absent, Std.HashMap.size_insert]

/-- Registering keeps every back-reference already given. -/
theorem lookup_register_of_found {t : PickleTable} {n : NodeId} {i : Nat}
    (found : t.lookup n = some i) (node : NodeId) : (t.register node).lookup n = some i := by
  unfold register
  split
  · exact found
  · next absent =>
    have present : t.index.contains n = true := by
      rw [Std.HashMap.contains_eq_isSome_getElem?]
      simp [lookup] at found
      simp [found]
    have differ : node ≠ n := by
      rintro rfl
      exact absent present
    simpa [lookup, Std.HashMap.getElem?_insert, differ] using found

/-- Inserting `(⟨i⟩, i)` for every `i < k`: each of those ids, and no other,
gets its own number. -/
theorem foldl_insert_range (k : Nat) :
    (∀ n : NodeId, (((List.range k).map fun i => ((⟨i⟩ : NodeId), i)).foldl
        (fun (m : Std.HashMap NodeId Nat) (p : NodeId × Nat) => m.insert p.1 p.2) {})[n]? =
      if n.val < k then some n.val else none) ∧
    (((List.range k).map fun i => ((⟨i⟩ : NodeId), i)).foldl
        (fun (m : Std.HashMap NodeId Nat) (p : NodeId × Nat) => m.insert p.1 p.2) {}).size = k := by
  induction k with
  | zero => simp
  | succ k ih =>
    obtain ⟨entries, size⟩ := ih
    have absent : ¬ (⟨k⟩ : NodeId) ∈ ((List.range k).map fun i => ((⟨i⟩ : NodeId), i)).foldl
        (fun (m : Std.HashMap NodeId Nat) (p : NodeId × Nat) => m.insert p.1 p.2) {} := by
      rw [Std.HashMap.mem_iff_isSome_getElem?, entries]
      simp
    refine ⟨fun n => ?_, ?_⟩
    · simp only [List.range_succ, List.map_append, List.foldl_append, List.map_cons, List.map_nil,
        List.foldl_cons, List.foldl_nil, Std.HashMap.getElem?_insert, entries]
      by_cases same : (⟨k⟩ : NodeId) = n
      · subst same
        simp
      · have differ : n.val ≠ k := fun eq => same (by cases n; simp_all)
        have below : n.val < k + 1 ↔ n.val < k := by omega
        simp only [beq_iff_eq, same, if_false, below]
    · simp only [List.range_succ, List.map_append, List.foldl_append, List.map_cons, List.map_nil,
        List.foldl_cons, List.foldl_nil, Std.HashMap.size_insert, absent, if_false, size]

/-- The preloaded table numbers the common nodes by their ids, and nothing else. -/
theorem lookup_preloaded (n : NodeId) :
    preloaded.lookup n = if n.val < CommonNode.count then some n.val else none := by
  have pairs : CommonNode.ids.zip (List.range CommonNode.count) =
      (List.range CommonNode.count).map fun i => ((⟨i⟩ : NodeId), i) := rfl
  simp only [lookup, preloaded, pairs, Std.HashMap.get?_eq_getElem?]
  exact (foldl_insert_range CommonNode.count).1 n

theorem size_preloaded : preloaded.size = CommonNode.count := by
  have pairs : CommonNode.ids.zip (List.range CommonNode.count) =
      (List.range CommonNode.count).map fun i => ((⟨i⟩ : NodeId), i) := rfl
  simp only [size, preloaded, pairs]
  exact (foldl_insert_range CommonNode.count).2

end PickleTable

namespace Program

@[simp] theorem alloc_id (p : Program) (m : Node) : (p.alloc m).1 = ⟨p.arena.size⟩ := rfl

@[simp] theorem size_alloc (p : Program) (m : Node) :
    (p.alloc m).2.arena.size = p.arena.size + 1 := by
  simp [alloc, Arena.alloc, Arena.size]

@[simp] theorem identifiers_alloc (p : Program) (m : Node) :
    (p.alloc m).2.arena.identifiers = p.arena.identifiers := rfl

theorem node_alloc (p : Program) (m : Node) (r : NodeId) :
    (p.alloc m).2.node r = if r.val = p.arena.size then m else p.node r := by
  by_cases same : r.val = p.arena.size <;> simp only [Arena.size] at same <;>
    simp [same, alloc, Arena.alloc, node, Arena.node, Arena.get?, Arena.size, Array.getElem?_push]

/-- The program with node `id` overwritten by `m`. -/
def replace (p : Program) (id : NodeId) (m : Node) : Program :=
  { p with arena := p.arena.replace id m }

@[simp] theorem size_replace (p : Program) (id : NodeId) (m : Node) :
    (p.replace id m).arena.size = p.arena.size := by
  simp [replace, Arena.replace, Arena.size]

@[simp] theorem identifiers_replace (p : Program) (id : NodeId) (m : Node) :
    (p.replace id m).arena.identifiers = p.arena.identifiers := rfl

theorem node_replace {p : Program} {id : NodeId} (inside : id.val < p.arena.size) (m : Node)
    (r : NodeId) : (p.replace id m).node r = if r = id then m else p.node r := by
  simp only [replace, node, Arena.node, Arena.replace, Arena.get?, Array.set!,
    Array.getElem?_setIfInBounds]
  by_cases same : r = id
  · subst same
    simp only [Arena.size] at inside
    simp [inside]
  · have differ : id.val ≠ r.val := fun equal => same (by cases r; cases id; simp_all)
    simp [same, differ]

/-- The identifier node of a spelling. -/
def identifierNode (s : String) : Node := { Node.fresh .identifierNode with data := .identifier s }

/-- A new spelling gets a new identifier node, indexed by its spelling. -/
theorem identifier_of_absent {p : Program} {s : String} (absent : p.arena.identifiers.get? s = none) :
    p.identifier s = (⟨p.arena.size⟩, { (p.alloc (identifierNode s)).2 with
      arena := { (p.alloc (identifierNode s)).2.arena with
        identifiers := p.arena.identifiers.insert s ⟨p.arena.size⟩ } }) := by
  simp only [Std.HashMap.get?_eq_getElem?] at absent
  simp [identifier, Arena.identifier, absent, alloc, Arena.alloc, Arena.size, identifierNode]

theorem identifier_of_found {p : Program} {s : String} {r : NodeId}
    (found : p.arena.identifiers.get? s = some r) : p.identifier s = (r, p) := by
  simp only [Std.HashMap.get?_eq_getElem?] at found
  simp [identifier, Arena.identifier, found]

end Program

namespace TreeCodec

theorem getElem?_concat {τ : List NodeId} {x n : NodeId} {i : Nat}
    (entry : (τ ++ [x])[i]? = some n) : τ[i]? = some n ∨ (i = τ.length ∧ n = x) := by
  rw [List.getElem?_append] at entry
  split at entry
  · exact .inl entry
  · next outside =>
    right
    rw [List.getElem?_singleton] at entry
    split at entry
    · exact ⟨by omega, (Option.some.inj entry).symm⟩
    · cases entry

namespace Inv

variable {P : Program} {roots : List NodeId} {S : ByteArray} {W : TreeWriter} {R : TreeReader}
  {τ opens : List NodeId}

theorem count_le_length (inv : Inv P roots S W R τ opens) : CommonNode.count ≤ τ.length := by
  have last := (List.getElem?_eq_some_iff.1 (inv.commons .integerOne)).1
  simp only [CommonNode.index] at last
  simp only [CommonNode.count]
  omega

/-- A finished node allocated after the nodes read so far, with `ids` the
reader's identifier index after it: the old index with, at most, the new
node's own spelling added. -/
theorem allocWith (inv : Inv P roots S W R τ opens) {m : Node} {n : NodeId}
    (agrees : NodeAgrees (τ ++ [n]) m (P.node n)) (uncommon : CommonNode.count ≤ n.val)
    (unindexed : (P.node n).code.isGlobalIndexable = false) (reached : P.Reaches roots n)
    (ids : Std.HashMap String NodeId)
    (indexedNew : ∀ s r, ids.get? s = some r →
      R.program.arena.identifiers.get? s = some r ∨ (r.val = τ.length ∧ m.identifier? = some s))
    (spelledNew : ∀ s, m.identifier? = some s → ids.get? s = some ⟨τ.length⟩)
    (keeps : ∀ s r, r.val < τ.length → R.program.arena.identifiers.get? s = some r →
      ids.get? s = some r) :
    Inv P roots S W { R with program := { (R.program.alloc m).2 with
      arena := { (R.program.alloc m).2.arena with identifiers := ids } } } (τ ++ [n]) opens := by
  have grown : τ <+: τ ++ [n] := List.prefix_append _ _
  have size := inv.mapSize
  have old : ∀ r : NodeId, r.val < τ.length → (R.program.alloc m).2.node r = R.program.node r :=
    fun r known => by rw [Program.node_alloc, if_neg (by omega)]
  refine { inv with
    mapSize := by
      change (τ ++ [n]).length = (R.program.alloc m).2.arena.size
      simp [size]
    commons := fun c => getElem?_of_isPrefix grown (inv.commons c)
    picklesKnown := fun r member => lt_of_lt_of_le (inv.picklesKnown r member) grown.length_le
    opensKnown := fun r member => lt_of_lt_of_le (inv.opensKnown r member) grown.length_le
    uncommon := ?_, pickles := ?_, indexed := ?_, reached := ?_, nodes := ?_, spelled := ?_,
    identified := ?_ }
  · intro i n' common entry
    rcases getElem?_concat entry with before | ⟨-, rfl⟩
    · exact inv.uncommon i n' common before
    · exact uncommon
  · intro n' i
    rw [inv.pickles]
    refine exists_congr fun r => and_congr_right fun slot => ?_
    have known := inv.picklesKnown r (Array.mem_of_getElem? slot)
    constructor
    · exact getElem?_of_isPrefix grown
    · intro entry
      rcases getElem?_concat entry with before | ⟨new, -⟩
      · exact before
      · omega
  · intro i n' common entry indexable
    rcases getElem?_concat entry with before | ⟨-, rfl⟩
    · exact inv.indexed i n' common before indexable
    · simp [unindexed] at indexable
  · intro i n' common entry
    rcases getElem?_concat entry with before | ⟨-, rfl⟩
    · exact inv.reached i n' common before
    · exact reached
  · intro r n' entry closed
    change NodeAgrees _ ((R.program.alloc m).2.node r) _
    rcases getElem?_concat entry with before | ⟨new, rfl⟩
    · rw [old r (List.getElem?_eq_some_iff.1 before).1]
      exact (inv.nodes r n' before closed).mono grown
    · rw [Program.node_alloc, if_pos (by omega)]
      exact agrees
  · intro s r found
    rcases indexedNew s r found with before | ⟨new, spelling⟩
    · obtain ⟨common, known, closed, spelling⟩ := inv.spelled s r before
      refine ⟨common, by simp; omega, closed, ?_⟩
      change ((R.program.alloc m).2.node r).identifier? = some s
      rw [old r known]
      exact spelling
    · refine ⟨by have := inv.count_le_length; omega, by simp; omega, fun member => ?_, ?_⟩
      · have := inv.opensKnown r member
        omega
      · change ((R.program.alloc m).2.node r).identifier? = some s
        rw [Program.node_alloc, if_pos (by omega)]
        exact spelling
  · intro r s known closed spelling
    change ((R.program.alloc m).2.node r).identifier? = some s at spelling
    by_cases new : r.val = τ.length
    · rw [Program.node_alloc, if_pos (by omega)] at spelling
      have same : r = ⟨τ.length⟩ := by cases r; simp_all
      rw [same]
      exact spelledNew s spelling
    · rw [old r (by simp at known; omega)] at spelling
      exact keeps s r (by simp at known; omega)
        (inv.identified r s (by simp at known; omega) closed spelling)

/-- A node that is neither shared nor an identifier is allocated once its
fields are read. -/
theorem allocNode (inv : Inv P roots S W R τ opens) {m : Node} {n : NodeId}
    (agrees : NodeAgrees (τ ++ [n]) m (P.node n)) (plain : m.identifier? = none)
    (uncommon : CommonNode.count ≤ n.val) (unindexed : (P.node n).code.isGlobalIndexable = false)
    (reached : P.Reaches roots n) :
    Inv P roots S W { R with program := (R.program.alloc m).2 } (τ ++ [n]) opens :=
  inv.allocWith agrees uncommon unindexed reached R.program.arena.identifiers
    (fun _ _ found => .inl found) (fun s spelling => by simp [plain] at spelling)
    (fun _ _ _ found => found)

/-- A type, declaration or binfo gets a placeholder, numbered for
back-references exactly as the writer numbers the node. -/
theorem openPlaceholder (inv : Inv P roots S W R τ opens) {n : NodeId}
    (fresh : W.pickles.lookup n = none) (uncommon : CommonNode.count ≤ n.val)
    (reached : P.Reaches roots n) (code : TreeCode)
    (room : W.pickles.size < CommonNode.count + R.cursor.pos) :
    Inv P roots S { W with pickles := W.pickles.register n }
      { R with program := (R.program.alloc (Node.fresh code)).2,
               pickles := R.pickles.register ⟨R.program.arena.size⟩ }
      (τ ++ [n]) (⟨R.program.arena.size⟩ :: opens) := by
  have grown : τ <+: τ ++ [n] := List.prefix_append _ _
  have size := inv.mapSize
  have old : ∀ r : NodeId, r.val < τ.length →
      (R.program.alloc (Node.fresh code)).2.node r = R.program.node r :=
    fun r known => by rw [Program.node_alloc, if_neg (by omega)]
  have placeholder : (R.program.alloc (Node.fresh code)).2.arena.size = τ.length + 1 := by
    simp [size]
  refine { inv with
    mapSize := placeholder.symm ▸ by simp
    commons := fun c => getElem?_of_isPrefix grown (inv.commons c)
    pickleCount := by
      simp [PickleTable.size_register_of_fresh fresh, ReadTable.register, inv.pickleCount]
    numbered := by
      simp only [PickleTable.size_register_of_fresh fresh]
      omega
    uncommon := ?_, pickles := ?_, picklesKnown := ?_, indexed := ?_, reached := ?_,
    nodes := ?_, spelled := ?_, identified := ?_, opensKnown := ?_ }
  · intro i n' common entry
    rcases getElem?_concat entry with before | ⟨-, rfl⟩
    · exact inv.uncommon i n' common before
    · exact uncommon
  · intro n' i
    simp only [PickleTable.lookup_register_of_fresh fresh, ReadTable.register, Array.getElem?_push]
    by_cases last : i = R.pickles.nodes.size
    · -- the new back-reference is the placeholder's
      subst last
      have none : W.pickles.lookup n' ≠ some R.pickles.nodes.size := by
        rw [ne_eq, inv.pickles]
        rintro ⟨r, slot, -⟩
        simp at slot
      by_cases same : n = n'
      · subst same
        simp [inv.pickleCount.symm, size]
      · simp [same, none, size]
    · -- every older back-reference is read from the old table
      simp only [last, if_false]
      have older : ∀ r, R.pickles.nodes[i]? = some r → ((τ ++ [n])[r.val]? = some n' ↔
          τ[r.val]? = some n') := fun r slot => by
        have known := inv.picklesKnown r (Array.mem_of_getElem? slot)
        constructor
        · intro entry
          rcases getElem?_concat entry with before | ⟨new, -⟩
          · exact before
          · omega
        · exact getElem?_of_isPrefix grown
      rw [show (∃ r, R.pickles.nodes[i]? = some r ∧ (τ ++ [n])[r.val]? = some n') ↔
          ∃ r, R.pickles.nodes[i]? = some r ∧ τ[r.val]? = some n' from
        exists_congr fun r => ⟨fun ⟨slot, entry⟩ => ⟨slot, (older r slot).1 entry⟩,
          fun ⟨slot, entry⟩ => ⟨slot, (older r slot).2 entry⟩⟩, ← inv.pickles]
      by_cases same : n = n'
      · subst same
        simp only [if_true, fresh]
        constructor
        · intro equal
          simp only [Option.some.injEq] at equal
          exact (last (equal.symm.trans inv.pickleCount)).elim
        · intro found
          cases found
      · simp [same]
  · intro r member
    rcases Array.mem_push.1 member with before | rfl
    · exact lt_of_lt_of_le (inv.picklesKnown r before) grown.length_le
    · simp [size]
  · intro i n' common entry indexable
    rcases getElem?_concat entry with before | ⟨new, rfl⟩
    · exact Array.mem_push_of_mem _ (inv.indexed i n' common before indexable)
    · simp [ReadTable.register, new, size]
  · intro i n' common entry
    rcases getElem?_concat entry with before | ⟨-, rfl⟩
    · exact inv.reached i n' common before
    · exact reached
  · intro r n' entry closed
    rcases getElem?_concat entry with before | ⟨new, rfl⟩
    · rw [old r (List.getElem?_eq_some_iff.1 before).1]
      exact (inv.nodes r n' before (fun member => closed (List.mem_cons_of_mem _ member))).mono
        grown
    · exact absurd (List.mem_cons.2 (.inl (by cases r; simp_all))) closed
  · intro s r found
    obtain ⟨common, known, closed, spelling⟩ := inv.spelled s r found
    refine ⟨common, by simp; omega, fun member => ?_, by rw [old r known]; exact spelling⟩
    rcases List.mem_cons.1 member with equal | member
    · have : r.val = R.program.arena.size := by rw [equal]
      omega
    · exact closed member
  · intro r s known closed spelling
    have new : r.val ≠ τ.length := fun equal =>
      closed (List.mem_cons.2 (.inl (by cases r; simp_all)))
    rw [old r (by simp at known; omega)] at spelling
    exact inv.identified r s (by simp at known; omega)
      (fun member => closed (List.mem_cons_of_mem _ member)) spelling
  · intro r member
    rcases List.mem_cons.1 member with equal | member
    · simp [equal, size]
    · exact lt_of_lt_of_le (inv.opensKnown r member) grown.length_le

/-- The finished node replaces its placeholder. -/
theorem closePlaceholder {r : NodeId} (inv : Inv P roots S W R τ (r :: opens)) {n : NodeId}
    (entry : τ[r.val]? = some n) {m : Node} (agrees : NodeAgrees τ m (P.node n))
    (plain : m.identifier? = none) :
    Inv P roots S W { R with program := R.program.replace r m } τ opens := by
  have inside : r.val < R.program.arena.size := by
    rw [← inv.mapSize]
    exact (List.getElem?_eq_some_iff.1 entry).1
  refine { inv with
    mapSize := by simp [inv.mapSize]
    opensKnown := fun r' member => inv.opensKnown r' (List.mem_cons_of_mem _ member)
    nodes := ?_, spelled := ?_, identified := ?_ }
  · intro r' n' entry' closed
    rw [Program.node_replace inside]
    by_cases same : r' = r
    · subst same
      rw [if_pos rfl, ← Option.some.inj (entry.symm.trans entry')]
      exact agrees
    · rw [if_neg same]
      exact inv.nodes r' n' entry' (by simp [same, closed])
  · intro s r' found
    obtain ⟨common, known, closed, spelling⟩ := inv.spelled s r' found
    have differ : r' ≠ r := fun same => closed (List.mem_cons.2 (.inl same))
    refine ⟨common, known, fun member => closed (List.mem_cons_of_mem _ member), ?_⟩
    rw [Program.node_replace inside, if_neg differ]
    exact spelling
  · intro r' s known closed spelling
    rw [Program.node_replace inside] at spelling
    by_cases same : r' = r
    · rw [if_pos same] at spelling
      simp [plain] at spelling
    · rw [if_neg same] at spelling
      exact inv.identified r' s known (by simp [same, closed]) spelling

/-- A spelling already read stands for the identifier being written. -/
theorem identifierHit (inv : Inv P roots S W R τ opens) (canonical : P.Canonical roots) {s : String}
    {r : NodeId} (found : R.program.arena.identifiers.get? s = some r) {n : NodeId}
    (reached : P.Reaches roots n) (spelling : (P.node n).identifier? = some s) :
    τ[r.val]? = some n := by
  obtain ⟨common, known, closed, spelled⟩ := inv.spelled s r found
  have entry : τ[r.val]? = some τ[r.val] := List.getElem?_eq_getElem known
  have agrees := (inv.nodes r τ[r.val] entry closed).2
  have spelled' : (P.node τ[r.val]).identifier? = some s := by
    rw [← agrees, Node.identifier?_mapChildren]
    exact spelled
  rw [entry, canonical.spellings _ n s (inv.reached r.val _ common entry) reached spelled' spelling]

/-- A new spelling is allocated as an identifier node standing for the one written. -/
theorem identifierNew (inv : Inv P roots S W R τ opens) {s : String}
    (absent : R.program.arena.identifiers.get? s = none) {n : NodeId}
    (written : P.node n = Program.identifierNode s) (uncommon : CommonNode.count ≤ n.val)
    (reached : P.Reaches roots n) :
    Inv P roots S W { R with program := (R.program.identifier s).2 } (τ ++ [n]) opens := by
  have size := inv.mapSize
  have agrees : NodeAgrees (τ ++ [n]) (Program.identifierNode s) (P.node n) := by
    refine ⟨fun c member => ?_, by rw [written]; rfl⟩
    simp [Program.identifierNode, Node.fresh, Node.children, NodeData.children] at member
    simp [member]
  rw [Program.identifier_of_absent absent]
  refine inv.allocWith agrees uncommon (by rw [written]; rfl) reached _ ?_ ?_ ?_
  · intro s' r found
    simp only [Std.HashMap.get?_eq_getElem?, Std.HashMap.getElem?_insert] at found absent ⊢
    split at found
    · next same =>
      cases found
      simp only [beq_iff_eq] at same
      subst same
      exact .inr ⟨size.symm, rfl⟩
    · exact .inl found
  · intro s' spelling
    simp only [Program.identifierNode, Node.identifier?, Option.some.injEq] at spelling
    subst spelling
    simp [size]
  · intro s' r known found
    have differ : s ≠ s' := by
      rintro rfl
      rw [absent] at found
      cases found
    simp only [Std.HashMap.get?_eq_getElem?, Std.HashMap.getElem?_insert] at found ⊢
    simp [differ, found]

end Inv

end TreeCodec

end IrStream
