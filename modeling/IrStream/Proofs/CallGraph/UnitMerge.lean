import Mathlib
import IrStream.Proofs.CallGraph.MergeInvariant

/-!
# A unit's call-graph section merged into a session's graph

A session reads the units' call-graph sections one after another into one
graph, against a symbol table that knows every copy. This module follows one
section read into the graph the units before it left.

* `CallGraph.RecordsMerged`: what the node records read so far leave, stepped
  one record at a time by `RecordsMerged.next`; `CallGraph.nodeStream_merges`
  reads the node records into any graph whose index is sound;
* `CallGraph.Midway`: what the read leaves between its node records and its
  last pass, kept by resolving inline targets (`Midway.inline`) and by each
  merged call (`Midway.mergeCall`), with `Midway.call_added` for the call a
  written edge leaves;
* `CallGraph.edgeStream_merges`: the edge records read as one merged call
  after another, from the nodes the records landed in.
-/

theorem List.mem_zipIdx_take {α : Type} {l : List α} {k : Nat} {x : α × Nat} :
    x ∈ l.zipIdx.take k ↔ x.2 < k ∧ l[x.2]? = some x.1 := by
  simp only [List.mem_iff_getElem?, List.getElem?_take, List.getElem?_zipIdx, zero_add]
  constructor
  · rintro ⟨i, found⟩
    split at found
    · obtain ⟨a, at_i, rfl⟩ := Option.map_eq_some_iff.1 found
      exact ⟨by assumption, at_i⟩
    · cases found
  · rintro ⟨before, at_x⟩
    exact ⟨x.2, by simp [before, at_x]⟩

theorem List.mem_zipIdx_take_succ {α : Type} {l : List α} {k : Nat} (inside : k < l.length) {x : α × Nat} :
    x ∈ l.zipIdx.take (k + 1) ↔ x ∈ l.zipIdx.take k ∨ x = (l[k], k) := by
  rw [List.mem_zipIdx_take, List.mem_zipIdx_take]
  obtain ⟨a, j⟩ := x
  by_cases here : j = k
  · subst here
    simp [inside, eq_comm]
  · simp only [Prod.mk.injEq, here, and_false, or_false]
    exact and_congr_left fun _ => by omega

namespace IrStream

namespace CallGraph

section Records

variable (g : CallGraph) (set : List CgNodeId) (D : OutDeclState) (decls : UnitDecls) (G₀ : CallGraph)

/-- The reader's declaration for the record `x` of the section. -/
def recordDecl (x : CgNodeId × Nat) : NodeId := decls.counterpart D (g.nodeOf x.1).decl

/-- Whether the record `x`, the `x.2`-th of the section, is written as a
clone: an earlier record names its declaration. -/
def recordClone (x : CgNodeId × Nat) : Bool := decide ((g.nodeOf x.1).decl ∈ (g.sectionDecls set).take x.2)

/-- The reader's graph after the first `k` node records of the section, read
into the graph `G₀` that the earlier units left. -/
def recordsRead (k : Nat) : CallGraph := ((g.sectionNodes set).zipIdx.take k).foldl (g.readRecord set D decls) G₀

/-- The node the record `x` lands in, read after the records before it. -/
def landing (x : CgNodeId × Nat) : CgNodeId :=
  ((g.recordsRead set D decls G₀ x.2).recordNode (g.recordDecl D decls x) (g.recordClone set x)).1

theorem readRecord_eq (G : CallGraph) (x : CgNodeId × Nat) :
    g.readRecord set D decls G x = (G.recordNode (g.recordDecl D decls x) (g.recordClone set x)).2.modifyNode
      (G.recordNode (g.recordDecl D decls x) (g.recordClone set x)).1
      ((g.nodeOf x.1).recordFields (decide (set.eraseDups.length ≤ x.2))) := rfl

theorem recordsRead_succ {k : Nat} (inside : k < (g.sectionNodes set).length) :
    g.recordsRead set D decls G₀ (k + 1) =
      g.readRecord set D decls (g.recordsRead set D decls G₀ k) ((g.sectionNodes set)[k], k) := by
  unfold recordsRead
  rw [List.take_add_one, List.getElem?_zipIdx, List.getElem?_eq_getElem inside]
  simp

/-- The graph read after the first `k` node records of the section: its index
is sound, it grew from `G₀` with no new edge, each record so far landed in a
node of its declaration that is a clone exactly when the record is, a record
that is not a clone landed in the indexed node of its declaration, every node
was there before or is one a record landed in, and two records land in one
node only when its declaration prevails in `T`. -/
structure RecordsMerged (T : SymbolTable) (k : Nat) : Prop where
  sound : (g.recordsRead set D decls G₀ k).IndexSound
  grows : G₀.Grows (g.recordsRead set D decls G₀ k)
  edges : (g.recordsRead set D decls G₀ k).edges = G₀.edges
  landed : ∀ x ∈ (g.sectionNodes set).zipIdx.take k, ∃ m,
    (g.recordsRead set D decls G₀ k).node? (g.landing set D decls G₀ x) = some m ∧
      m.decl = g.recordDecl D decls x ∧ m.cloneOf.isSome = g.recordClone set x
  primary : ∀ x ∈ (g.sectionNodes set).zipIdx.take k, g.recordClone set x = false →
    (g.recordsRead set D decls G₀ k).nodeForDecl (g.recordDecl D decls x) = some (g.landing set D decls G₀ x)
  made : ∀ id n, (g.recordsRead set D decls G₀ k).node? id = some n →
    (G₀.node? id).isSome ∨ ∃ x ∈ (g.sectionNodes set).zipIdx.take k, g.landing set D decls G₀ x = id
  apart : ∀ x ∈ (g.sectionNodes set).zipIdx.take k, ∀ y ∈ (g.sectionNodes set).zipIdx.take k,
    x ≠ y → g.landing set D decls G₀ x = g.landing set D decls G₀ y → T.isPrevailing (g.recordDecl D decls x)

end Records

section Clones

variable {g : CallGraph} {set : List CgNodeId}

/-- A clone record names a declaration that an earlier record, not a clone,
named first. -/
theorem first_of_recordClone {x : CgNodeId × Nat} (clone : g.recordClone set x = true) :
    ∃ y ∈ (g.sectionNodes set).zipIdx.take x.2, g.recordClone set y = false ∧
      (g.nodeOf y.1).decl = (g.nodeOf x.1).decl := by
  have early : (g.nodeOf x.1).decl ∈ (g.sectionDecls set).take x.2 := of_decide_eq_true clone
  -- the first record of the declaration is at its first place among the section's declarations
  obtain ⟨j, first⟩ : ∃ j, (g.sectionDecls set).idxOf (g.nodeOf x.1).decl = j := ⟨_, rfl⟩
  have before : j < x.2 := first ▸ List.idxOf_lt_of_mem_take early
  have declared : (g.sectionDecls set)[j]? = some (g.nodeOf x.1).decl := by
    have inside := List.idxOf_lt_length_iff.2 (List.mem_of_mem_take early)
    rw [← first, List.getElem?_eq_getElem inside, List.getElem_idxOf inside]
  have inside : j < (g.sectionNodes set).length := by
    simpa [sectionDecls] using (List.getElem?_eq_some_iff.1 declared).1
  have named : (g.nodeOf (g.sectionNodes set)[j]).decl = (g.nodeOf x.1).decl := by
    simpa [sectionDecls, inside] using declared
  refine ⟨((g.sectionNodes set)[j], j), List.mem_zipIdx_take.2 ⟨before, by simp [inside]⟩, ?_, named⟩
  simp only [recordClone, decide_eq_false_iff_not]
  intro again
  rw [named] at again
  have := List.idxOf_lt_of_mem_take again
  omega

/-- Two records at different places, neither of them a clone, are of different
declarations. -/
theorem decl_ne_of_not_recordClone {x y : CgNodeId × Nat} (listedX : x ∈ (g.sectionNodes set).zipIdx)
    (listedY : y ∈ (g.sectionNodes set).zipIdx) (other : x ≠ y) (firstX : g.recordClone set x = false)
    (firstY : g.recordClone set y = false) : (g.nodeOf x.1).decl ≠ (g.nodeOf y.1).decl := by
  have atX := List.mem_zipIdx_iff_getElem?.1 listedX
  have atY := List.mem_zipIdx_iff_getElem?.1 listedY
  have placed : x.2 ≠ y.2 := fun same => other (Prod.ext (by rw [same] at atX; simpa [atX] using atY) same)
  have declX : (g.sectionDecls set)[x.2]? = some (g.nodeOf x.1).decl := by simp [sectionDecls, atX]
  have declY : (g.sectionDecls set)[y.2]? = some (g.nodeOf y.1).decl := by simp [sectionDecls, atY]
  intro same
  simp only [recordClone, decide_eq_false_iff_not] at firstX firstY
  rcases Nat.lt_or_gt_of_ne placed with before | after
  · exact firstY (same ▸ List.mem_of_getElem? (by rw [List.getElem?_take, if_pos before, declX]))
  · exact firstX (same.symm ▸ List.mem_of_getElem? (by rw [List.getElem?_take, if_pos after, declY]))

end Clones

namespace RecordsMerged

variable {g : CallGraph} {set : List CgNodeId} {D : OutDeclState} {decls : UnitDecls} {G₀ : CallGraph}
  {T : SymbolTable} {k : Nat}

@[simp] theorem recordsRead_zero : g.recordsRead set D decls G₀ 0 = G₀ := rfl

theorem start (sound : G₀.IndexSound) : g.RecordsMerged set D decls G₀ T 0 where
  sound := sound
  grows := Grows.refl G₀
  edges := rfl
  landed _ listed := absurd listed (by simp)
  primary _ listed := absurd listed (by simp)
  made _ _ found := .inl (Option.isSome_iff_exists.2 ⟨_, found⟩)
  apart _ listed := absurd listed (by simp)

/-- A clone record finds its declaration indexed, at the node the first
record of the declaration landed in. -/
theorem indexed (held : g.RecordsMerged set D decls G₀ T k) (inside : k < (g.sectionNodes set).length)
    (clone : g.recordClone set ((g.sectionNodes set)[k], k) = true) :
    ∃ i, (g.recordsRead set D decls G₀ k).nodeForDecl (g.recordDecl D decls ((g.sectionNodes set)[k], k)) = some i := by
  obtain ⟨y, earlier, first, sameDecl⟩ := first_of_recordClone clone
  exact ⟨_, by simpa only [recordDecl, sameDecl] using held.primary y earlier first⟩

/-- A record that lands where an earlier record landed is not a clone, nor is
the earlier one, and both are of one declaration: the node was the indexed
node of its declaration. -/
theorem shared (held : g.RecordsMerged set D decls G₀ T k) (inside : k < (g.sectionNodes set).length)
    {y : CgNodeId × Nat} (earlier : y ∈ (g.sectionNodes set).zipIdx.take k)
    (same : g.landing set D decls G₀ y = g.landing set D decls G₀ ((g.sectionNodes set)[k], k)) :
    g.recordClone set ((g.sectionNodes set)[k], k) = false ∧ g.recordClone set y = false ∧
      g.recordDecl D decls y = g.recordDecl D decls ((g.sectionNodes set)[k], k) := by
  obtain ⟨m, found, decl, clone⟩ := held.landed y earlier
  obtain ⟨-, -, -, -, -, -, -, old⟩ := recordNode_spec held.sound (held.indexed inside)
    (f := id) fun _ => ⟨rfl, rfl⟩
  -- the node was live before the new record
  have live : (g.recordsRead set D decls G₀ k).node? ((g.recordsRead set D decls G₀ k).recordNode
      (g.recordDecl D decls ((g.sectionNodes set)[k], k)) (g.recordClone set ((g.sectionNodes set)[k], k))).1 =
      some m := by
    rw [same] at found
    exact found
  obtain ⟨first, entry⟩ := old (Option.isSome_iff_exists.2 ⟨m, live⟩)
  obtain ⟨m', found', decl', primary⟩ := held.sound _ _ entry
  rw [live] at found'
  cases found'
  exact ⟨first, by rw [← clone, primary]; rfl, decl.symm.trans decl'⟩

/-- Two records that land in one node, neither of them a clone, are of
declarations the writer tells apart, whose counterparts therefore meet only
where they prevail. -/
theorem prevails_of_shared
    (collide : ∀ t ∈ g.sectionDecls set, ∀ t' ∈ g.sectionDecls set, t ≠ t' →
      decls.counterpart D t = decls.counterpart D t' → T.isPrevailing (decls.counterpart D t))
    {x y : CgNodeId × Nat} (listedX : x ∈ (g.sectionNodes set).zipIdx) (listedY : y ∈ (g.sectionNodes set).zipIdx)
    (other : x ≠ y) (firstX : g.recordClone set x = false) (firstY : g.recordClone set y = false)
    (sameDecl : g.recordDecl D decls x = g.recordDecl D decls y) : T.isPrevailing (g.recordDecl D decls x) := by
  have member : ∀ z ∈ (g.sectionNodes set).zipIdx, (g.nodeOf z.1).decl ∈ g.sectionDecls set :=
    fun z listed => List.mem_map_of_mem (List.mem_of_getElem? (List.mem_zipIdx_iff_getElem?.1 listed))
  exact collide _ (member x listedX) _ (member y listedY)
    (decl_ne_of_not_recordClone listedX listedY other firstX firstY) sameDecl

/-- One more node record keeps what the records read so far leave, the
counterparts of declarations the writer tells apart meeting only where they
prevail. -/
theorem next
    (collide : ∀ t ∈ g.sectionDecls set, ∀ t' ∈ g.sectionDecls set, t ≠ t' →
      decls.counterpart D t = decls.counterpart D t' → T.isPrevailing (decls.counterpart D t))
    (held : g.RecordsMerged set D decls G₀ T k) (inside : k < (g.sectionNodes set).length) :
    g.RecordsMerged set D decls G₀ T (k + 1) := by
  obtain ⟨sound, edges, grows, landedX, others, primaryX, -, -⟩ := recordNode_spec held.sound
    (held.indexed inside) (f := (g.nodeOf (g.sectionNodes set)[k]).recordFields (decide (set.eraseDups.length ≤ k)))
    fun _ => ⟨rfl, rfl⟩
  rw [← readRecord_eq, ← recordsRead_succ _ _ _ _ _ inside] at sound edges grows landedX others primaryX
  have listedX : ((g.sectionNodes set)[k], k) ∈ (g.sectionNodes set).zipIdx :=
    List.mem_zipIdx_iff_getElem?.2 (by simp)
  have step : ∀ y, y ∈ (g.sectionNodes set).zipIdx.take (k + 1) ↔
      y ∈ (g.sectionNodes set).zipIdx.take k ∨ y = ((g.sectionNodes set)[k], k) :=
    fun _ => List.mem_zipIdx_take_succ inside
  refine ⟨sound, held.grows.trans grows, edges.trans held.edges, ?landed, ?primary, ?made, ?apart⟩
  case landed =>
    intro y listed
    rcases (step y).1 listed with earlier | rfl
    · by_cases same : g.landing set D decls G₀ y = g.landing set D decls G₀ ((g.sectionNodes set)[k], k)
      · -- the node is the one the new record landed in
        obtain ⟨firstX, firstY, sameDecl⟩ := held.shared inside earlier same
        obtain ⟨m, found, decl, clone⟩ := landedX
        exact ⟨m, same ▸ found, decl.trans sameDecl.symm, clone.trans (firstX.trans firstY.symm)⟩
      · obtain ⟨m, found, decl, clone⟩ := held.landed y earlier
        exact ⟨m, (others _ same).trans found, decl, clone⟩
    · exact landedX
  case primary =>
    intro y listed first
    rcases (step y).1 listed with earlier | rfl
    · exact grows.byDecl _ _ (held.primary y earlier first)
    · exact primaryX first
  case made =>
    intro id n found
    by_cases same : id = g.landing set D decls G₀ ((g.sectionNodes set)[k], k)
    · exact .inr ⟨_, (step _).2 (.inr rfl), same.symm⟩
    · rcases held.made id n ((others id same).symm.trans found) with before | ⟨y, earlier, landed⟩
      · exact .inl before
      · exact .inr ⟨y, (step y).2 (.inl earlier), landed⟩
  case apart =>
    intro y listedY z listedZ other same
    rcases (step y).1 listedY with earlierY | rfl <;> rcases (step z).1 listedZ with earlierZ | rfl
    · exact held.apart y earlierY z earlierZ other same
    · obtain ⟨firstZ, firstY, sameDecl⟩ := held.shared inside earlierY same
      exact prevails_of_shared collide (List.mem_of_mem_take earlierY) listedX other firstY firstZ sameDecl
    · obtain ⟨firstY, firstZ, sameDecl⟩ := held.shared inside earlierZ same.symm
      exact prevails_of_shared collide listedX (List.mem_of_mem_take earlierZ) other firstY firstZ sameDecl.symm
    · exact absurd rfl other

end RecordsMerged

section Reading

variable {g : CallGraph} {set : List CgNodeId} {D : OutDeclState} {decls : UnitDecls} {G₀ : CallGraph}
  {T : SymbolTable}

/-- What every prefix of the node records leaves, read into a graph whose
index is sound. -/
theorem recordsMerged_take (sound : G₀.IndexSound)
    (collide : ∀ t ∈ g.sectionDecls set, ∀ t' ∈ g.sectionDecls set, t ≠ t' →
      decls.counterpart D t = decls.counterpart D t' → T.isPrevailing (decls.counterpart D t)) :
    ∀ k ≤ (g.sectionNodes set).length, g.RecordsMerged set D decls G₀ T k
  | 0, _ => RecordsMerged.start sound
  | k + 1, inside => (recordsMerged_take sound collide k (by omega)).next collide inside

/-- The node records of a section, one per node, each with its tag first. -/
theorem nodeStream_records (g : CallGraph) (set : List CgNodeId) (D : OutDeclState) :
    g.nodeStream set D = (g.sectionNodes set).zipIdx.flatMap fun x =>
      (g.nodeOf x.1).tag (decide (set.eraseDups.length ≤ x.2)) ::
        (g.nodeOf x.1).record (decide (set.eraseDups.length ≤ x.2)) (g.recordClone set x)
          ((D.trees .function).idxOf (g.nodeOf x.1).decl)
          (g.sectionTarget set (g.nodeOf x.1) (decide (set.eraseDups.length ≤ x.2))) := by
  simp only [nodeStream, sectionRecord, recordClone, sectionDecls, List.map_take]
  rfl

/-- The node records of a section, read into a graph the earlier units left
whose index is sound: every record is answered with the node it lands in, and
the graph is the one the records build one after another. -/
theorem nodeStream_merges (sound : G₀.IndexSound)
    (collide : ∀ t ∈ g.sectionDecls set, ∀ t' ∈ g.sectionDecls set, t ≠ t' →
      decls.counterpart D t = decls.counterpart D t' → T.isPrevailing (decls.counterpart D t))
    (entries : ∀ t ∈ g.sectionDecls set,
      (decls.table .function)[(D.trees .function).idxOf t]? = some (decls.counterpart D t))
    (fits : ∀ t ∈ g.sectionDecls set, (D.trees .function).idxOf t < 2 ^ 64) :
    GraphReadM.Reads (GraphReadM.nodes decls) G₀ (g.nodeStream set D ++ [GraphTag.done])
      (((g.sectionNodes set).zipIdx.map fun x => g.landing set D decls G₀ x).toArray,
        (g.sectionNodes set).zipIdx.filterMap fun x => (g.sectionAnswer set x).2.map (g.landing set D decls G₀ x, ·))
      (g.recordsRead set D decls G₀ (g.sectionNodes set).length) := by
  have whole : g.recordsRead set D decls G₀ (g.sectionNodes set).length =
      (g.sectionNodes set).zipIdx.foldl (g.readRecord set D decls) G₀ := by
    rw [recordsRead, List.take_of_length_le (by simp)]
  rw [nodeStream_records, whole]
  refine GraphReadM.nodes_reads _ _ _ (fun x => (g.landing set D decls G₀ x, (g.sectionAnswer set x).2))
    (g.readRecord set D decls) G₀ fun done x rest position => ?_
  obtain ⟨inside, rfl, front⟩ := List.zipIdx_split position
  -- the records before this one left the graph `recordsRead`
  have before : done.foldl (g.readRecord set D decls) G₀ = g.recordsRead set D decls G₀ done.length := by
    rw [recordsRead, ← front]
  have held := recordsMerged_take sound collide done.length inside.le
  have named : (g.nodeOf (g.sectionNodes set)[done.length]).decl ∈ g.sectionDecls set :=
    List.mem_map_of_mem (List.getElem_mem inside)
  obtain ⟨n, found, -⟩ := held.sound.getOrCreate_live (g.recordDecl D decls ((g.sectionNodes set)[done.length], done.length))
  refine ⟨CgNode.tag_ne_done _ _, ?_⟩
  rw [before]
  exact GraphReadM.node_reads _ _ _ _ _ (entries _ named) (fits _ named) fun _ => by simp [found]

end Reading

section Midway

variable (g : CallGraph) (set : List CgNodeId) (D : OutDeclState) (decls : UnitDecls) (G₀ : CallGraph)

/-- The node the record of the section's node `id` lands in. -/
def landingOf (id : CgNodeId) : CgNodeId := g.landing set D decls G₀ (id, (g.sectionNodes set).idxOf id)

/-- What a section read leaves between its node records and its last pass: a
sound index, calls between prevailing nodes, each record's node live with the
record's declaration, the first record of each declaration at its indexed
node, and every node either of a prevailing declaration or one a record
landed in. -/
structure Midway (T : SymbolTable) (G : CallGraph) : Prop where
  sound : G.IndexSound
  calls : G.CallsPrevail T
  landed : ∀ x ∈ (g.sectionNodes set).zipIdx, ∃ m, G.node? (g.landing set D decls G₀ x) = some m ∧
    m.decl = g.recordDecl D decls x
  primary : ∀ x ∈ (g.sectionNodes set).zipIdx, g.recordClone set x = false →
    G.nodeForDecl (g.recordDecl D decls x) = some (g.landing set D decls G₀ x)
  made : ∀ id n, G.node? id = some n →
    T.isPrevailing n.decl = true ∨ ∃ x ∈ (g.sectionNodes set).zipIdx, g.landing set D decls G₀ x = id

end Midway

theorem mem_zipIdx_idxOf {l : List CgNodeId} {id : CgNodeId} (member : id ∈ l) : (id, l.idxOf id) ∈ l.zipIdx := by
  have inside := List.idxOf_lt_length_iff.2 member
  exact List.mem_zipIdx_iff_getElem?.2 (by simp [List.getElem?_eq_getElem inside, List.getElem_idxOf inside])

/-- Resolving inline targets changes no node's declaration or clone link, and
no call. -/
theorem inlineAll_frame (target : CgNodeId × Int64 → CgNodeId) :
    ∀ (targets : List (CgNodeId × Int64)) (G : CallGraph),
      (G.IndexSound → (G.inlineAll targets target).IndexSound) ∧ G.Grows (G.inlineAll targets target) ∧
        (G.inlineAll targets target).edges = G.edges ∧
        ∀ id n, (G.inlineAll targets target).node? id = some n → ∃ n', G.node? id = some n' ∧ n'.decl = n.decl
  | [], G => ⟨id, Grows.refl G, rfl, fun _ n found => ⟨n, found, rfl⟩⟩
  | x :: targets, G => by
    simp only [inlineAll, List.foldl_cons]
    rw [← inlineAll]
    obtain ⟨sound, grows, edges, back⟩ := inlineAll_frame target targets (G.modifyNode x.1 fun n =>
      { n with global := { n.global with inlinedTo := some (target x) } })
    refine ⟨fun sound₀ => sound (sound₀.modifyNode _ fun _ => ⟨rfl, rfl⟩),
      (Grows.modifyNode G x.1 (f := fun n => { n with global := { n.global with inlinedTo := some (target x) } })
        fun _ => rfl).trans grows, edges, fun id n found => ?_⟩
    obtain ⟨n', found', sameDecl⟩ := back id n found
    rw [node?_modifyNode] at found'
    split at found'
    · obtain ⟨n'', found'', rfl⟩ := Option.map_eq_some_iff.1 found'
      exact ⟨n'', found'', sameDecl⟩
    · exact ⟨n', found', sameDecl⟩

namespace Midway

variable {g : CallGraph} {set : List CgNodeId} {D : OutDeclState} {decls : UnitDecls} {G₀ : CallGraph}
  {T : SymbolTable} {G G' : CallGraph}

/-- The records all read into a merged graph. -/
theorem start (merged : G₀.Merged T) (held : g.RecordsMerged set D decls G₀ T (g.sectionNodes set).length) :
    g.Midway set D decls G₀ T (g.recordsRead set D decls G₀ (g.sectionNodes set).length) where
  sound := held.sound
  calls := merged.calls.grow held.grows fun e listed => .inl (held.edges ▸ listed)
  landed x listed := by
    obtain ⟨m, found, decl, -⟩ := held.landed x (by rwa [List.take_of_length_le (by simp)])
    exact ⟨m, found, decl⟩
  primary x listed := held.primary x (by rwa [List.take_of_length_le (by simp)])
  made id n found := by
    rcases held.made id n found with before | ⟨x, listed, landed⟩
    · -- a node of the merged graph kept its declaration, which prevails
      obtain ⟨n₀, found₀⟩ := Option.isSome_iff_exists.1 before
      obtain ⟨n', found', sameDecl⟩ := held.grows.live id n₀ found₀
      rw [found] at found'
      cases found'
      exact .inl (sameDecl ▸ merged.prevails id n₀ found₀)
    · exact .inr ⟨x, List.mem_of_mem_take listed, landed⟩

/-- A graph grown from one the invariant holds of, with a sound index and
calls between prevailing nodes, whose every node was there before with its
declaration or is of a prevailing declaration. -/
theorem grow (held : g.Midway set D decls G₀ T G) (sound : G'.IndexSound) (calls : G'.CallsPrevail T)
    (grows : G.Grows G')
    (back : ∀ id n, G'.node? id = some n →
      (∃ n', G.node? id = some n' ∧ n'.decl = n.decl) ∨ T.isPrevailing n.decl = true) :
    g.Midway set D decls G₀ T G' where
  sound := sound
  calls := calls
  landed x listed := by
    obtain ⟨m, found, decl⟩ := held.landed x listed
    obtain ⟨m', found', sameDecl⟩ := grows.live _ m found
    exact ⟨m', found', sameDecl.trans decl⟩
  primary x listed first := grows.byDecl _ _ (held.primary x listed first)
  made id n found := by
    rcases back id n found with ⟨n', found', sameDecl⟩ | prevails
    · rcases held.made id n' found' with prevails | landed
      · exact .inl (sameDecl ▸ prevails)
      · exact .inr landed
    · exact .inl prevails

theorem inline (held : g.Midway set D decls G₀ T G) {target : CgNodeId × Int64 → CgNodeId}
    (targets : List (CgNodeId × Int64)) : g.Midway set D decls G₀ T (G.inlineAll targets target) := by
  obtain ⟨sound, grows, edges, back⟩ := inlineAll_frame target targets G
  exact held.grow (sound held.sound) (held.calls.grow grows fun e listed => .inl (edges ▸ listed)) grows
    fun id n found => .inl (back id n found)

theorem mergeCall (settled : T.Settled) (held : g.Midway set D decls G₀ T G) {e : CgEdge} {b : Bool}
    (merged : G.mergeCall T e = some (b, G')) : g.Midway set D decls G₀ T G' := by
  obtain ⟨sound, grows, made⟩ := mergeCall_grows settled held.sound merged
  refine held.grow sound (mergeCall_calls settled held.sound held.calls merged) grows fun id n found => ?_
  cases before : G.node? id with
  | none => exact .inr (made id n found before)
  | some n₀ =>
    obtain ⟨n', found', sameDecl⟩ := grows.live id n₀ before
    rw [found] at found'
    cases found'
    exact .inl ⟨n₀, rfl, sameDecl.symm⟩

/-- A written call from a copy that is not preempted, merged at a graph the
invariant holds of, leaves in every graph grown from the result a call from
the caller's node, whose declaration prevails, to a live node of a prevailing
declaration: the callee's node where the callee's declaration prevails, and
otherwise the indexed node of the declaration that prevails over it. -/
theorem call_added (settled : T.Settled) (held : g.Midway set D decls G₀ T G) {e : CgEdge}
    (caller : e.caller ∈ g.sectionNodes set) (callee : e.callee ∈ g.sectionNodes set)
    (kept : T.resolution? (decls.counterpart D (g.nodeOf e.caller).decl) ≠ some .preempted) {b : Bool}
    (merged : G.mergeCall T (e.mapEnds (g.landingOf set D decls G₀)) = some (b, G')) {G'' : CallGraph}
    (grows : G'.Grows G'') :
    T.isPrevailing (decls.counterpart D (g.nodeOf e.caller).decl) = true ∧
      ∃ z n, { e with caller := g.landingOf set D decls G₀ e.caller, callee := z } ∈ G''.edges ∧
        G''.node? z = some n ∧ T.isPrevailing n.decl = true ∧
        (T.isPrevailing (decls.counterpart D (g.nodeOf e.callee).decl) = true → z = g.landingOf set D decls G₀ e.callee) ∧
        (T.isPrevailing (decls.counterpart D (g.nodeOf e.callee).decl) = false →
          G''.nodeForDecl (T.prevailing (decls.counterpart D (g.nodeOf e.callee).decl)) = some z) := by
  obtain ⟨m, atCaller, callerDecl⟩ := held.landed _ (mem_zipIdx_idxOf caller)
  obtain ⟨m', atCallee, calleeDecl⟩ := held.landed _ (mem_zipIdx_idxOf callee)
  -- the ends as the merged call names them, so that no record's landing is unfolded
  have atCaller : G.node? (e.mapEnds (g.landingOf set D decls G₀)).caller = some m := by
    rw [CgEdge.mapEnds_caller]
    exact atCaller
  have atCallee : G.node? (e.mapEnds (g.landingOf set D decls G₀)).callee = some m' := by
    rw [CgEdge.mapEnds_callee]
    exact atCallee
  simp only [recordDecl] at callerDecl calleeDecl
  rw [← callerDecl] at kept ⊢
  rw [← calleeDecl]
  obtain ⟨-, prevails, z, n, edges, found, prevails', stays, moves⟩ :=
    mergeCall_added settled held.sound atCaller atCallee kept merged
  obtain ⟨n', found', sameDecl⟩ := grows.live z n found
  refine ⟨prevails, z, n', ?_, found', sameDecl ▸ prevails', stays, fun moved => grows.byDecl _ _ (moves moved)⟩
  -- the call added stays among the calls of every later graph
  refine grows.mem_edges ?_
  rw [edges, Array.mem_push]
  exact .inr rfl

end Midway

section Landings

variable {g : CallGraph} {set : List CgNodeId} {D : OutDeclState} {decls : UnitDecls} {G₀ : CallGraph}
  {T : SymbolTable}

/-- The nodes the records landed in, looked up by place. -/
theorem landings_getElem? {i : Nat} (inside : i < (g.sectionNodes set).length) :
    ((g.sectionNodes set).zipIdx.map (g.landing set D decls G₀)).toArray[i]? =
      some (g.landing set D decls G₀ ((g.sectionNodes set)[i], i)) := by
  simp [inside]

theorem landings_idxOf {id : CgNodeId} (member : id ∈ g.sectionNodes set) :
    ((g.sectionNodes set).zipIdx.map (g.landing set D decls G₀)).toArray[(g.sectionNodes set).idxOf id]? =
      some (g.landingOf set D decls G₀ id) := by
  have inside := List.idxOf_lt_length_iff.2 member
  rw [landings_getElem? inside, List.getElem_idxOf inside]
  rfl

/-- The edge records of a section, read after its node records: the calls of
the members are merged one after another, each from the node its caller's
record landed in to the one its callee's record landed in, and the reader
fails at the first call that is refused. -/
theorem edgeStream_merges (small : (g.sectionNodes set).length < 2 ^ 63)
    (ends : ∀ id ∈ set, ∀ e ∈ g.callees id, e.callee ∈ g.sectionNodes set) (G : CallGraph) :
    GraphReadM.Runs (GraphReadM.edges ((g.sectionNodes set).zipIdx.map (g.landing set D decls G₀)).toArray T) G
      (g.edgeStream set ++ [GraphTag.done])
      (((set.eraseDups.flatMap g.callees).foldlM
        (fun (G : CallGraph) (e : CgEdge) => (G.mergeCall T (e.mapEnds (g.landingOf set D decls G₀))).map Prod.snd)
        G).map fun G' => ((), G')) := by
  have stream : g.edgeStream set = (set.eraseDups.flatMap g.callees).flatMap fun e =>
      GraphTag.edge :: e.record ((g.sectionNodes set).idxOf e.caller) ((g.sectionNodes set).idxOf e.callee) := by
    rw [edgeStream, List.flatMap_assoc]
  rw [stream]
  refine GraphReadM.edges_runs _ _
    (fun (G : CallGraph) (e : CgEdge) => G.mergeCall T (e.mapEnds (g.landingOf set D decls G₀)))
    (fun G e listed => ?_) G
  obtain ⟨id, member, called⟩ := List.mem_flatMap.1 listed
  -- the caller is the member, and both ends are nodes of the section
  have caller : e.caller = id := by simpa [callees] using (List.mem_filter.1 called).2
  have callerIn : e.caller ∈ g.sectionNodes set := caller ▸ List.mem_append_left _ member
  have calleeIn := ends id (List.mem_eraseDups.1 member) e called
  have callerPlace := List.idxOf_lt_length_iff.2 callerIn
  have calleePlace := List.idxOf_lt_length_iff.2 calleeIn
  exact GraphReadM.edge_runs G e (landings_idxOf callerIn) (landings_idxOf calleeIn) (by omega) (by omega)

end Landings

end CallGraph

end IrStream
