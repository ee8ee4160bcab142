import Mathlib
import IrStream.Proofs.CallGraph.SectionRead
import IrStream.Proofs.CallGraph.DeclIndex

/-!
# What a fresh reader builds from a call-graph section

The section of a partition, read into an empty graph, record by record. The
reader knows a declaration by the entry of its own function table at the place
the writer's table gives it (`UnitDecls.counterpart`); distinct declarations of
the writer have distinct counterparts when the tables stand entry for entry.

* `CallGraph.NodesRead`: the graph after the first `k` node records, one node
  per record numbered by its place, each declaration indexed at its first
  record and every later record of it a clone; `NodesRead.next` is one record,
  `nodesRead_take` the run of them;
* `CallGraph.nodeStream_reads`: the node records and their end tag, answered
  with the nodes by place and the raw inline targets the records name;
* `CallGraph.edgeStream_reads`: the edge records, with no symbol table, add the
  calls of the members in order, their ends renumbered by place
  (`CallGraph.readId`);
* `CallGraph.node?_inlineAll_of_mem`: resolving inline targets, each node named
  once, points each node at its target and leaves the others.
-/

namespace List

variable {α : Type} {l : List α} {k : Nat} {t : α}

/-- Growing a prefix by one takes the next element in. -/
theorem mem_take_add_one (inside : k < l.length) : t ∈ l.take (k + 1) ↔ t ∈ l.take k ∨ t = l[k] := by
  rw [List.take_add_one, List.getElem?_eq_getElem inside, Option.toList_some, List.mem_append,
    List.mem_singleton]

/-- An element not among the first `k` stands first at place `k`. -/
theorem idxOf_of_fresh [BEq α] [LawfulBEq α] (at_k : l[k]? = some t) (fresh : t ∉ l.take k) : l.idxOf t = k := by
  obtain ⟨inside, same⟩ := List.getElem?_eq_some_iff.1 at_k
  have split : l = l.take k ++ t :: l.drop (k + 1) := by rw [← same]; simp
  conv_lhs => rw [split]
  rw [List.idxOf_append_of_notMem fresh]
  simp
  omega

/-- An element among the first `k` stands first before place `k`. -/
theorem idxOf_lt_of_mem_take [BEq α] [LawfulBEq α] (early : t ∈ l.take k) : l.idxOf t < k := by
  have split : l = l.take k ++ l.drop k := by simp
  conv_lhs => rw [split]
  rw [List.idxOf_append_of_mem early]
  have := List.idxOf_lt_length_iff.2 early
  simp at this ⊢
  omega

/-- An element at place `k` stands first at or before it. -/
theorem idxOf_le_of_getElem? [BEq α] [LawfulBEq α] (at_k : l[k]? = some t) : l.idxOf t ≤ k := by
  by_cases early : t ∈ l.take k
  · exact (idxOf_lt_of_mem_take early).le
  · exact (idxOf_of_fresh at_k early).le

/-- The element after a prefix of a numbered list is the next one, with its
number, and the prefix is the first elements. -/
theorem zipIdx_split {l : List α} {done rest : List (α × Nat)} {x : α × Nat}
    (position : done ++ x :: rest = l.zipIdx) :
    ∃ inside : done.length < l.length, x = (l[done.length], done.length) ∧ done = l.zipIdx.take done.length := by
  have long : done.length < l.zipIdx.length := by rw [← position]; simp
  have at_k : l.zipIdx[done.length] = x := by simp [← position]
  rw [List.length_zipIdx] at long
  refine ⟨long, ?_, by rw [← position]; simp⟩
  rw [← at_k, List.getElem_zipIdx]
  simp

/-- The first element whose image is `d` stands at the place of `d` among the
images. -/
theorem find?_beq_eq_getElem?_idxOf {β : Type} [BEq β] [LawfulBEq β] (f : α → β) (d : β) :
    ∀ l : List α, l.find? (fun x => f x == d) = l[(l.map f).idxOf d]?
  | [] => rfl
  | x :: l => by
    by_cases here : f x = d
    · simp [here]
    · simp [here, List.idxOf_cons_ne _ here, find?_beq_eq_getElem?_idxOf f d l]

/-- Erasing duplicates leaves none. -/
theorem nodup_eraseDups [BEq α] [LawfulBEq α] : ∀ l : List α, l.eraseDups.Nodup
  | [] => by simp [List.eraseDups, List.eraseDupsBy, List.eraseDupsBy.loop]
  | a :: as => by
    rw [List.eraseDups_cons]
    refine List.nodup_cons.2 ⟨fun again => ?_, nodup_eraseDups _⟩
    have := (List.mem_filter.1 (List.mem_eraseDups.1 again)).2
    simp at this
termination_by l => l.length
decreasing_by exact Nat.lt_succ_of_le (List.length_filter_le _ _)

/-- Lists that each start with an element are at least one element long each. -/
theorem length_le_length_flatMap_cons {β : Type} (f : α → β) (g : α → List β) :
    ∀ l : List α, l.length ≤ (l.flatMap fun x => f x :: g x).length
  | [] => le_rfl
  | x :: l => by
    have := length_le_length_flatMap_cons f g l
    simp only [List.flatMap_cons, List.length_cons, List.length_append]
    omega

end List

/-- Changing the element just pushed changes what is pushed. -/
theorem Array.modify_push_size {α : Type} (a : Array α) (x : α) (f : α → α) :
    (a.push x).modify a.size f = a.push (f x) := by
  apply Array.ext_getElem?
  intro i
  by_cases last : i = a.size
  · subst last
    simp [Array.getElem_modify]
  · simp [Array.getElem?_modify, Array.getElem?_push, last, Ne.symm last]

namespace IrStream

namespace UnitDecls

/-- The declaration the reader has for the writer's declaration `t`: the entry
of the read function table at the place `t` has in the writer's. -/
def counterpart (decls : UnitDecls) (D : OutDeclState) (t : NodeId) : NodeId :=
  ((decls.table .function)[(D.trees .function).idxOf t]?).getD default

variable {decls : UnitDecls} {D : OutDeclState} {τ : List NodeId}

/-- Read tables that stand entry for entry for the writer's under `τ` hold the
counterpart of every declaration of the writer's function table at its place,
and `τ` maps the counterpart back. -/
theorem counterpart_entry
    (tables : List.Forall₂ (fun r t => τ[r.val]? = some t) (decls.table .function).toList (D.trees .function))
    {t : NodeId} (filed : t ∈ D.trees .function) :
    (decls.table .function)[(D.trees .function).idxOf t]? = some (decls.counterpart D t) ∧
      τ[(decls.counterpart D t).val]? = some t := by
  have inside : (D.trees .function).idxOf t < (D.trees .function).length := List.idxOf_lt_length_iff.2 filed
  have same := tables.length_eq
  rw [Array.length_toList] at same
  have inTable : (D.trees .function).idxOf t < (decls.table .function).size := by omega
  have entry : (decls.table .function)[(D.trees .function).idxOf t]? = some (decls.counterpart D t) := by
    simp [counterpart, inTable]
  refine ⟨entry, ?_⟩
  have agrees := (List.forall₂_iff_get.1 tables).2 _ (by simpa using inTable) inside
  simp only [List.get_eq_getElem, Array.getElem_toList, List.getElem_idxOf] at agrees
  simpa [counterpart, inTable] using agrees

/-- Distinct declarations of the writer's table have distinct counterparts. -/
theorem counterpart_inj
    (tables : List.Forall₂ (fun r t => τ[r.val]? = some t) (decls.table .function).toList (D.trees .function))
    {t t' : NodeId} (filed : t ∈ D.trees .function) (filed' : t' ∈ D.trees .function)
    (same : decls.counterpart D t = decls.counterpart D t') : t = t' := by
  have back := (counterpart_entry tables filed).2
  rw [same, (counterpart_entry tables filed').2] at back
  exact (Option.some.inj back).symm

end UnitDecls


namespace CallGraph

section Numbering

variable {g : CallGraph} {set : List CgNodeId}

theorem not_mem_of_mem_boundary {id : CgNodeId} (outside : id ∈ g.boundary set) : id ∉ set := by
  have := List.mem_eraseDups.1 outside
  simp only [List.removeAll, List.mem_filter, List.elem_eq_mem, Bool.not_eq_true', decide_eq_false_iff_not] at this
  exact this.2

/-- The section's nodes are distinct: the members once each, then callees
outside them once each. -/
theorem sectionNodes_nodup (g : CallGraph) (set : List CgNodeId) : (g.sectionNodes set).Nodup :=
  List.nodup_append.2 ⟨List.nodup_eraseDups _, List.nodup_eraseDups _, fun _ member _ outside same =>
    not_mem_of_mem_boundary outside (same ▸ List.mem_eraseDups.1 member)⟩

/-- The records from place `set.eraseDups.length` on are those of the nodes
outside `set`. -/
theorem boundary_place {k : Nat} (inside : k < (g.sectionNodes set).length) :
    decide (set.eraseDups.length ≤ k) = decide ((g.sectionNodes set)[k] ∉ set) := by
  by_cases member : k < set.eraseDups.length
  · have at_k : (g.sectionNodes set)[k] = set.eraseDups[k] := List.getElem_append_left member
    have : set.eraseDups[k] ∈ set := List.mem_eraseDups.1 (List.getElem_mem member)
    simp [at_k, this]
    omega
  · have later : k - set.eraseDups.length < (g.boundary set).length := by
      simp only [sectionNodes, List.length_append] at inside
      omega
    have at_k : (g.sectionNodes set)[k] = (g.boundary set)[k - set.eraseDups.length] :=
      List.getElem_append_right (by omega)
    have outside := not_mem_of_mem_boundary (List.getElem_mem later)
    simp [at_k, outside]
    omega

/-- Every node record takes at least its tag. -/
theorem length_le_nodeStream (D : OutDeclState) : (g.sectionNodes set).length ≤ (g.nodeStream set D).length := by
  rw [← List.length_zipIdx]
  unfold nodeStream sectionRecord
  dsimp only
  exact List.length_le_length_flatMap_cons _ _ _

end Numbering

theorem modifyNode_push (g : CallGraph) (m : CgNode) (f : CgNode → CgNode) :
    (g.push m).2.modifyNode (g.push m).1 f = (g.push (f m)).2 := by
  simp only [push, modifyNode, Array.modify_push_size, Option.map_some]

/-- A declaration without a primary node gets a new one, numbered next. -/
theorem getOrCreate_of_fresh {g : CallGraph} {d : NodeId} (fresh : g.byDecl.get? d = none) :
    g.getOrCreate d = ((g.push { decl := d }).1,
      { (g.push { decl := d }).2 with byDecl := g.byDecl.insert d (g.push { decl := d }).1 }) := by
  rw [Std.HashMap.get?_eq_getElem?] at fresh
  simp [getOrCreate, fresh, push]

section Records

variable (g : CallGraph) (set : List CgNodeId) (D : OutDeclState) (decls : UnitDecls)

/-- The declarations of the section's nodes, in section order. -/
def sectionDecls : List NodeId := (g.sectionNodes set).map fun id => (g.nodeOf id).decl

/-- What the `k`-th record of the section, of node `id`, leaves in the reader's
graph before inline targets are resolved: the record's fields in a node of the
counterpart declaration, a clone of the first node of that declaration when an
earlier record named it. -/
def recordRead (id : CgNodeId) (k : Nat) : CgNode :=
  let d := (g.nodeOf id).decl
  (g.nodeOf id).recordFields (decide (set.eraseDups.length ≤ k))
    { decl := decls.counterpart D d
      cloneOf := if d ∈ (g.sectionDecls set).take k then some ⟨(g.sectionDecls set).idxOf d⟩ else none }

/-- The reader's graph after the record `x`, the `x.2`-th of the section, of
node `x.1`. -/
def readRecord (G : CallGraph) (x : CgNodeId × Nat) : CallGraph :=
  let n := g.nodeOf x.1
  let d := decls.counterpart D n.decl
  let clone := decide (n.decl ∈ (g.sectionDecls set).take x.2)
  (G.recordNode d clone).2.modifyNode (G.recordNode d clone).1 (n.recordFields (decide (set.eraseDups.length ≤ x.2)))

/-- The reader's graph after the first `k` node records of the section of
`set`: one node per record, in order, no edge yet, and each declaration named so
far indexed at the first record naming it. -/
structure NodesRead (k : Nat) (G : CallGraph) : Prop where
  nodes : G.nodes.toList = ((g.sectionNodes set).zipIdx.take k).map fun x => some (g.recordRead set D decls x.1 x.2)
  edges : G.edges = #[]
  index : ∀ t ∈ g.sectionDecls set, G.byDecl.get? (decls.counterpart D t) =
    if t ∈ (g.sectionDecls set).take k then some ⟨(g.sectionDecls set).idxOf t⟩ else none

end Records

namespace NodesRead

variable {g : CallGraph} {set : List CgNodeId} {D : OutDeclState} {decls : UnitDecls} {k : Nat} {G : CallGraph}

theorem start : g.NodesRead set D decls 0 {} where
  nodes := by simp
  edges := rfl
  index := by simp

theorem size (read : g.NodesRead set D decls k G) (inside : k ≤ (g.sectionNodes set).length) :
    G.nodes.size = k := by
  have counted := congrArg List.length read.nodes
  simp only [Array.length_toList, List.length_map, List.length_take, List.length_zipIdx] at counted
  omega

theorem node? (read : g.NodesRead set D decls k G) {j : Nat} (before : j < k)
    (inside : j < (g.sectionNodes set).length) :
    G.node? ⟨j⟩ = some (g.recordRead set D decls (g.sectionNodes set)[j] j) := by
  have at_j := congrArg (·[j]?) read.nodes
  simp only [Array.getElem?_toList, List.getElem?_map, List.getElem?_take, before, if_true,
    List.getElem?_zipIdx] at at_j
  simp [CallGraph.node?, at_j, List.getElem?_eq_getElem inside]

/-- The `k`-th record of a declaration no earlier record named makes the
declaration's primary node, numbered `k`. -/
theorem recordNode_fresh (read : g.NodesRead set D decls k G) (inside : k < (g.sectionNodes set).length)
    (fresh : (g.nodeOf (g.sectionNodes set)[k]).decl ∉ (g.sectionDecls set).take k) :
    let d := decls.counterpart D (g.nodeOf (g.sectionNodes set)[k]).decl
    G.recordNode d false =
      ((G.push { decl := d }).1, { (G.push { decl := d }).2 with byDecl := G.byDecl.insert d ⟨k⟩ }) := by
  intro d
  have unnamed : G.byDecl.get? d = none := by
    have := read.index _ (List.mem_map_of_mem (List.getElem_mem inside))
    rwa [if_neg fresh] at this
  have sized := read.size inside.le
  simp only [recordNode, getOrCreate_of_fresh unnamed, Bool.false_eq_true, if_false]
  simp [push, sized]

/-- The `k`-th record of a declaration an earlier record named makes a clone,
numbered `k`, of the node of the first record naming it. -/
theorem recordNode_clone (read : g.NodesRead set D decls k G) (inside : k < (g.sectionNodes set).length)
    (early : (g.nodeOf (g.sectionNodes set)[k]).decl ∈ (g.sectionDecls set).take k) :
    let d := decls.counterpart D (g.nodeOf (g.sectionNodes set)[k]).decl
    let first : CgNodeId := ⟨(g.sectionDecls set).idxOf (g.nodeOf (g.sectionNodes set)[k]).decl⟩
    ((G.getOrCreate d).2.node? (G.getOrCreate d).1).isSome ∧
      G.recordNode d true = G.push { decl := d, cloneOf := some first } := by
  intro d first
  have named : G.byDecl.get? d = some first := by
    have := read.index _ (List.mem_map_of_mem (List.getElem_mem inside))
    rwa [if_pos early] at this
  have before : first.val < k := List.idxOf_lt_of_mem_take early
  have firstInside : first.val < (g.sectionNodes set).length := by omega
  -- the first record of the declaration named it
  have sameDecl : (g.nodeOf (g.sectionNodes set)[first.val]).decl = (g.nodeOf (g.sectionNodes set)[k]).decl := by
    have := List.getElem_idxOf (List.idxOf_lt_length_iff.2 (List.mem_of_mem_take early))
    unfold sectionDecls at this
    rw [List.getElem_map] at this
    exact this
  have live := read.node? before firstInside
  have found : G.getOrCreate d = (first, G) := getOrCreate_of_nodeForDecl G d first named
  refine ⟨by simp [found, live], ?_⟩
  simp only [recordNode, found, if_true, createClone, live, Option.map_some, recordRead,
    CgNode.recordFields, sameDecl]
  rfl

/-- One node record keeps the reader's graph as the records so far describe
it, the counterparts of distinct declarations being distinct. -/
theorem next (distinct : ∀ t ∈ g.sectionDecls set, ∀ t' ∈ g.sectionDecls set,
      decls.counterpart D t = decls.counterpart D t' → t = t')
    (read : g.NodesRead set D decls k G) (inside : k < (g.sectionNodes set).length) :
    g.NodesRead set D decls (k + 1) (g.readRecord set D decls G ((g.sectionNodes set)[k], k)) := by
  have declsInside : k < (g.sectionDecls set).length := by simpa [sectionDecls] using inside
  have named : (g.sectionDecls set)[k]? = some (g.nodeOf (g.sectionNodes set)[k]).decl := by
    simp [sectionDecls, inside]
  have grown : (g.sectionNodes set).zipIdx.take (k + 1) =
      (g.sectionNodes set).zipIdx.take k ++ [((g.sectionNodes set)[k], k)] := by
    rw [List.take_add_one]
    simp [inside]
  have memNext : ∀ t, t ∈ (g.sectionDecls set).take (k + 1) ↔
      t ∈ (g.sectionDecls set).take k ∨ t = (g.nodeOf (g.sectionNodes set)[k]).decl := by
    intro t
    rw [List.mem_take_add_one declsInside]
    simp [sectionDecls]
  by_cases early : (g.nodeOf (g.sectionNodes set)[k]).decl ∈ (g.sectionDecls set).take k
  · -- a clone: the index stays
    obtain ⟨-, landed⟩ := read.recordNode_clone inside early
    have graph : g.readRecord set D decls G ((g.sectionNodes set)[k], k) =
        (G.push (g.recordRead set D decls (g.sectionNodes set)[k] k)).2 := by
      simp only [readRecord, early, decide_true, landed, modifyNode_push]
      simp [recordRead, early]
    rw [graph]
    refine ⟨by simp [push, read.nodes, grown], read.edges, fun t member => ?_⟩
    show G.byDecl.get? _ = _
    rw [read.index t member]
    by_cases inK : t ∈ (g.sectionDecls set).take k
    · simp [memNext, inK]
    · have other : t ≠ (g.nodeOf (g.sectionNodes set)[k]).decl := fun same => inK (same ▸ early)
      simp [memNext, inK, other]
  · -- a new primary node, indexed at its number
    have landed := read.recordNode_fresh inside early
    have graph : g.readRecord set D decls G ((g.sectionNodes set)[k], k) =
        { (G.push (g.recordRead set D decls (g.sectionNodes set)[k] k)).2 with
          byDecl := G.byDecl.insert (decls.counterpart D (g.nodeOf (g.sectionNodes set)[k]).decl) ⟨k⟩ } := by
      simp only [readRecord, early, decide_false, landed, modifyNode, push, Array.modify_push_size,
        Option.map_some]
      simp [recordRead, early]
    rw [graph]
    refine ⟨by simp [push, read.nodes, grown], read.edges, fun t member => ?_⟩
    simp only
    rw [Std.HashMap.get?_insert]
    by_cases same : t = (g.nodeOf (g.sectionNodes set)[k]).decl
    · subst same
      simp [memNext, List.idxOf_of_fresh named early]
    · have apart : (decls.counterpart D (g.nodeOf (g.sectionNodes set)[k]).decl == decls.counterpart D t) = false :=
        beq_false_of_ne fun eq => same (distinct t member _ (List.mem_of_getElem? named) eq.symm)
      rw [apart, read.index t member]
      simp [memNext, same]

/-- The record at place `k` lands in the node numbered `k`; a clone's first
node is live. -/
theorem landing (read : g.NodesRead set D decls k G) (inside : k < (g.sectionNodes set).length) :
    let d := decls.counterpart D (g.nodeOf (g.sectionNodes set)[k]).decl
    let clone := decide ((g.nodeOf (g.sectionNodes set)[k]).decl ∈ (g.sectionDecls set).take k)
    (G.recordNode d clone).1 = ⟨k⟩ ∧ (clone = true → ((G.getOrCreate d).2.node? (G.getOrCreate d).1).isSome) := by
  dsimp only
  have sized := read.size inside.le
  by_cases early : (g.nodeOf (g.sectionNodes set)[k]).decl ∈ (g.sectionDecls set).take k
  · obtain ⟨live, landed⟩ := read.recordNode_clone inside early
    simp only [early, decide_true, landed]
    exact ⟨by simp [push, sized], fun _ => live⟩
  · simp only [early, decide_false, read.recordNode_fresh inside early, Bool.false_eq_true,
      false_implies, and_true]
    simp [push, sized]

end NodesRead

/-- The reader's graph after the first `k` node records of the section. -/
theorem nodesRead_take {g : CallGraph} {set : List CgNodeId} {D : OutDeclState} {decls : UnitDecls}
    (distinct : ∀ t ∈ g.sectionDecls set, ∀ t' ∈ g.sectionDecls set,
      decls.counterpart D t = decls.counterpart D t' → t = t') :
    ∀ k ≤ (g.sectionNodes set).length,
      g.NodesRead set D decls k (((g.sectionNodes set).zipIdx.take k).foldl (g.readRecord set D decls) {})
  | 0, _ => by simpa using NodesRead.start
  | k + 1, inside => by
    have grown : (g.sectionNodes set).zipIdx.take (k + 1) =
        (g.sectionNodes set).zipIdx.take k ++ [((g.sectionNodes set)[k], k)] := by
      rw [List.take_add_one]
      simp
    rw [grown, List.foldl_append, List.foldl_cons, List.foldl_nil]
    exact (nodesRead_take distinct k (by omega)).next distinct inside

section Inlining

variable {g : CallGraph} {target : CgNodeId × Int64 → CgNodeId}

/-- Resolving inline targets changes nodes only: their number and the edges stay. -/
theorem inlineAll_keeps : ∀ (targets : List (CgNodeId × Int64)) (g : CallGraph),
    (g.inlineAll targets target).nodes.size = g.nodes.size ∧ (g.inlineAll targets target).edges = g.edges
  | [], _ => ⟨rfl, rfl⟩
  | x :: targets, g => by
    simp only [inlineAll, List.foldl_cons]
    rw [← inlineAll]
    obtain ⟨size, edges⟩ := inlineAll_keeps targets (g.modifyNode x.1 _)
    exact ⟨size.trans Array.size_modify, edges⟩

/-- Resolving inline targets leaves a node no target names. -/
theorem node?_inlineAll_of_absent {j : CgNodeId} :
    ∀ {targets : List (CgNodeId × Int64)} {g : CallGraph}, (∀ x ∈ targets, x.1 ≠ j) →
      (g.inlineAll targets target).node? j = g.node? j
  | [], _, _ => rfl
  | x :: targets, g, absent => by
    simp only [inlineAll, List.foldl_cons] at absent ⊢
    rw [← inlineAll, node?_inlineAll_of_absent (fun y member => absent y (List.mem_cons_of_mem _ member)),
      node?_modifyNode, if_neg (absent x List.mem_cons_self)]

/-- Resolving inline targets, each node named once, points the node of each
pair at the pair's target. -/
theorem node?_inlineAll_of_mem :
    ∀ {targets : List (CgNodeId × Int64)} {g : CallGraph}, (targets.map Prod.fst).Nodup →
      ∀ x ∈ targets, (g.inlineAll targets target).node? x.1 =
        (g.node? x.1).map fun n => { n with global := { n.global with inlinedTo := some (target x) } }
  | [], _, _, _, absent => absurd absent List.not_mem_nil
  | y :: targets, g, distinct, x, member => by
    obtain ⟨fresh, distinct⟩ := List.nodup_cons.1 distinct
    simp only [inlineAll, List.foldl_cons]
    rw [← inlineAll]
    rcases List.mem_cons.1 member with rfl | later
    · rw [node?_inlineAll_of_absent (j := x.1)
          (fun z inside same => fresh (same ▸ List.mem_map_of_mem (f := Prod.fst) inside)),
        node?_modifyNode, if_pos rfl]
    · rw [node?_inlineAll_of_mem distinct x later, node?_modifyNode]
      have other : y.1 ≠ x.1 := fun same => fresh (same ▸ List.mem_map_of_mem (f := Prod.fst) later)
      rw [if_neg other]

end Inlining

/-- What the reader answers for the record `x` of the section: the node
numbered by its place, and the raw inline target it names, if any. -/
def sectionAnswer (g : CallGraph) (set : List CgNodeId) (x : CgNodeId × Nat) : CgNodeId × Option Int64 :=
  let target := g.sectionTarget set (g.nodeOf x.1) (decide (set.eraseDups.length ≤ x.2))
  (⟨x.2⟩, if target == -1 then none else some target)

/-- The raw inline targets the node records of the section name, each with the
node read from its record. -/
def sectionTargets (g : CallGraph) (set : List CgNodeId) : List (CgNodeId × Int64) :=
  (g.sectionNodes set).zipIdx.filterMap fun x => (g.sectionAnswer set x).2.map ((g.sectionAnswer set x).1, ·)

/-- The node records of a section, read into an empty graph: every record is
answered with its node, numbered by its place, and the graph is the one the
records build one after another. -/
theorem nodeStream_reads {g : CallGraph} {set : List CgNodeId} {D : OutDeclState} {decls : UnitDecls}
    (distinct : ∀ t ∈ g.sectionDecls set, ∀ t' ∈ g.sectionDecls set,
      decls.counterpart D t = decls.counterpart D t' → t = t')
    (entries : ∀ t ∈ g.sectionDecls set,
      (decls.table .function)[(D.trees .function).idxOf t]? = some (decls.counterpart D t))
    (fits : ∀ t ∈ g.sectionDecls set, (D.trees .function).idxOf t < 2 ^ 64) :
    GraphReadM.Reads (GraphReadM.nodes decls) {} (g.nodeStream set D ++ [GraphTag.done])
      (((g.sectionNodes set).zipIdx.map fun x => (g.sectionAnswer set x).1).toArray, g.sectionTargets set)
      ((g.sectionNodes set).zipIdx.foldl (g.readRecord set D decls) {}) := by
  have stream : g.nodeStream set D = (g.sectionNodes set).zipIdx.flatMap fun x =>
      (g.nodeOf x.1).tag (decide (set.eraseDups.length ≤ x.2)) ::
        (g.nodeOf x.1).record (decide (set.eraseDups.length ≤ x.2))
          (decide ((g.nodeOf x.1).decl ∈ (g.sectionDecls set).take x.2)) ((D.trees .function).idxOf (g.nodeOf x.1).decl)
          (g.sectionTarget set (g.nodeOf x.1) (decide (set.eraseDups.length ≤ x.2))) := by
    simp only [nodeStream, sectionRecord, sectionDecls, List.map_take]
    rfl
  rw [stream]
  refine GraphReadM.nodes_reads _ _ _ (g.sectionAnswer set) (g.readRecord set D decls) {} ?_
  intro done x rest position
  obtain ⟨inside, rfl, front⟩ := List.zipIdx_split position
  have read := nodesRead_take distinct done.length inside.le
  rw [← front] at read
  obtain ⟨landed, live⟩ := read.landing inside
  have named : (g.nodeOf (g.sectionNodes set)[done.length]).decl ∈ g.sectionDecls set :=
    List.mem_map_of_mem (List.getElem_mem inside)
  refine ⟨CgNode.tag_ne_done _ _, ?_⟩
  have reads := GraphReadM.node_reads (done.foldl (g.readRecord set D decls) {})
    (g.nodeOf (g.sectionNodes set)[done.length]) (decide (set.eraseDups.length ≤ done.length)) _
    (g.sectionTarget set (g.nodeOf (g.sectionNodes set)[done.length]) (decide (set.eraseDups.length ≤ done.length)))
    (entries _ named) (fits _ named) live
  exact reads.congr_value (by rw [landed]; rfl)

/-- The node a fresh reader makes of the section's node `id`: the one numbered
by its place among the section's nodes. -/
def readId (g : CallGraph) (set : List CgNodeId) (id : CgNodeId) : CgNodeId :=
  ⟨(g.sectionNodes set).idxOf id⟩

/-- Adding edges one after another appends them. -/
theorem foldl_addEdge (f : CgEdge → CgEdge) :
    ∀ (es : List CgEdge) (G : CallGraph),
      es.foldl (fun G e => G.addEdge (f e)) G = { G with edges := G.edges ++ (es.map f).toArray }
  | [], G => by simp
  | e :: es, G => by
    rw [List.foldl_cons, foldl_addEdge f es]
    simp [addEdge]

end CallGraph

/-- An edge with both ends renumbered by `f`. -/
def CgEdge.mapEnds (f : CgNodeId → CgNodeId) (e : CgEdge) : CgEdge :=
  { e with caller := f e.caller, callee := f e.callee }

namespace SymbolTable

variable (d : NodeId)

@[simp] theorem resolution?_empty : ({} : SymbolTable).resolution? d = none := by
  simp [resolution?]

@[simp] theorem prevailing_empty : ({} : SymbolTable).prevailing d = d := by
  simp [prevailing]

@[simp] theorem isPrevailing_empty : ({} : SymbolTable).isPrevailing d = true := by
  simp [isPrevailing]

end SymbolTable

namespace CallGraph

/-- The edge records of a section, read with no symbol table into a graph whose
nodes are numbered as the section's: each call of a member is added, its ends
renumbered, in the order written. -/
theorem edgeStream_reads {g : CallGraph} {set : List CgNodeId} {ids : Array CgNodeId}
    (numbered : ∀ i < (g.sectionNodes set).length, ids[i]? = some ⟨i⟩)
    (small : (g.sectionNodes set).length < 2 ^ 63)
    (ends : ∀ id ∈ set, ∀ e ∈ g.callees id, e.callee ∈ g.sectionNodes set)
    {G : CallGraph} (live : ∀ i < (g.sectionNodes set).length, ∃ n, G.node? ⟨i⟩ = some n) :
    GraphReadM.Reads (GraphReadM.edges ids {}) G (g.edgeStream set ++ [GraphTag.done]) ()
      ((set.eraseDups.flatMap g.callees).foldl (fun G (e : CgEdge) => G.addEdge (e.mapEnds (g.readId set))) G) := by
  have stream : g.edgeStream set = (set.eraseDups.flatMap g.callees).flatMap fun e =>
      GraphTag.edge :: e.record ((g.sectionNodes set).idxOf e.caller) ((g.sectionNodes set).idxOf e.callee) := by
    rw [edgeStream, List.flatMap_assoc]
  rw [stream]
  refine GraphReadM.edges_reads _ _ (fun _ => true) (fun G (e : CgEdge) => G.addEdge (e.mapEnds (g.readId set))) G ?_
  intro done e rest position
  have listed : e ∈ set.eraseDups.flatMap g.callees := position ▸ by simp
  obtain ⟨id, member, called⟩ := List.mem_flatMap.1 listed
  -- the caller is the member, and both ends are nodes of the section
  have caller : e.caller = id := by
    simpa [callees] using (List.mem_filter.1 called).2
  have callerInside : (g.sectionNodes set).idxOf e.caller < (g.sectionNodes set).length :=
    List.idxOf_lt_length_iff.2 (caller ▸ List.mem_append_left _ member)
  have calleeInside : (g.sectionNodes set).idxOf e.callee < (g.sectionNodes set).length :=
    List.idxOf_lt_length_iff.2 (ends id (List.mem_eraseDups.1 member) e called)
  -- adding edges keeps the nodes
  have kept : ∀ j, (done.foldl (fun G (e : CgEdge) => G.addEdge (e.mapEnds (g.readId set))) G).node? j = G.node? j := by
    intro j
    rw [foldl_addEdge]
    rfl
  obtain ⟨m, callerLive⟩ := live _ callerInside
  obtain ⟨m', calleeLive⟩ := live _ calleeInside
  exact GraphReadM.edge_reads _ e (numbered _ callerInside) (numbered _ calleeInside) (by omega) (by omega)
    ((kept _).trans callerLive) ((kept _).trans calleeLive) (SymbolTable.resolution?_empty _)
    (SymbolTable.isPrevailing_empty _) (SymbolTable.prevailing_empty _)

end CallGraph

end IrStream
