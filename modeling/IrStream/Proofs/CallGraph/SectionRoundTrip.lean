import Mathlib
import IrStream.Proofs.CallGraph.SectionReplay
import IrStream.Proofs.Codec.DeclsAlignment

/-!
# Call-graph section round trip

A section written for a partition and read back by a fresh reader with no
symbol table gives every node of the section a node of its own, numbered by its
place, and the calls of the members between them. The nodes come back field for
field (`CgNode.readBack`) when the section is readable
(`CallGraph.SectionReadable`): the reader re-derives availability from the tag
and the local flag, drops the summary of a node without a body, and makes the
later nodes of a declaration clones of its first.

* `CallGraph.cloneOf_read`: the clone link re-derived from the order of the
  declarations is the node's own, renumbered;
* `CallGraph.node?_inlineAll_sectionTargets`: inline targets, written as places
  that may point forward, resolve to the node read for the target;
* `CallGraph.section_round_trip`: the whole section.
-/

namespace IrStream

namespace CgNode

/-- A section's record of `n` read back into a node of declaration `decl`, node
numbers renamed by `f`: a boundary node comes back bodiless and external,
inlined nowhere; a member keeps its fields. -/
def readBack (n : CgNode) (boundary : Bool) (decl : NodeId) (f : CgNodeId → CgNodeId) : CgNode :=
  { decl
    availability := if boundary then .notAvailable else n.availability
    flags := n.sectionFlags boundary
    count := n.count
    summary := if boundary then {} else n.summary
    global := { n.global with inlinedTo := if boundary then none else n.global.inlinedTo.map f }
    cloneOf := n.cloneOf.map f }

variable {n : CgNode} {boundary : Bool}

/-- The tag and the flags give back the availability, when a member says it is
local exactly in its flags. -/
theorem readAvailability_tag
    (localFlag : boundary = false → n.availability = .available ∨ n.availability = .programLocal →
      (n.availability = .programLocal ↔ n.flags.isLocal = true)) :
    readAvailability (n.tag boundary) (n.sectionFlags boundary) =
      if boundary then .notAvailable else n.availability := by
  cases boundary with
  | true => rfl
  | false =>
    have stated := localFlag rfl
    simp only [readAvailability, tag, sectionFlags, Bool.false_eq_true, if_false]
    cases avail : n.availability with
    | notAvailable => rfl
    | overwritable => rfl
    | available =>
      have : n.flags.isLocal = false := by simpa [avail] using stated
      simp [this, GraphTag.available, GraphTag.unavailable, GraphTag.overwritable]
    | programLocal =>
      have : n.flags.isLocal = true := by simpa [avail] using stated
      simp [this, GraphTag.available, GraphTag.unavailable, GraphTag.overwritable]

/-- The summary read is the member's, whose summary is the default when it has
no body. -/
theorem summary_tag (bodiless : boundary = false → n.availability = .notAvailable → n.summary = {}) :
    (if n.tag boundary != GraphTag.unavailable then n.summary else {}) = if boundary then {} else n.summary := by
  cases boundary with
  | true => rfl
  | false =>
    simp only [tag, Bool.false_eq_true, if_false]
    cases avail : n.availability with
    | notAvailable => simpa [avail] using (bodiless rfl avail).symm
    | overwritable => simp [GraphTag.overwritable, GraphTag.unavailable]
    | available | programLocal => simp [GraphTag.available, GraphTag.unavailable]

end CgNode

namespace CallGraph

/-- The first of the section's nodes with the declaration of `id`. -/
def firstOfDecl (g : CallGraph) (set : List CgNodeId) (id : CgNodeId) : Option CgNodeId :=
  (g.sectionNodes set).find? fun x => (g.nodeOf x).decl == (g.nodeOf id).decl

/-- What a section must hold to be read back field for field: a member that
has a body is local exactly when its flags say so, a member without one has the
default summary, and of the nodes of one declaration the first is not a clone
and every later one is a clone of the first. -/
structure SectionReadable (g : CallGraph) (set : List CgNodeId) : Prop where
  localFlag : ∀ id ∈ set, (g.nodeOf id).availability = .available ∨ (g.nodeOf id).availability = .programLocal →
    ((g.nodeOf id).availability = .programLocal ↔ (g.nodeOf id).flags.isLocal = true)
  bodiless : ∀ id ∈ set, (g.nodeOf id).availability = .notAvailable → (g.nodeOf id).summary = {}
  clones : ∀ id ∈ g.sectionNodes set, ∀ first, g.firstOfDecl set id = some first →
    (g.nodeOf id).cloneOf = if first = id then none else some first

variable {g : CallGraph} {set : List CgNodeId}

/-- The first node of a declaration is the one at the declaration's first place. -/
theorem firstOfDecl_getElem {k : Nat} (inside : k < (g.sectionNodes set).length) :
    ∃ j, ∃ before : j ≤ k, g.firstOfDecl set (g.sectionNodes set)[k] = some (g.sectionNodes set)[j] ∧
      j = (g.sectionDecls set).idxOf (g.nodeOf (g.sectionNodes set)[k]).decl := by
  have named : (g.sectionDecls set)[k]? = some (g.nodeOf (g.sectionNodes set)[k]).decl := by
    simp [sectionDecls, inside]
  have early : (g.sectionDecls set).idxOf (g.nodeOf (g.sectionNodes set)[k]).decl ≤ k :=
    List.idxOf_le_of_getElem? named
  refine ⟨_, early, ?_, rfl⟩
  rw [firstOfDecl, List.find?_beq_eq_getElem?_idxOf (fun x => (g.nodeOf x).decl)]
  unfold sectionDecls at early
  exact List.getElem?_eq_getElem (by omega)

/-- The clone link a record reads is the node's own, renumbered, when the
section is readable. -/
theorem cloneOf_read (readable : g.SectionReadable set) {k : Nat} (inside : k < (g.sectionNodes set).length) :
    (if (g.nodeOf (g.sectionNodes set)[k]).decl ∈ (g.sectionDecls set).take k then
        some (⟨(g.sectionDecls set).idxOf (g.nodeOf (g.sectionNodes set)[k]).decl⟩ : CgNodeId) else none) =
      (g.nodeOf (g.sectionNodes set)[k]).cloneOf.map (g.readId set) := by
  obtain ⟨j, before, first, place⟩ := firstOfDecl_getElem inside
  have distinct := g.sectionNodes_nodup set
  rw [readable.clones _ (List.getElem_mem inside) _ first]
  by_cases early : (g.nodeOf (g.sectionNodes set)[k]).decl ∈ (g.sectionDecls set).take k
  · have sooner : j < k := place ▸ List.idxOf_lt_of_mem_take early
    have other : (g.sectionNodes set)[j] ≠ (g.sectionNodes set)[k] := fun same =>
      absurd ((List.Nodup.getElem_inj_iff distinct).1 same) (by omega)
    simp [early, other, readId, distinct.idxOf_getElem, ← place]
  · have named : (g.sectionDecls set)[k]? = some (g.nodeOf (g.sectionNodes set)[k]).decl := by
      simp [sectionDecls, inside]
    have here : j = k := place.trans (List.idxOf_of_fresh named early)
    subst here
    simp [early]

section Targets

variable {g : CallGraph} {set : List CgNodeId}

/-- The raw inline target the record at place `k` names: the place of the
target, for a member inlined somewhere, and none otherwise. -/
theorem sectionAnswer_target (small : (g.sectionNodes set).length < 2 ^ 63)
    (inlined : ∀ id ∈ set, ∀ t, (g.nodeOf id).global.inlinedTo = some t → t ∈ g.sectionNodes set)
    {k : Nat} (inside : k < (g.sectionNodes set).length) :
    (g.sectionAnswer set ((g.sectionNodes set)[k], k)).2 =
      if (g.sectionNodes set)[k] ∈ set then
        (g.nodeOf (g.sectionNodes set)[k]).global.inlinedTo.map fun t => Int64.ofNat ((g.sectionNodes set).idxOf t)
      else none := by
  have place := boundary_place inside
  simp only [sectionAnswer, sectionTarget, place]
  by_cases member : (g.sectionNodes set)[k] ∈ set
  · cases inl : (g.nodeOf (g.sectionNodes set)[k]).global.inlinedTo with
    | none => simp [member]
    | some t =>
      have listed := inlined _ member t inl
      have numbered := (GraphReadM.sectionNumber (lt_trans (List.idxOf_lt_length_iff.2 listed) small)).2.2
      simp [member, numbered]
  · cases (g.nodeOf (g.sectionNodes set)[k]).global.inlinedTo <;> simp [member]

theorem mem_sectionTargets {x : CgNodeId × Int64} (listed : x ∈ g.sectionTargets set) :
    ∃ k, ∃ inside : k < (g.sectionNodes set).length, x.1 = ⟨k⟩ ∧
      (g.sectionAnswer set ((g.sectionNodes set)[k], k)).2 = some x.2 := by
  obtain ⟨y, member, found⟩ := List.mem_filterMap.1 listed
  obtain ⟨inside, at_y⟩ := List.getElem?_eq_some_iff.1 (List.mem_zipIdx_iff_getElem?.1 member)
  obtain ⟨raw, answer, rfl⟩ := Option.map_eq_some_iff.1 found
  refine ⟨y.2, inside, rfl, ?_⟩
  rw [at_y]
  exact answer

theorem mem_sectionTargets_of {k : Nat} (inside : k < (g.sectionNodes set).length) {raw : Int64}
    (answer : (g.sectionAnswer set ((g.sectionNodes set)[k], k)).2 = some raw) :
    (⟨k⟩, raw) ∈ g.sectionTargets set :=
  List.mem_filterMap.2 ⟨((g.sectionNodes set)[k], k), List.mem_zipIdx_iff_getElem?.2 (by simp),
    by simp only [answer, Option.map_some]; rfl⟩

/-- Each node read names at most one inline target. -/
theorem sectionTargets_nodup : ((g.sectionTargets set).map Prod.fst).Nodup := by
  have ordered : (g.sectionNodes set).zipIdx.Pairwise fun a b => a.2 < b.2 := by
    have := List.pairwise_lt_range' (s := 0) (n := (g.sectionNodes set).length)
    rw [← List.zipIdx_map_snd, List.pairwise_map] at this
    exact this
  rw [sectionTargets, List.map_filterMap]
  refine ordered.filterMap _ fun a a' before b found b' found' same => ?_
  simp only [Option.map_map, Option.map_eq_some_iff, Function.comp_apply, sectionAnswer] at found found'
  obtain ⟨_, _, rfl⟩ := found
  obtain ⟨_, _, rfl⟩ := found'
  rw [CgNodeId.mk.injEq] at same
  omega

/-- Resolving the section's inline targets points the node read for a member
at the node read for its target, and leaves every other node. -/
theorem node?_inlineAll_sectionTargets (small : (g.sectionNodes set).length < 2 ^ 63)
    (inlined : ∀ id ∈ set, ∀ t, (g.nodeOf id).global.inlinedTo = some t → t ∈ g.sectionNodes set)
    {G : CallGraph} {k : Nat} (inside : k < (g.sectionNodes set).length) {n : CgNode}
    (found : G.node? ⟨k⟩ = some n) (plain : n.global.inlinedTo = none) :
    (G.inlineAll (g.sectionTargets set) fun x => ⟨x.2.toInt.toNat⟩).node? ⟨k⟩ =
      some { n with global := { n.global with inlinedTo := if (g.sectionNodes set)[k] ∈ set then
        (g.nodeOf (g.sectionNodes set)[k]).global.inlinedTo.map (g.readId set) else none } } := by
  have answer := sectionAnswer_target small inlined inside
  cases raw : (g.sectionAnswer set ((g.sectionNodes set)[k], k)).2 with
  | none =>
    -- no target names the node, which is a member inlined nowhere or a boundary node
    have absent : ∀ x ∈ g.sectionTargets set, x.1 ≠ ⟨k⟩ := by
      intro x listed same
      obtain ⟨j, _, first, named⟩ := mem_sectionTargets listed
      rw [same, CgNodeId.mk.injEq] at first
      subst first
      rw [raw] at named
      cases named
    have unresolved : (if (g.sectionNodes set)[k] ∈ set then
        (g.nodeOf (g.sectionNodes set)[k]).global.inlinedTo.map (g.readId set) else none) = none := by
      rw [raw] at answer
      split_ifs at answer ⊢
      · simpa using answer.symm
      · rfl
    rw [node?_inlineAll_of_absent absent, found, unresolved, ← plain]
  | some r =>
    have listed := mem_sectionTargets_of inside raw
    rw [node?_inlineAll_of_mem sectionTargets_nodup _ listed, found, Option.map_some]
    rw [raw] at answer
    -- a raw target is named only by a member inlined somewhere
    split_ifs at answer with member
    obtain ⟨t, inl, rfl⟩ := Option.map_eq_some_iff.1 answer.symm
    have listedT := inlined _ member t inl
    have numbered := (GraphReadM.sectionNumber (lt_trans (List.idxOf_lt_length_iff.2 listedT) small)).2.1
    simp only [if_pos member, inl, Option.map_some, numbered, readId]

/-- A node record read back, its inline target resolved, is the node read back
field for field, when the section is readable. -/
theorem recordRead_readBack {D : OutDeclState} {decls : UnitDecls} (readable : g.SectionReadable set) {k : Nat}
    (inside : k < (g.sectionNodes set).length) :
    { g.recordRead set D decls (g.sectionNodes set)[k] k with
        global := { (g.recordRead set D decls (g.sectionNodes set)[k] k).global with
          inlinedTo := if (g.sectionNodes set)[k] ∈ set then
            (g.nodeOf (g.sectionNodes set)[k]).global.inlinedTo.map (g.readId set) else none } } =
      (g.nodeOf (g.sectionNodes set)[k]).readBack (decide ((g.sectionNodes set)[k] ∉ set))
        (decls.counterpart D (g.nodeOf (g.sectionNodes set)[k]).decl) (g.readId set) := by
  have availability := @CgNode.readAvailability_tag (g.nodeOf (g.sectionNodes set)[k])
    (decide ((g.sectionNodes set)[k] ∉ set)) (fun inner => readable.localFlag _ (by simpa using inner))
  have summary := @CgNode.summary_tag (g.nodeOf (g.sectionNodes set)[k])
    (decide ((g.sectionNodes set)[k] ∉ set)) (fun inner => readable.bodiless _ (by simpa using inner))
  simp only [recordRead, CgNode.recordFields, CgNode.readBack, boundary_place inside, availability, summary,
    ← cloneOf_read readable inside]
  by_cases member : (g.sectionNodes set)[k] ∈ set <;> simp [member]

/-- The node read for the node at place `k` is numbered `k`. -/
theorem readId_getElem {k : Nat} (inside : k < (g.sectionNodes set).length) :
    g.readId set (g.sectionNodes set)[k] = ⟨k⟩ := by
  rw [readId, (g.sectionNodes_nodup set).idxOf_getElem]

/-- The nodes read are numbered from zero in section order. -/
theorem map_readId : (g.sectionNodes set).map (g.readId set) = (List.range (g.sectionNodes set).length).map CgNodeId.mk := by
  refine List.ext_getElem (by simp) fun k inside _ => ?_
  simp only [List.getElem_map, List.getElem_range]
  exact readId_getElem (by simpa using inside)

/-- The records answer the nodes read, in section order. -/
theorem sectionAnswers : (g.sectionNodes set).zipIdx.map (fun x => (g.sectionAnswer set x).1) =
    (g.sectionNodes set).map (g.readId set) := by
  rw [map_readId, List.range_eq_range', ← List.zipIdx_map_snd, List.map_map]
  rfl

/-- The nodes read, looked up by number. -/
theorem readIds_getElem? {i : Nat} (inside : i < (g.sectionNodes set).length) :
    ((g.sectionNodes set).map (g.readId set)).toArray[i]? = some ⟨i⟩ := by
  simp [inside, readId_getElem inside]

/-- Each raw inline target of the section names, among the nodes read, the
node read for the target. -/
theorem resolveTargets_section (small : (g.sectionNodes set).length < 2 ^ 63)
    (inlined : ∀ id ∈ set, ∀ t, (g.nodeOf id).global.inlinedTo = some t → t ∈ g.sectionNodes set)
    (G : CallGraph) :
    GraphReadM.Reads (GraphReadM.resolveTargets ((g.sectionNodes set).map (g.readId set)).toArray
        (g.sectionTargets set)) G [] () (G.inlineAll (g.sectionTargets set) fun x => ⟨x.2.toInt.toNat⟩) := by
  refine GraphReadM.resolveTargets_reads _ _ _ fun x listed => ?_
  obtain ⟨k, inside, -, answer⟩ := mem_sectionTargets listed
  rw [sectionAnswer_target small inlined inside] at answer
  split_ifs at answer with member
  obtain ⟨t, inl, same⟩ := Option.map_eq_some_iff.1 answer
  have placed := List.idxOf_lt_length_iff.2 (inlined _ member t inl)
  refine ⟨_, same.symm, by omega, ?_⟩
  rw [← same, (GraphReadM.sectionNumber (by omega)).2.1]
  exact readIds_getElem? placed

/-- A graph whose first `N` nodes are all live and that has no other node
lists them as its node ids. -/
theorem nodeIds_of_live {G : CallGraph} {N : Nat} (size : G.nodes.size = N) (live : ∀ i < N, (G.node? ⟨i⟩).isSome) :
    G.nodeIds = (List.range N).map CgNodeId.mk := by
  rw [nodeIds, size, ← List.filterMap_eq_map]
  refine List.filterMap_congr fun i member => ?_
  obtain ⟨n, found⟩ := Option.isSome_iff_exists.1 (live i (List.mem_range.1 member))
  simp only [node?] at found
  simp [found]

end Targets

/-- Call-graph section round trip. When the section for the partition `set` of
`P` is written, it can be read with no symbol table into a program whose graph
is empty. The reader's function table is assumed to match the writer's entry
for entry under `τ`. Every node of the section then gets a node of its own,
numbered by its place: first the members, once each, then their callees outside
`set`. The graph read has exactly those nodes. Each is a node of the reader's
counterpart of the node's declaration. Because the section is readable, each
reads back field for field. A member keeps its availability, flags, count,
summary and inline data, with its inline target and clone link renumbered the
same way. A boundary node comes back bodiless, external and inlined nowhere.
The edges read are the calls of the members, in order, with their ends
renumbered. -/
theorem section_round_trip {P : Program} {D : OutDeclState} {set : List CgNodeId}
    (dense : D.Dense) (readable : P.callgraph.SectionReadable set) :
    match writeSection P D set with
    | .error _ => True
    | .ok (bytes, D') => ∀ (decls : UnitDecls) (τ : List NodeId),
      List.Forall₂ (fun r t => τ[r.val]? = some t) (decls.table .function).toList (D'.trees .function) →
      (D'.trees .function).length < 2 ^ 64 → ∀ q : Program, q.callgraph = {} →
      ∃ G, readSection q decls bytes {} =
          (.ok ((P.callgraph.sectionNodes set).map fun id => some (P.callgraph.readId set id)),
            { q with callgraph := G }) ∧
        G.nodeIds = (P.callgraph.sectionNodes set).map (P.callgraph.readId set) ∧
        (∀ id ∈ P.callgraph.sectionNodes set,
          τ[(decls.counterpart D' (P.callgraph.nodeOf id).decl).val]? = some (P.callgraph.nodeOf id).decl ∧
          G.node? (P.callgraph.readId set id) = some ((P.callgraph.nodeOf id).readBack (decide (id ∉ set))
            (decls.counterpart D' (P.callgraph.nodeOf id).decl) (P.callgraph.readId set))) ∧
        G.edges.toList = (set.eraseDups.flatMap P.callgraph.callees).map (CgEdge.mapEnds (P.callgraph.readId set)) := by
  split
  · trivial
  next bytes D' written =>
  intro decls τ tables fits q fresh
  obtain ⟨main, framed, stream, grows, named, inlined, called, -⟩ := writeSection_stream dense written
  obtain ⟨sec, parsed, -, cursor, mainSmall, -⟩ := SectionData.parse_write_main rfl framed
  set g := P.callgraph
  -- every node record takes a byte of the main stream, which is below 4 GiB
  have small : (g.sectionNodes set).length < 2 ^ 63 := by
    have size : main.size = (g.sectionStream set D').length := by
      rw [← stream, ByteArray.size, Array.length_toList]
    have := @length_le_nodeStream g set D'
    simp only [sectionStream, List.length_append] at size
    omega
  -- the declarations of the section are in the writer's table, and the reader has their counterparts
  have filed : ∀ t ∈ g.sectionDecls set, t ∈ D'.trees .function := by
    intro t member
    obtain ⟨id, listed, rfl⟩ := List.mem_map.1 member
    obtain ⟨i, files⟩ := (named id listed).2
    exact List.mem_of_getElem? (grows.dense.files_iff.1 files)
  have distinct : ∀ t ∈ g.sectionDecls set, ∀ t' ∈ g.sectionDecls set,
      decls.counterpart D' t = decls.counterpart D' t' → t = t' :=
    fun t member t' member' same => UnitDecls.counterpart_inj tables (filed t member) (filed t' member') same
  have records := @nodeStream_reads g set D' decls distinct
    (fun t member => (UnitDecls.counterpart_entry tables (filed t member)).1)
    (fun t member => lt_trans (List.idxOf_lt_length_iff.2 (filed t member)) fits)
  rw [sectionAnswers] at records
  have read₁ := nodesRead_take distinct (g.sectionNodes set).length le_rfl
  rw [List.take_of_length_le (by simp)] at read₁
  -- every node read reads back, its target resolved
  have readBack : ∀ k (inside : k < (g.sectionNodes set).length),
      (((g.sectionNodes set).zipIdx.foldl (g.readRecord set D' decls) {}).inlineAll (g.sectionTargets set)
        fun x => ⟨x.2.toInt.toNat⟩).node? ⟨k⟩ =
      some ((g.nodeOf (g.sectionNodes set)[k]).readBack (decide ((g.sectionNodes set)[k] ∉ set))
        (decls.counterpart D' (g.nodeOf (g.sectionNodes set)[k]).decl) (g.readId set)) := by
    intro k inside
    rw [node?_inlineAll_sectionTargets small inlined inside (read₁.node? inside inside)
      (by simp [recordRead, CgNode.recordFields]), recordRead_readBack readable inside]
  have calls := edgeStream_reads (fun i inside => readIds_getElem? inside) small called
    fun i inside => ⟨_, readBack i inside⟩
  rw [foldl_addEdge] at calls
  have ahead : ({ name := "main", data := main } : Cursor).ahead =
      (g.nodeStream set D' ++ [GraphTag.done]) ++ (g.edgeStream set ++ [GraphTag.done]) := by
    simp [Cursor.ahead, stream, sectionStream]
  have whole := @CallGraph.readSection_of_phases q decls bytes {} _ (by rw [parsed]; exact cursor) _ _
    ahead _ _ _ _ _ (by rw [fresh]; exact records) (resolveTargets_section small inlined _) calls
    (fun id member => by
      obtain ⟨x, listed, rfl⟩ := List.mem_map.1 (Array.mem_toList_iff.2 member)
      have inside := List.idxOf_lt_length_iff.2 listed
      exact ⟨_, readBack _ inside, SymbolTable.isPrevailing_empty _⟩)
  rw [List.toList_toArray, List.map_map] at whole
  -- resolving the targets keeps the number of nodes and the edges
  have kept := @inlineAll_keeps (fun x => ⟨x.2.toInt.toNat⟩) (g.sectionTargets set)
    ((g.sectionNodes set).zipIdx.foldl (g.readRecord set D' decls) {})
  refine ⟨_, whole, ?_, fun id listed => ?_, ?_⟩
  · -- adding edges keeps the nodes, one per record
    refine (nodeIds_of_live ?_ fun i inside => Option.isSome_iff_exists.2 ⟨_, readBack i inside⟩).trans
      map_readId.symm
    exact kept.1.trans (read₁.size le_rfl)
  · have inside := List.idxOf_lt_length_iff.2 listed
    have decl : (g.nodeOf id).decl ∈ g.sectionDecls set := by
      unfold sectionDecls
      exact List.mem_map_of_mem listed
    refine ⟨(UnitDecls.counterpart_entry tables (filed _ decl)).2, ?_⟩
    have found := readBack _ inside
    rw [List.getElem_idxOf inside] at found
    exact found
  · show (_ ++ _ : Array CgEdge).toList = _
    rw [Array.toList_append, kept.2, read₁.edges]
    simp

/-- A program whose graph calls out of a cloned function: node 0 has a body
and calls node 2. Node 1 is a clone of node 0, for the same declaration. Node 2,
of the other declaration, has no body. The two declarations follow the common
nodes. -/
def clonedCaller : Program where
  arena := { CommonNode.arena with
    nodes := (CommonNode.arena.nodes.push { code := .functionDecl, data := .decl {} }).push
      { code := .functionDecl, data := .decl {} } }
  callgraph :=
    { nodes := #[some { decl := ⟨22⟩, availability := .available },
        some { decl := ⟨22⟩, availability := .available, cloneOf := some ⟨0⟩ },
        some { decl := ⟨23⟩ }]
      edges := #[{ caller := ⟨0⟩, callee := ⟨2⟩, stmtUid := 0 }] }

/-- The partition of the function and its clone: its section is the two members
and the callee outside them, and it is readable. -/
theorem clonedCaller_sectionReadable :
    clonedCaller.callgraph.sectionNodes [⟨0⟩, ⟨1⟩] = [⟨0⟩, ⟨1⟩, ⟨2⟩] ∧
      clonedCaller.callgraph.SectionReadable [⟨0⟩, ⟨1⟩] := by
  have clones : ∀ id ∈ clonedCaller.callgraph.sectionNodes [⟨0⟩, ⟨1⟩],
      ∀ first ∈ clonedCaller.callgraph.firstOfDecl [⟨0⟩, ⟨1⟩] id,
        (clonedCaller.callgraph.nodeOf id).cloneOf = if first = id then none else some first := by
    decide
  exact ⟨by decide, ⟨by decide, by decide, fun id member first found => clones id member first found⟩⟩

/-- The section of the function and its clone, read back: two members, the
second a clone of the first, a boundary callee and one call between them. -/
theorem clonedCaller_section_round_trip :
    clonedCaller.callgraph.SectionReadable [⟨0⟩, ⟨1⟩] ∧
    match writeSection clonedCaller {} [⟨0⟩, ⟨1⟩] with
    | .error _ => True
    | .ok (bytes, D') => ∀ (decls : UnitDecls) (τ : List NodeId),
      List.Forall₂ (fun r t => τ[r.val]? = some t) (decls.table .function).toList (D'.trees .function) →
      (D'.trees .function).length < 2 ^ 64 → ∀ q : Program, q.callgraph = {} →
      ∃ G, readSection q decls bytes {} =
          (.ok ((clonedCaller.callgraph.sectionNodes [⟨0⟩, ⟨1⟩]).map
              fun id => some (clonedCaller.callgraph.readId [⟨0⟩, ⟨1⟩] id)),
            { q with callgraph := G }) ∧
        G.nodeIds = (clonedCaller.callgraph.sectionNodes [⟨0⟩, ⟨1⟩]).map
          (clonedCaller.callgraph.readId [⟨0⟩, ⟨1⟩]) ∧
        (∀ id ∈ clonedCaller.callgraph.sectionNodes [⟨0⟩, ⟨1⟩],
          τ[(decls.counterpart D' (clonedCaller.callgraph.nodeOf id).decl).val]? =
            some (clonedCaller.callgraph.nodeOf id).decl ∧
          G.node? (clonedCaller.callgraph.readId [⟨0⟩, ⟨1⟩] id) =
            some ((clonedCaller.callgraph.nodeOf id).readBack (decide (id ∉ [⟨0⟩, ⟨1⟩]))
              (decls.counterpart D' (clonedCaller.callgraph.nodeOf id).decl)
              (clonedCaller.callgraph.readId [⟨0⟩, ⟨1⟩]))) ∧
        G.edges.toList = ([⟨0⟩, ⟨1⟩].eraseDups.flatMap clonedCaller.callgraph.callees).map
          (CgEdge.mapEnds (clonedCaller.callgraph.readId [⟨0⟩, ⟨1⟩])) :=
  ⟨clonedCaller_sectionReadable.2,
    section_round_trip OutDeclState.dense_empty clonedCaller_sectionReadable.2⟩

end CallGraph

end IrStream
