import Mathlib
import IrStream.Proofs.CallGraph.Records
import IrStream.Proofs.CallGraph.Encoder
import IrStream.Proofs.Section.Framing

/-!
# The stream of a call-graph section

What `writeSection` puts in a section, as a function of the call graph, the
partition and the tables it leaves. The section's nodes are numbered as the
encoder numbers them (`CallGraph.sectionNodes`); each is written as one record,
tag first (`CallGraph.sectionRecord`): a node past the members is a boundary
node, a node whose declaration an earlier record named is a clone, the
declaration is named by its place in the function table, and an inline target
by its place among the section's nodes. The edge records of the members' calls
follow, and each of the two lists ends with an end tag
(`CallGraph.sectionStream`).

* `CallGraph.NodesWritten`: what the node loop keeps after each record;
* `CallGraph.writeSection_stream`: a section that is written frames exactly
  `sectionStream`, with every declaration of its nodes filed, every member's
  inline target and every callee among its nodes, and every boundary node
  inlined nowhere.
-/

namespace IrStream

/-- A loop in a state monad over `Except` whose every round that succeeds goes
on and keeps `I` of the elements done: when the loop succeeds, `I` holds of
them all. -/
theorem forIn_stateT_inv {α σ ε : Type} {f : α → PUnit → StateT σ (Except ε) (ForInStep PUnit)}
    (xs : List α) (I : List α → σ → Prop)
    (round : ∀ done x rest s r, done ++ x :: rest = xs → I done s →
      (f x PUnit.unit).run s = .ok r → r.1 = .yield PUnit.unit ∧ I (done ++ [x]) r.2)
    {s s' : σ} (start : I [] s) (run : (forIn xs PUnit.unit f).run s = .ok (PUnit.unit, s')) :
    I xs s' := by
  -- the rounds left, after those of `done`
  suffices ∀ rest done s, done ++ rest = xs → I done s →
      (forIn rest PUnit.unit f).run s = .ok (PUnit.unit, s') → I xs s' from
    this xs [] s rfl start run
  intro rest
  induction rest with
  | nil =>
    intro done s whole holds run
    cases run
    simpa [← whole] using holds
  | cons x rest ih =>
    intro done s whole holds run
    rw [List.forIn_cons] at run
    simp only [StateT.run, bind, StateT.bind, Except.bind] at run
    cases first : f x PUnit.unit s with
    | error e => rw [first] at run; cases run
    | ok r =>
      obtain ⟨yielded, kept⟩ := round done x rest s r whole holds first
      obtain ⟨step, s₁⟩ := r
      simp only at yielded kept
      subst yielded
      rw [first] at run
      exact ih (done ++ [x]) s₁ (by simpa using whole) kept run

/-- A bind in a state monad over `Except` that succeeds ran its first step to
success. -/
theorem StateT.exists_of_run_bind_ok {ε σ α β : Type} {x : StateT σ (Except ε) α}
    {f : α → StateT σ (Except ε) β} {s : σ} {r : β × σ} (run : (x >>= f).run s = .ok r) :
    ∃ a s₁, x.run s = .ok (a, s₁) ∧ (f a).run s₁ = .ok r := by
  simp only [StateT.run, bind, StateT.bind, Except.bind] at run ⊢
  cases first : x s with
  | error e => rw [first] at run; cases run
  | ok p => rw [first] at run; exact ⟨p.1, p.2, rfl, run⟩

namespace OutDeclState

variable {D : OutDeclState} {c c' : DeclCategory} {n m : NodeId} {i : Nat}

theorem Dense.nodup_trees (dense : D.Dense) : (D.trees c).Nodup := by
  refine List.nodup_iff_injective_get.2 fun a b same => Fin.ext ?_
  have atA := dense.files_iff.2 (List.getElem?_eq_getElem a.2)
  have atB := dense.files_iff.2 (List.getElem?_eq_getElem b.2)
  simp only [List.get_eq_getElem] at same
  rw [same, Files] at atA
  rw [Files] at atB
  exact Option.some.inj (atA.symm.trans atB)

/-- A filed node stands in its table at its number, the first place it does. -/
theorem Dense.idxOf_of_files (dense : D.Dense) (files : D.Files c n i) : (D.trees c).idxOf n = i := by
  have found := dense.files_iff.1 files
  have inside := (List.getElem?_eq_some_iff.1 found).1
  rw [← (List.getElem?_eq_some_iff.1 found).2]
  exact dense.nodup_trees.idxOf_getElem i inside

/-- Encoding answers the place of the node in the table it leaves. -/
theorem Dense.encode_fst (dense : D.Dense) (c : DeclCategory) (n : NodeId) :
    (D.encode c n).1 = ((D.encode c n).2.trees c).idxOf n :=
  ((dense.encode c n).idxOf_of_files (files_encode dense c n)).symm

end OutDeclState

namespace GraphEncoder

/-- A numbering answers a numbered node its place in the numbered list. -/
theorem Numbers.lookup_eq {e : GraphEncoder} {l : List CgNodeId} (numbers : e.Numbers l) {id : CgNodeId}
    (numbered : (e.lookup id).isSome) : e.lookup id = some (l.idxOf id) := by
  obtain ⟨i, found⟩ := Option.isSome_iff_exists.1 numbered
  have at_i := (numbers.2 id i).1 found
  have inside := (List.getElem?_eq_some_iff.1 at_i).1
  rw [found, ← (List.getElem?_eq_some_iff.1 at_i).2, numbers.nodup.idxOf_getElem i inside]

theorem Numbers.mem_of_lookup {e : GraphEncoder} {l : List CgNodeId} (numbers : e.Numbers l) {id : CgNodeId}
    (numbered : (e.lookup id).isSome) : id ∈ l := by
  obtain ⟨i, found⟩ := Option.isSome_iff_exists.1 numbered
  exact List.mem_of_getElem? ((numbers.2 id i).1 found)

end GraphEncoder

namespace CallGraph

/-- The node an id names, a default one for a dead id; a section writes live
nodes only. -/
def nodeOf (g : CallGraph) (id : CgNodeId) : CgNode := (g.node? id).getD default

theorem nodeOf_of_node? {g : CallGraph} {id : CgNodeId} {n : CgNode} (found : g.node? id = some n) :
    g.nodeOf id = n := by
  simp [nodeOf, found]

/-- The number the section of `set` gives the inline target of its node `n`:
the target's place among the section's nodes, or -1 for a boundary node and for
a node inlined nowhere. -/
def sectionTarget (g : CallGraph) (set : List CgNodeId) (n : CgNode) (boundary : Bool) : Int64 :=
  match n.global.inlinedTo with
  | some t => if boundary then -1 else Int64.ofNat ((g.sectionNodes set).idxOf t)
  | none => -1

/-- The record, tag first, of the `k`-th node `id` of the section of `set`, the
tables being `D`: a boundary node past the members, a clone when an earlier node
has its declaration, and its declaration named by its place in the function
table. -/
def sectionRecord (g : CallGraph) (set : List CgNodeId) (D : OutDeclState) (id : CgNodeId) (k : Nat) :
    List UInt8 :=
  let n := g.nodeOf id
  let boundary := decide (set.eraseDups.length ≤ k)
  let named := ((g.sectionNodes set).take k).map fun x => (g.nodeOf x).decl
  n.tag boundary :: n.record boundary (decide (n.decl ∈ named)) ((D.trees .function).idxOf n.decl)
    (g.sectionTarget set n boundary)

/-- The node records of the section of `set`, in section order. -/
def nodeStream (g : CallGraph) (set : List CgNodeId) (D : OutDeclState) : List UInt8 :=
  (g.sectionNodes set).zipIdx.flatMap fun x => g.sectionRecord set D x.1 x.2

/-- The edge records of the section of `set`: each call of a member, tag
first, its ends named by their places among the section's nodes. -/
def edgeStream (g : CallGraph) (set : List CgNodeId) : List UInt8 :=
  set.eraseDups.flatMap fun id => (g.callees id).flatMap fun edge =>
    GraphTag.edge :: edge.record ((g.sectionNodes set).idxOf edge.caller)
      ((g.sectionNodes set).idxOf edge.callee)

/-- The main stream of the section of `set`: the node records, an end tag, the
edge records and a second end tag. -/
def sectionStream (g : CallGraph) (set : List CgNodeId) (D : OutDeclState) : List UInt8 :=
  g.nodeStream set D ++ [GraphTag.done] ++ g.edgeStream set ++ [GraphTag.done]

/-- A record names its declaration by its place in the tables, so tables that
place it alike give the same record. -/
theorem sectionRecord_congr {g : CallGraph} {set : List CgNodeId} {D D' : OutDeclState}
    {id : CgNodeId} {k : Nat}
    (same : (D.trees .function).idxOf (g.nodeOf id).decl = (D'.trees .function).idxOf (g.nodeOf id).decl) :
    g.sectionRecord set D id k = g.sectionRecord set D' id k := by
  simp only [sectionRecord, same]

/-- The writer after the node records of `done`, the first nodes of the section
of `set` with their places, having started from the tables `D₀`. -/
structure NodesWritten (g : CallGraph) (set : List CgNodeId) (D₀ : OutDeclState)
    (done : List (CgNodeId × Nat)) (w : GraphWriter) : Prop where
  out : w.out.data.toList = done.flatMap fun x => g.sectionRecord set w.decls x.1 x.2
  grows : D₀.Grows w.decls
  filed : ∀ x ∈ done, ∃ i, w.decls.Files .function (g.nodeOf x.1).decl i
  declared : ∀ d, w.declared.contains d = true ↔ d ∈ done.map fun x => (g.nodeOf x.1).decl
  targets : ∀ x ∈ done, x.2 < set.eraseDups.length → ∀ t,
    (g.nodeOf x.1).global.inlinedTo = some t → t ∈ g.sectionNodes set

theorem nodesWritten_start {g : CallGraph} {set : List CgNodeId} {D₀ : OutDeclState} (dense : D₀.Dense) :
    g.NodesWritten set D₀ [] { decls := D₀ } where
  out := rfl
  grows := .refl dense
  filed := by simp
  declared := by simp
  targets := by simp

/-- The places of the first nodes of a list are their positions. -/
theorem zipIdx_prefix {l : List CgNodeId} {done rest : List (CgNodeId × Nat)} {id : CgNodeId} {k : Nat}
    (position : done ++ (id, k) :: rest = l.zipIdx) :
    k = done.length ∧ done.map Prod.fst = l.take done.length := by
  have inside : done.length < l.zipIdx.length := by rw [← position]; simp
  have at_k : l.zipIdx[done.length] = (id, k) := by simp [← position]
  rw [List.getElem_zipIdx] at at_k
  refine ⟨(Prod.mk.inj at_k).2.symm.trans (Nat.zero_add _), ?_⟩
  have front : done = l.zipIdx.take done.length := by simp [← position]
  rw [front, List.map_take, List.zipIdx_map_fst]
  simp

/-- One node record keeps what the records written so far say. -/
theorem NodesWritten.node {g : CallGraph} {set : List CgNodeId} {D₀ : OutDeclState} {e : GraphEncoder}
    (numbers : e.Numbers (g.sectionNodes set)) (partition : e.partitionSize = set.eraseDups.length)
    {done rest : List (CgNodeId × Nat)} {id : CgNodeId} {k : Nat}
    (position : done ++ (id, k) :: rest = (g.sectionNodes set).zipIdx) {w w' : GraphWriter}
    (written : g.NodesWritten set D₀ done w) {n : CgNode} (found : g.node? id = some n)
    (run : (GraphWriteM.node e n (e.isBoundary k)).run w = .ok ((), w')) :
    g.NodesWritten set D₀ (done ++ [(id, k)]) w' := by
  obtain ⟨inlined, out, decls, declared⟩ := GraphWriteM.node_run run
  obtain ⟨place, named⟩ := zipIdx_prefix position
  have node : g.nodeOf id = n := nodeOf_of_node? found
  have dense := written.grows.dense
  -- the records already written name their declarations alike in the grown tables
  have kept : ∀ x ∈ done, g.sectionRecord set w.decls x.1 x.2 = g.sectionRecord set w'.decls x.1 x.2 := by
    intro x member
    obtain ⟨i, files⟩ := written.filed x member
    apply sectionRecord_congr
    rw [dense.idxOf_of_files files, decls, (dense.encode _ _).idxOf_of_files (files.encode dense _ _)]
  have boundary : e.isBoundary k = decide (set.eraseDups.length ≤ k) := by
    simp [GraphEncoder.isBoundary, partition]
  have target : e.targetNumber n (e.isBoundary k) = g.sectionTarget set n (e.isBoundary k) := by
    unfold GraphEncoder.targetNumber sectionTarget
    cases at_t : n.global.inlinedTo with
    | none => rfl
    | some t =>
      cases inside : e.isBoundary k with
      | true => rfl
      | false => simp [numbers.lookup_eq (inlined inside t at_t)]
  have clone : w.declared.contains n.decl =
      decide (n.decl ∈ ((g.sectionNodes set).take k).map fun x => (g.nodeOf x).decl) := by
    rw [place, ← named, List.map_map]
    exact Bool.eq_iff_iff.2 ((written.declared n.decl).trans (by simp [Function.comp_def]))
  have index : (w.decls.encode .function n.decl).1 = (w'.decls.trees .function).idxOf n.decl := by
    rw [decls]
    exact dense.encode_fst _ _
  have record : g.sectionRecord set w'.decls id k = n.tag (e.isBoundary k) ::
      n.record (e.isBoundary k) (w.declared.contains n.decl) (w.decls.encode .function n.decl).1
        (e.targetNumber n (e.isBoundary k)) := by
    rw [target, clone, index, boundary]
    simp only [sectionRecord, node]
  refine ⟨?_, ?_, ?_, ?_, ?_⟩
  · rw [out, written.out, List.flatMap_append, List.flatMap_congr kept, List.flatMap_singleton, record]
  · rw [decls]
    exact written.grows.encode _ _
  · intro x member
    rcases List.mem_append.1 member with old | new
    · obtain ⟨i, files⟩ := written.filed x old
      exact ⟨i, decls ▸ files.encode dense _ _⟩
    · rw [List.mem_singleton.1 new, node, decls]
      exact ⟨_, OutDeclState.files_encode dense _ _⟩
  · intro d
    rw [declared, Std.HashSet.contains_insert, Bool.or_eq_true, written.declared, beq_iff_eq]
    simp only [List.map_append, List.mem_append, List.map_cons, List.map_nil, List.mem_singleton, node]
    constructor
    · rintro (rfl | old)
      · exact .inr rfl
      · exact .inl old
    · rintro (old | rfl)
      · exact .inr old
      · exact .inl rfl
  · intro x member inside t at_t
    rcases List.mem_append.1 member with old | new
    · exact written.targets x old inside t at_t
    · rw [List.mem_singleton.1 new] at inside at_t
      rw [node] at at_t
      have notBoundary : e.isBoundary k = false := by simp [boundary]; omega
      exact numbers.mem_of_lookup (inlined notBoundary t at_t)

/-- The edge records of the calls of `id`. -/
def callRecords (g : CallGraph) (set : List CgNodeId) (id : CgNodeId) : List UInt8 :=
  (g.callees id).flatMap fun edge =>
    GraphTag.edge :: edge.record ((g.sectionNodes set).idxOf edge.caller)
      ((g.sectionNodes set).idxOf edge.callee)

theorem edgeStream_eq (g : CallGraph) (set : List CgNodeId) :
    g.edgeStream set = set.eraseDups.flatMap (g.callRecords set) := rfl

/-- The calls of one member, written one edge record each; every callee is
numbered. -/
theorem writeCalls {g : CallGraph} {set : List CgNodeId} {e : GraphEncoder}
    (numbers : e.Numbers (g.sectionNodes set)) (id : CgNodeId) {w w' : GraphWriter}
    (run : (forIn (g.callees id) PUnit.unit fun edge (_ : PUnit) => do
        GraphWriteM.edge e edge
        pure (ForInStep.yield PUnit.unit)).run w = .ok (PUnit.unit, w')) :
    w'.out.data.toList = w.out.data.toList ++ g.callRecords set id ∧ w'.decls = w.decls ∧
      ∀ edge ∈ g.callees id, edge.callee ∈ g.sectionNodes set := by
  have loop := forIn_stateT_inv (g.callees id) (fun done (v : GraphWriter) =>
      v.out.data.toList = w.out.data.toList ++ done.flatMap (fun edge =>
        GraphTag.edge :: edge.record ((g.sectionNodes set).idxOf edge.caller)
          ((g.sectionNodes set).idxOf edge.callee)) ∧
      v.decls = w.decls ∧ ∀ edge ∈ done, edge.callee ∈ g.sectionNodes set) ?round
    (by simp) run
  case round =>
    intro done edge rest v r _ ⟨out, decls, callees⟩ step
    obtain ⟨u, v₁, edgeRun, yielded⟩ := StateT.exists_of_run_bind_ok step
    cases yielded
    obtain ⟨i, j, caller, callee, out₁, decls₁, -⟩ := GraphWriteM.edge_run edgeRun
    refine ⟨rfl, ?_, decls₁.trans decls, ?_⟩
    · have atI : i = (g.sectionNodes set).idxOf edge.caller :=
        Option.some.inj (caller.symm.trans (numbers.lookup_eq (by simp [caller])))
      have atJ : j = (g.sectionNodes set).idxOf edge.callee :=
        Option.some.inj (callee.symm.trans (numbers.lookup_eq (by simp [callee])))
      rw [out₁, out, atI, atJ]
      simp
    · intro x member
      rcases List.mem_append.1 member with old | new
      · exact callees x old
      · rw [List.mem_singleton.1 new]
        exact numbers.mem_of_lookup (by simp [callee])
  exact ⟨by simpa [callRecords] using loop.1, loop.2.1, loop.2.2⟩

/-- A section that is written holds, framed as its main stream, the node
records of the section's nodes, an end tag, the edge records of the members'
calls and a second end tag; its declarations are filed in the tables it
returns, which extend those it was given. A member's inline target and every
callee of a member are nodes of the section, and a boundary node is inlined
nowhere. -/
theorem writeSection_stream {P : Program} {D D' : OutDeclState} {set : List CgNodeId}
    {bytes : ByteArray} (dense : D.Dense) (written : writeSection P D set = .ok (bytes, D')) :
    ∃ main : ByteArray, SectionData.write .cgraph {}
        [("named labels", .empty), ("main", main), ("strings", .empty)] = .ok bytes ∧
      main.data.toList = P.callgraph.sectionStream set D' ∧ D.Grows D' ∧
      (∀ id ∈ P.callgraph.sectionNodes set, (P.callgraph.node? id).isSome ∧
        ∃ i, D'.Files .function (P.callgraph.nodeOf id).decl i) ∧
      (∀ id ∈ set, ∀ t, (P.callgraph.nodeOf id).global.inlinedTo = some t →
        t ∈ P.callgraph.sectionNodes set) ∧
      (∀ id ∈ set, ∀ edge ∈ P.callgraph.callees id, edge.callee ∈ P.callgraph.sectionNodes set) ∧
      ∀ id ∈ P.callgraph.boundary set, (P.callgraph.nodeOf id).global.inlinedTo = none := by
  dsimp only [writeSection] at written
  obtain ⟨e, built, written⟩ := Except.exists_of_bind_eq_ok written
  obtain ⟨⟨u, w⟩, run, done⟩ := Except.exists_of_bind_eq_ok written
  obtain ⟨framed, frame, done⟩ := Except.exists_of_bind_eq_ok done
  obtain ⟨rfl, rfl⟩ := Prod.mk.inj (Except.ok.inj done)
  obtain ⟨numbers, partition, members, boundaryLive⟩ := GraphEncoder.build_ok built
  set g := P.callgraph
  set ns := g.sectionNodes set
  obtain ⟨_, w₁, nodesRun, rest⟩ := StateT.exists_of_run_bind_ok run
  obtain ⟨_, w₂, endRun, rest⟩ := StateT.exists_of_run_bind_ok rest
  obtain ⟨_, w₃, edgesRun, lastRun⟩ := StateT.exists_of_run_bind_ok rest
  -- the node records
  rw [numbers.1] at nodesRun
  have nodesWritten := forIn_stateT_inv ns.zipIdx (fun done v => g.NodesWritten set D done v) ?round
    (nodesWritten_start dense) nodesRun
  case round =>
    intro done x rest v r position written step
    obtain ⟨id, k⟩ := x
    cases found : g.node? id with
    | none =>
      simp only [found] at step
      simp [StateT.run, bind, StateT.bind, Except.bind, throw, throwThe, MonadExceptOf.throw,
        StateT.lift] at step
    | some n =>
      simp only [found] at step
      obtain ⟨_, v₁, nodeRun, yielded⟩ := StateT.exists_of_run_bind_ok step
      cases yielded
      exact ⟨rfl, written.node numbers partition position found nodeRun⟩
  -- the first end tag
  have ended : w₂.out.data.toList = w₁.out.data.toList ++ [GraphTag.done] ∧ w₂.decls = w₁.decls := by
    cases endRun
    simp
  -- the edge records
  have members' : List.take e.partitionSize e.nodes.toList = set.eraseDups := by
    rw [numbers.1, partition]
    exact List.take_left' rfl
  rw [members'] at edgesRun
  have edgesWritten := forIn_stateT_inv set.eraseDups (fun done (v : GraphWriter) =>
      v.out.data.toList = w₂.out.data.toList ++ done.flatMap (g.callRecords set) ∧ v.decls = w₂.decls ∧
        ∀ id ∈ done, ∀ edge ∈ g.callees id, edge.callee ∈ ns) ?edgeRound (by simp) edgesRun
  case edgeRound =>
    intro done id rest v r _ ⟨out, decls, callees⟩ step
    obtain ⟨_, v₁, callsRun, yielded⟩ := StateT.exists_of_run_bind_ok step
    cases yielded
    obtain ⟨out₁, decls₁, callees₁⟩ := writeCalls numbers id callsRun
    refine ⟨rfl, by rw [out₁, out]; simp, decls₁.trans decls, fun x member => ?_⟩
    rcases List.mem_append.1 member with old | new
    · exact callees x old
    · exact List.mem_singleton.1 new ▸ callees₁
  -- the second end tag
  have last : w.out.data.toList = w₃.out.data.toList ++ [GraphTag.done] ∧ w.decls = w₃.decls := by
    cases lastRun
    simp
  have decls : w.decls = w₁.decls := by rw [last.2, edgesWritten.2.1, ended.2]
  refine ⟨w.out, frame, ?_, decls ▸ nodesWritten.grows, fun id member => ?_, fun id member t at_t => ?_,
    fun id member => edgesWritten.2.2 id (List.mem_eraseDups.2 member), fun id member => ?_⟩
  · rw [last.1, edgesWritten.1, ended.1, nodesWritten.out, decls, sectionStream, nodeStream,
      edgeStream_eq]
  · obtain ⟨k, at_k⟩ := List.mem_iff_getElem?.1 member
    have listed : (id, k) ∈ ns.zipIdx := List.mk_mem_zipIdx_iff_getElem?.2 at_k
    refine ⟨?_, decls ▸ nodesWritten.filed _ listed⟩
    rcases List.mem_append.1 member with inSet | outside
    · exact members id (List.mem_eraseDups.1 inSet)
    · obtain ⟨n, found, -⟩ := boundaryLive id outside
      simp [found]
  · -- a member stands among the first nodes of the section
    have inside : ns.idxOf id < set.eraseDups.length := by
      have first : id ∈ set.eraseDups := List.mem_eraseDups.2 member
      rw [show ns = set.eraseDups ++ g.boundary set from rfl, List.idxOf_append_of_mem first]
      exact List.idxOf_lt_length_iff.2 first
    have listed : (id, ns.idxOf id) ∈ ns.zipIdx := by
      refine List.mk_mem_zipIdx_iff_getElem?.2 ?_
      exact List.getElem?_idxOf (List.mem_append_left _ (List.mem_eraseDups.2 member))
    exact nodesWritten.targets _ listed inside t at_t
  · obtain ⟨n, found, none⟩ := boundaryLive id member
    rw [nodeOf_of_node? found, none]

end CallGraph

end IrStream
