import Mathlib
import IrStream.Proofs.Codec.GraphFrame

/-!
The declaration index of a call graph. Beside its nodes a graph keeps
`byDecl`, the primary node of each declaration, and `getOrCreate` trusts it: it
answers the indexed node without looking at it. Every operation keeps the index
sound (`CallGraph.IndexSound`): each entry names a live node of its own
declaration that is no clone. Removal erases an entry only when it names the
removed node, so a removed clone leaves its original's entry alone, and moving
the nodes of one declaration to another keeps the entry the target already has.

* `CallGraph.Step`: the operations, one constructor each, and `Reachable`;
* `IndexSound.step` and `Reachable.indexSound`: every graph built by them has a
  sound index, so `getOrCreate` answers a live node of its declaration;
* `removeNode_unlinks`: removing a live node drops every edge at it and every
  inline-target and clone link to it. Removing an id that is not live changes
  nothing (`removeNode_of_dead`), so edges that name it stay: `addEdge` checks
  no endpoint.
-/

namespace IrStream

namespace CallGraph

/-- One operation on a call graph: finding or making the primary node of a
declaration, cloning a live node, adding an edge, removing a node, moving the
nodes of one declaration to another, or changing a node's fields other than
its declaration and clone link. -/
inductive Step : CallGraph → CallGraph → Prop
  | getOrCreate (g : CallGraph) (decl : NodeId) : Step g (g.getOrCreate decl).2
  | createClone {g g' : CallGraph} {of id : CgNodeId} (made : g.createClone of = some (id, g')) :
      Step g g'
  | addEdge (g : CallGraph) (e : CgEdge) : Step g (g.addEdge e)
  | removeNode (g : CallGraph) (id : CgNodeId) : Step g (g.removeNode id)
  | replaceDecl (g : CallGraph) (src dst : NodeId) : Step g (g.replaceDecl src dst)
  | modifyNode (g : CallGraph) (id : CgNodeId) {f : CgNode → CgNode}
      (keeps : ∀ n, (f n).decl = n.decl ∧ (f n).cloneOf = n.cloneOf) : Step g (g.modifyNode id f)

/-- The graphs that steps build from the empty one. -/
def Reachable (g : CallGraph) : Prop := Relation.ReflTransGen Step {} g

/-- Every entry of the declaration index names a live node of that declaration
that is no clone. -/
def IndexSound (g : CallGraph) : Prop :=
  ∀ decl id, g.nodeForDecl decl = some id →
    ∃ n, g.node? id = some n ∧ n.decl = decl ∧ n.cloneOf = none

section Nodes

variable {g : CallGraph} {id j : CgNodeId}

theorem node?_push_of_lt (n : CgNode) (old : j.val < g.nodes.size) :
    (g.push n).2.node? j = g.node? j := by
  simp [node?, push, Array.getElem?_push, Nat.ne_of_lt old]

theorem node?_push_self (n : CgNode) : (g.push n).2.node? (g.push n).1 = some n := by
  simp [node?, push]

theorem node?_modifyNode (f : CgNode → CgNode) :
    (g.modifyNode id f).node? j = if id = j then (g.node? j).map f else g.node? j := by
  by_cases same : id = j
  · subst same
    cases found : g.nodes[id.val]? with
    | none => simp [node?, modifyNode, Array.getElem?_modify, found]
    | some o => cases o <;> simp [node?, modifyNode, Array.getElem?_modify, found]
  · have different : id.val ≠ j.val := fun eq => same (by cases id; cases j; simp_all)
    simp [node?, modifyNode, Array.getElem?_modify, different, same]

/-- What removing the node `id` leaves of another node: its inline-target and
clone links to `id` cleared. -/
def unlink (id : CgNodeId) (o : CgNode) : CgNode :=
  { o with
    global := { o.global with inlinedTo := if o.global.inlinedTo == some id then none
                                           else o.global.inlinedTo },
    cloneOf := if o.cloneOf == some id then none else o.cloneOf }

theorem node?_removeNode {removed : CgNode} (live : g.node? id = some removed) (j : CgNodeId) :
    (g.removeNode id).node? j = if j = id then none else (g.node? j).map (unlink id) := by
  unfold removeNode
  rw [live]
  by_cases same : j = id
  · subst same
    simp [node?, Array.getElem?_setIfInBounds]
    split <;> rfl
  · have different : id.val ≠ j.val := fun eq => same (by cases id; cases j; simp_all)
    cases found : g.nodes[j.val]? with
    | none => simp [node?, different, same, found]
    | some o => cases o <;> simp [node?, different, same, found, unlink]

/-- Moving a declaration's nodes changes only their declaration. -/
theorem node?_replaceDecl (src dst : NodeId) :
    (g.replaceDecl src dst).node? j =
      (g.node? j).map fun n => if n.decl = src then { n with decl := dst } else n := by
  cases found : g.nodes[j.val]? with
  | none => simp [node?, replaceDecl, found]
  | some o => cases o <;> simp [node?, replaceDecl, found]

/-- Removing an id that is no live node changes nothing. -/
theorem removeNode_of_dead (dead : g.node? id = none) : g.removeNode id = g := by
  simp [CallGraph.removeNode, dead]

end Nodes

variable {g g' : CallGraph} {id : CgNodeId}

theorem empty_indexSound : IndexSound {} := by
  intro decl id entry
  simp [nodeForDecl] at entry

/-- An entry left by removal was there before, and removal erases the entry
of the removed node's declaration if it names that node. -/
theorem nodeForDecl_removeNode {removed : CgNode} (live : g.node? id = some removed) {d : NodeId}
    {i : CgNodeId} (entry : (g.removeNode id).nodeForDecl d = some i) :
    g.nodeForDecl d = some i ∧ (d = removed.decl → i ≠ id) := by
  simp only [nodeForDecl, CallGraph.removeNode, live, Std.HashMap.get?_eq_getElem?] at entry ⊢
  split at entry
  · rw [Std.HashMap.getElem?_erase] at entry
    split at entry
    · simp at entry
    · rename_i other
      exact ⟨entry, fun same => absurd same.symm (by simpa using other)⟩
  · rename_i notIndexed
    refine ⟨entry, ?_⟩
    rintro rfl rfl
    exact notIndexed (by simp [entry])

/-- The index after moving the nodes of `src` to `dst`: an old entry of
another declaration, or the entry of `src`, moved to `dst`. -/
theorem nodeForDecl_replaceDecl {src dst d : NodeId} {i : CgNodeId}
    (entry : (g.replaceDecl src dst).nodeForDecl d = some i) :
    g.nodeForDecl d = some i ∧ d ≠ src ∨ g.nodeForDecl src = some i ∧ d = dst := by
  simp only [nodeForDecl, CallGraph.replaceDecl, Std.HashMap.get?_eq_getElem?] at entry ⊢
  split at entry
  · rename_i k indexed
    -- the entry of `src` is erased, then moved to `dst` unless `dst` has one
    split at entry
    · rw [Std.HashMap.getElem?_erase] at entry
      split at entry
      · simp at entry
      · rename_i notSrc
        exact .inl ⟨entry, fun eq => notSrc (by simp [eq])⟩
    · rw [Std.HashMap.getElem?_insert] at entry
      split at entry
      · rename_i isDst
        exact .inr ⟨by rw [indexed, Option.some.inj entry], (by simpa using isDst : dst = d).symm⟩
      · rw [Std.HashMap.getElem?_erase] at entry
        split at entry
        · simp at entry
        · rename_i _ notSrc
          exact .inl ⟨entry, fun eq => notSrc (by simp [eq])⟩
  · rename_i unindexed
    refine .inl ⟨entry, ?_⟩
    rintro rfl
    rw [unindexed] at entry
    cases entry

namespace IndexSound

theorem getOrCreate (sound : g.IndexSound) (decl : NodeId) : (g.getOrCreate decl).2.IndexSound := by
  unfold CallGraph.getOrCreate
  cases absent : g.byDecl.get? decl with
  | some _ => exact sound
  | none =>
    intro d id entry
    dsimp only [push] at entry ⊢
    simp only [nodeForDecl, Std.HashMap.get?_eq_getElem?, Std.HashMap.getElem?_insert] at entry
    split at entry
    · -- the declaration just indexed: its new node
      rename_i same
      obtain rfl := Option.some.inj entry
      exact ⟨{ decl }, by simp [node?], by simpa using same, rfl⟩
    · obtain ⟨n, found, sameDecl, primary⟩ := sound d id (by simpa [nodeForDecl] using entry)
      have old : id.val ≠ g.nodes.size := Nat.ne_of_lt (lt_size_of_node? found)
      refine ⟨n, ?_, sameDecl, primary⟩
      simpa [node?, Array.getElem?_push, old] using found

theorem createClone {of id : CgNodeId} (sound : g.IndexSound)
    (made : g.createClone of = some (id, g')) : g'.IndexSound := by
  unfold CallGraph.createClone at made
  obtain ⟨n, _, pushed⟩ := Option.map_eq_some_iff.mp made
  obtain rfl : (g.push _).2 = g' := congrArg Prod.snd pushed
  intro d i entry
  obtain ⟨m, found, sameDecl, primary⟩ := sound d i entry
  exact ⟨m, by rwa [node?_push_of_lt _ (lt_size_of_node? found)], sameDecl, primary⟩

theorem addEdge (sound : g.IndexSound) (e : CgEdge) : (g.addEdge e).IndexSound := sound

theorem removeNode (sound : g.IndexSound) (id : CgNodeId) : (g.removeNode id).IndexSound := by
  cases live : g.node? id with
  | none => rwa [removeNode_of_dead live]
  | some removed =>
    intro d i entry
    obtain ⟨old, erased⟩ := nodeForDecl_removeNode live entry
    obtain ⟨n, found, sameDecl, primary⟩ := sound d i old
    -- the removed node's own entry is erased, so the entry names a node that stays
    have kept : i ≠ id := by
      rintro rfl
      rw [live] at found
      obtain rfl := Option.some.inj found
      exact erased sameDecl.symm rfl
    refine ⟨unlink id n, ?_, sameDecl, by simp [unlink, primary]⟩
    rw [node?_removeNode live, if_neg kept, found, Option.map_some]

theorem replaceDecl (sound : g.IndexSound) (src dst : NodeId) :
    (g.replaceDecl src dst).IndexSound := by
  intro d i entry
  rcases nodeForDecl_replaceDecl entry with ⟨old, notSrc⟩ | ⟨moved, rfl⟩
  · obtain ⟨n, found, rfl, primary⟩ := sound d i old
    exact ⟨n, by simp [node?_replaceDecl, found, notSrc], rfl, primary⟩
  · obtain ⟨n, found, rfl, primary⟩ := sound src i moved
    exact ⟨{ n with decl := d }, by simp [node?_replaceDecl, found], rfl, primary⟩

theorem modifyNode (sound : g.IndexSound) (id : CgNodeId) {f : CgNode → CgNode}
    (keeps : ∀ n, (f n).decl = n.decl ∧ (f n).cloneOf = n.cloneOf) :
    (g.modifyNode id f).IndexSound := by
  intro d i entry
  obtain ⟨n, found, sameDecl, primary⟩ := sound d i entry
  rw [node?_modifyNode]
  split
  · exact ⟨f n, by simp [found], (keeps n).1.trans sameDecl, (keeps n).2.trans primary⟩
  · exact ⟨n, found, sameDecl, primary⟩

/-- Each step keeps the index sound. -/
theorem step (sound : g.IndexSound) (step : Step g g') : g'.IndexSound := by
  cases step with
  | getOrCreate decl => exact sound.getOrCreate decl
  | createClone made => exact sound.createClone made
  | addEdge e => exact sound.addEdge e
  | removeNode id => exact sound.removeNode id
  | replaceDecl src dst => exact sound.replaceDecl src dst
  | modifyNode id keeps => exact sound.modifyNode id keeps

/-- With a sound index, `getOrCreate` answers a live node of its declaration. -/
theorem getOrCreate_live (sound : g.IndexSound) (decl : NodeId) :
    ∃ n, (g.getOrCreate decl).2.node? (g.getOrCreate decl).1 = some n ∧ n.decl = decl := by
  unfold CallGraph.getOrCreate
  cases indexed : g.byDecl.get? decl with
  | some id =>
    obtain ⟨n, found, sameDecl, -⟩ := sound decl id indexed
    exact ⟨n, found, sameDecl⟩
  | none => exact ⟨{ decl }, node?_push_self _, rfl⟩

end IndexSound

/-- Every graph the steps build has a sound index. -/
theorem Reachable.indexSound (reach : g.Reachable) : g.IndexSound := by
  induction reach with
  | refl => exact empty_indexSound
  | tail _ step sound => exact sound.step step

/-- Removing a live node drops every edge at it, clears every inline-target and
clone link to it, and leaves it dead. -/
theorem removeNode_unlinks {removed : CgNode} (live : g.node? id = some removed) :
    (g.removeNode id).node? id = none ∧
    (∀ e ∈ (g.removeNode id).edges, e.caller ≠ id ∧ e.callee ≠ id) ∧
    ∀ j n, (g.removeNode id).node? j = some n → n.global.inlinedTo ≠ some id ∧ n.cloneOf ≠ some id := by
  refine ⟨by simp [node?_removeNode live], fun e mem => ?_, fun j n found => ?_⟩
  · simp only [CallGraph.removeNode, live, Array.mem_filter, Bool.and_eq_true, bne_iff_ne] at mem
    exact mem.2
  · rw [node?_removeNode live] at found
    split at found
    · cases found
    · obtain ⟨o, -, rfl⟩ := Option.map_eq_some_iff.mp found
      constructor <;> simp only [unlink] <;> split <;> simp_all

/-- In every graph the operations build, each entry of the declaration index
names a live node of its declaration that is no clone, so `getOrCreate` answers
a live node of the declaration asked for. Removing a live node leaves it dead,
drops every edge at it and clears every inline-target and clone link to it;
removing an id that is not live changes nothing. -/
theorem reachable_declIndex_sound (reach : g.Reachable) :
    g.IndexSound ∧
    (∀ decl, ∃ n, (g.getOrCreate decl).2.node? (g.getOrCreate decl).1 = some n ∧ n.decl = decl) ∧
    (∀ id removed, g.node? id = some removed →
      (g.removeNode id).node? id = none ∧
      (∀ e ∈ (g.removeNode id).edges, e.caller ≠ id ∧ e.callee ≠ id) ∧
      ∀ j n, (g.removeNode id).node? j = some n →
        n.global.inlinedTo ≠ some id ∧ n.cloneOf ≠ some id) ∧
    (∀ id, g.node? id = none → g.removeNode id = g) :=
  have sound := reach.indexSound
  ⟨sound, sound.getOrCreate_live, fun _ _ live => removeNode_unlinks live,
    fun _ dead => removeNode_of_dead dead⟩

/-- Two primary nodes with a call between them, the caller then removed. -/
def callerRemoved : CallGraph :=
  (((({} : CallGraph).getOrCreate ⟨1⟩).2.getOrCreate ⟨2⟩).2.addEdge
    { caller := ⟨0⟩, callee := ⟨1⟩, stmtUid := 1 }).removeNode ⟨0⟩

theorem callerRemoved_declIndex_sound :
    callerRemoved.Reachable ∧ callerRemoved.IndexSound ∧
    (∀ decl, ∃ n, (callerRemoved.getOrCreate decl).2.node? (callerRemoved.getOrCreate decl).1 = some n ∧
      n.decl = decl) ∧
    (∀ id removed, callerRemoved.node? id = some removed →
      (callerRemoved.removeNode id).node? id = none ∧
      (∀ e ∈ (callerRemoved.removeNode id).edges, e.caller ≠ id ∧ e.callee ≠ id) ∧
      ∀ j n, (callerRemoved.removeNode id).node? j = some n →
        n.global.inlinedTo ≠ some id ∧ n.cloneOf ≠ some id) ∧
    (∀ id, callerRemoved.node? id = none → callerRemoved.removeNode id = callerRemoved) :=
  have reach : callerRemoved.Reachable :=
    .tail (.tail (.tail (.single (.getOrCreate _ _)) (.getOrCreate _ _)) (.addEdge _ _))
      (.removeNode _ _)
  ⟨reach, reachable_declIndex_sound reach⟩

/-- A call between two ids that are no nodes. -/
def danglingCall : CgEdge := { caller := ⟨0⟩, callee := ⟨1⟩, stmtUid := 7 }

/-- `addEdge` checks no endpoint and removing an id that is not live does
nothing, so after removing its caller the dangling call is still there. -/
theorem removeNode_keeps_dangling_call :
    (({} : CallGraph).addEdge danglingCall).Reachable ∧
    danglingCall ∈ ((({} : CallGraph).addEdge danglingCall).removeNode ⟨0⟩).edges ∧
    danglingCall.caller = ⟨0⟩ := by
  have dead : (({} : CallGraph).addEdge danglingCall).node? ⟨0⟩ = none := by
    simp [node?, addEdge]
  refine ⟨.single (.addEdge _ _), ?_, rfl⟩
  rw [removeNode_of_dead dead]
  simp [addEdge]

end CallGraph

end IrStream
