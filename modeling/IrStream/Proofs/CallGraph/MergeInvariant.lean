import Mathlib
import IrStream.Proofs.CallGraph.SectionMerge

/-!
# The invariant of a merged call graph

A session's call graph, once a unit's section is read into it, holds only
nodes whose declarations prevail, and its calls join such nodes. This module
states that invariant and what each phase of a section read does to it.

* `SymbolTable.Settled`: what the table tells of its copies once every unit
  merged its symbols: a copy resolved to prevail prevails, and what prevails
  over a declaration prevails over itself;
* `CallGraph.CallsPrevail` and `CallGraph.Merged`: the invariant;
* `CallGraph.KeepsPrevailing`: what every later read leaves of a graph: its
  prevailing nodes, their index entries and the calls between them;
* `CallGraph.mergeCall_grows`, `mergeCall_calls`, `mergeCall_dropped` and
  `mergeCall_added`: one edge record merged;
* `CallGraph.prune_foldl`: the last pass, over nodes of which only those of
  prevailing declarations may repeat.
-/

/-- A fold in `Option` that succeeds: an invariant every step keeps holds at
the end, a relation every step makes holds from the start to the end, and each
item was taken by a step from a state the invariant held in, whose result the
rest of the fold relates to the end. -/
theorem List.foldlM_option_steps {α β : Type} {f : β → α → Option β} (P : β → Prop) (R : β → β → Prop)
    (refl : ∀ b, R b b) (trans : ∀ {a b c}, R a b → R b c → R a c)
    (step : ∀ b x b', P b → f b x = some b' → P b' ∧ R b b') :
    ∀ (l : List α) b b', P b → l.foldlM f b = some b' →
      P b' ∧ R b b' ∧ ∀ x ∈ l, ∃ c c', P c ∧ f c x = some c' ∧ R c' b'
  | [], b, b', held, run => by
    cases run
    exact ⟨held, refl b, fun x listed => absurd listed List.not_mem_nil⟩
  | x :: l, b, b', held, run => by
    rw [List.foldlM_cons] at run
    obtain ⟨c, first, rest⟩ := Option.bind_eq_some_iff.1 run
    obtain ⟨heldC, related⟩ := step b x c held first
    obtain ⟨heldEnd, relatedEnd, each⟩ := List.foldlM_option_steps P R refl trans step l c b' heldC rest
    refine ⟨heldEnd, trans related relatedEnd, fun y listed => ?_⟩
    rcases List.mem_cons.1 listed with rfl | later
    · exact ⟨b, c, held, first, relatedEnd⟩
    · exact each y later

namespace IrStream

/-- What a symbol table tells of its copies once every unit has merged its
symbols: a copy resolved to prevail does prevail, and the declaration that
prevails over any other prevails over itself. -/
structure SymbolTable.Settled (T : SymbolTable) : Prop where
  resolved : ∀ d r, T.resolution? d = some r → r.isPrevailing = true → T.isPrevailing d = true
  prevailing : ∀ d, T.isPrevailing (T.prevailing d) = true

@[simp] theorem CgEdge.mapEnds_caller (f : CgNodeId → CgNodeId) (e : CgEdge) : (e.mapEnds f).caller = f e.caller :=
  rfl

@[simp] theorem CgEdge.mapEnds_callee (f : CgNodeId → CgNodeId) (e : CgEdge) : (e.mapEnds f).callee = f e.callee :=
  rfl

namespace CallGraph

variable {T : SymbolTable}

/-- Every call of `G` joins live nodes whose declarations prevail in `T`, and
comes from a copy whose resolution is not preempted. -/
def CallsPrevail (T : SymbolTable) (G : CallGraph) : Prop :=
  ∀ e ∈ G.edges, ∃ m m', G.node? e.caller = some m ∧ G.node? e.callee = some m' ∧
    T.isPrevailing m.decl = true ∧ T.isPrevailing m'.decl = true ∧ T.resolution? m.decl ≠ some .preempted

/-- A graph that section reads merged against `T`: its index is sound, every
node's declaration prevails, and so do the ends of every call. -/
structure Merged (T : SymbolTable) (G : CallGraph) : Prop where
  sound : G.IndexSound
  prevails : ∀ id n, G.node? id = some n → T.isPrevailing n.decl = true
  calls : G.CallsPrevail T

theorem merged_empty : ({} : CallGraph).Merged T where
  sound := empty_indexSound
  prevails _ _ found := by simp [node?] at found
  calls _ listed := absurd listed (by simp)

/-- Calls stay between prevailing nodes where nodes only grow and each new
call joins prevailing nodes. -/
theorem CallsPrevail.grow {G G' : CallGraph} (calls : G.CallsPrevail T) (grows : G.Grows G')
    (added : ∀ e ∈ G'.edges, e ∈ G.edges ∨ ∃ m m', G'.node? e.caller = some m ∧ G'.node? e.callee = some m' ∧
      T.isPrevailing m.decl = true ∧ T.isPrevailing m'.decl = true ∧ T.resolution? m.decl ≠ some .preempted) :
    G'.CallsPrevail T := by
  intro e listed
  rcases added e listed with old | new
  · obtain ⟨m, m', caller, callee, prevails, prevails', notPreempted⟩ := calls e old
    obtain ⟨n, caller', sameDecl⟩ := grows.live _ _ caller
    obtain ⟨n', callee', sameDecl'⟩ := grows.live _ _ callee
    exact ⟨n, n', caller', callee', sameDecl ▸ prevails, sameDecl' ▸ prevails', sameDecl ▸ notPreempted⟩
  · exact new

/-- A call stays among the calls of every graph grown from its own. -/
theorem Grows.mem_edges {G G' : CallGraph} (grows : G.Grows G') {e : CgEdge} (listed : e ∈ G.edges) :
    e ∈ G'.edges := by
  obtain ⟨rest, whole⟩ := grows.edges
  rw [← Array.mem_toList_iff, ← whole]
  exact List.mem_append_left _ (Array.mem_toList_iff.2 listed)

/-- What every later read leaves of `G`: each node of a prevailing
declaration with that declaration, the index entry of each prevailing
declaration, and each call between nodes of prevailing declarations. -/
structure KeepsPrevailing (T : SymbolTable) (G G' : CallGraph) : Prop where
  nodes : ∀ id n, G.node? id = some n → T.isPrevailing n.decl = true →
    ∃ n', G'.node? id = some n' ∧ n'.decl = n.decl
  index : ∀ d i, T.isPrevailing d = true → G.nodeForDecl d = some i → G'.nodeForDecl d = some i
  edges : ∀ e ∈ G.edges, (∃ m, G.node? e.caller = some m ∧ T.isPrevailing m.decl = true) →
    (∃ m', G.node? e.callee = some m' ∧ T.isPrevailing m'.decl = true) → e ∈ G'.edges

namespace KeepsPrevailing

variable {G G' G'' : CallGraph}

theorem refl (G : CallGraph) : KeepsPrevailing T G G :=
  ⟨fun _ n found _ => ⟨n, found, rfl⟩, fun _ _ _ entry => entry, fun _ listed _ _ => listed⟩

theorem trans (first : KeepsPrevailing T G G') (second : KeepsPrevailing T G' G'') : KeepsPrevailing T G G'' where
  nodes id n found prevails := by
    obtain ⟨n', found', sameDecl⟩ := first.nodes id n found prevails
    obtain ⟨n'', found'', sameDecl'⟩ := second.nodes id n' found' (sameDecl ▸ prevails)
    exact ⟨n'', found'', sameDecl'.trans sameDecl⟩
  index d i prevails entry := second.index d i prevails (first.index d i prevails entry)
  edges e listed caller callee := by
    obtain ⟨m, found, prevails⟩ := caller
    obtain ⟨m', found', prevails'⟩ := callee
    obtain ⟨n, kept, sameDecl⟩ := first.nodes _ m found prevails
    obtain ⟨n', kept', sameDecl'⟩ := first.nodes _ m' found' prevails'
    exact second.edges e (first.edges e listed ⟨m, found, prevails⟩ ⟨m', found', prevails'⟩)
      ⟨n, kept, sameDecl ▸ prevails⟩ ⟨n', kept', sameDecl' ▸ prevails'⟩

theorem of_grows (grows : G.Grows G') : KeepsPrevailing T G G' where
  nodes id n found _ := grows.live id n found
  index d i _ entry := grows.byDecl d i entry
  edges _ listed _ _ := grows.mem_edges listed

end KeepsPrevailing

section MergeCall

variable {g g' : CallGraph} {e : CgEdge} {b : Bool}

@[simp] theorem node?_addEdge (g : CallGraph) (e : CgEdge) (id : CgNodeId) : (g.addEdge e).node? id = g.node? id :=
  rfl

@[simp] theorem nodeForDecl_addEdge (g : CallGraph) (e : CgEdge) (d : NodeId) :
    (g.addEdge e).nodeForDecl d = g.nodeForDecl d :=
  rfl

/-- The node `getOrCreate` answers is the one indexed under the declaration. -/
theorem nodeForDecl_getOrCreate (g : CallGraph) (d : NodeId) :
    (g.getOrCreate d).2.nodeForDecl d = some (g.getOrCreate d).1 := by
  cases indexed : g.byDecl.get? d with
  | some i =>
    rw [getOrCreate_of_nodeForDecl g d i indexed]
    exact indexed
  | none => simp [getOrCreate_of_fresh indexed, nodeForDecl]

theorem edges_getOrCreate (g : CallGraph) (d : NodeId) : (g.getOrCreate d).2.edges = g.edges := by
  cases indexed : g.byDecl.get? d with
  | some i => rw [getOrCreate_of_nodeForDecl g d i indexed]
  | none => rw [getOrCreate_of_fresh indexed]; rfl

/-- A node `getOrCreate` makes is of the declaration asked for. -/
theorem decl_of_getOrCreate {d : NodeId} {id : CgNodeId} {n : CgNode}
    (found : (g.getOrCreate d).2.node? id = some n) (dead : g.node? id = none) : n.decl = d := by
  cases indexed : g.byDecl.get? d with
  | some i =>
    rw [getOrCreate_of_nodeForDecl g d i indexed, dead] at found
    cases found
  | none =>
    rw [getOrCreate_of_fresh indexed] at found
    by_cases made : id = (g.push { decl := d }).1
    · subst made
      exact (Option.some.inj ((node?_push_self _).symm.trans found)).symm ▸ rfl
    · rw [show ({ (g.push { decl := d }).2 with byDecl := g.byDecl.insert d (g.push { decl := d }).1 } :
          CallGraph).node? id = (g.push { decl := d }).2.node? id from rfl, node?_push_ne _ made, dead] at found
      cases found

/-- A merged call has both ends live. -/
theorem mergeCall_ends (merged : g.mergeCall T e = some (b, g')) :
    ∃ m m', g.node? e.caller = some m ∧ g.node? e.callee = some m' := by
  unfold mergeCall at merged
  split at merged
  · next m m' caller callee => exact ⟨m, m', caller, callee⟩
  · cases merged

/-- One call merged: a call from a preempted copy leaves the graph; any other
comes from a copy resolved or found to prevail and is added, to the callee's
node when its declaration prevails, and otherwise, the callee being no clone,
to the node of the declaration that prevails over it, made on first request. -/
theorem mergeCall_cases {m m' : CgNode} (caller : g.node? e.caller = some m) (callee : g.node? e.callee = some m')
    (merged : g.mergeCall T e = some (b, g')) :
    (T.resolution? m.decl = some .preempted ∧ b = false ∧ g' = g) ∨
      (T.resolution? m.decl ≠ some .preempted ∧
        ((T.resolution? m.decl).any Resolution.isPrevailing = true ∨ T.isPrevailing m.decl = true) ∧ b = true ∧
        (T.isPrevailing m'.decl = true ∧ g' = g.addEdge e ∨
          T.isPrevailing m'.decl = false ∧ m'.cloneOf = none ∧
            g' = (g.getOrCreate (T.prevailing m'.decl)).2.addEdge
              { e with callee := (g.getOrCreate (T.prevailing m'.decl)).1 })) := by
  simp only [mergeCall, caller, callee] at merged
  by_cases preempted : T.resolution? m.decl = some .preempted
  · simp only [preempted, beq_self_eq_true, if_true, Option.some.injEq, Prod.mk.injEq] at merged
    exact .inl ⟨preempted, merged.1.symm, merged.2.symm⟩
  have kept : (T.resolution? m.decl == some Resolution.preempted) = false := by simpa using preempted
  simp only [kept, Bool.false_eq_true, if_false] at merged
  -- a caller's copy that is not refused was resolved or found to prevail
  have accepted : (!(T.resolution? m.decl).any Resolution.isPrevailing && !T.isPrevailing m.decl) = true ∨
      ((T.resolution? m.decl).any Resolution.isPrevailing = true ∨ T.isPrevailing m.decl = true) := by
    cases (T.resolution? m.decl).any Resolution.isPrevailing <;> cases T.isPrevailing m.decl <;> simp
  -- `split_ifs` closes the refused records, which answer `none`
  split_ifs at merged with refused moved clone
  · -- the callee does not prevail: the call moves to the node of the copy that does
    obtain ⟨rfl, rfl⟩ := Prod.mk.inj (Option.some.inj merged)
    refine .inr ⟨preempted, accepted.resolve_left refused, rfl, .inr ⟨?_, by simpa using clone, rfl⟩⟩
    simpa [SymbolTable.isPrevailing] using moved
  · obtain ⟨rfl, rfl⟩ := Prod.mk.inj (Option.some.inj merged)
    refine .inr ⟨preempted, accepted.resolve_left refused, rfl, .inl ⟨?_, rfl⟩⟩
    simpa [SymbolTable.isPrevailing] using moved

/-- A call from a preempted copy leaves the graph. -/
theorem mergeCall_dropped {m : CgNode} (caller : g.node? e.caller = some m)
    (preempted : T.resolution? m.decl = some .preempted) (merged : g.mergeCall T e = some (b, g')) :
    b = false ∧ g' = g := by
  obtain ⟨m₁, m', caller', callee⟩ := mergeCall_ends merged
  rw [caller] at caller'
  cases caller'
  rcases mergeCall_cases caller callee merged with ⟨-, dropped, same⟩ | ⟨kept, -⟩
  · exact ⟨dropped, same⟩
  · exact absurd preempted kept

/-- A merged call grows the graph, keeps its index sound, and makes at most
one node, of a declaration that prevails. -/
theorem mergeCall_grows (settled : T.Settled) (sound : g.IndexSound) (merged : g.mergeCall T e = some (b, g')) :
    g'.IndexSound ∧ g.Grows g' ∧ ∀ id n, g'.node? id = some n → g.node? id = none → T.isPrevailing n.decl = true := by
  obtain ⟨m, m', caller, callee⟩ := mergeCall_ends merged
  rcases mergeCall_cases caller callee merged with ⟨-, -, same⟩ | ⟨-, -, -, ⟨-, same⟩ | ⟨-, -, same⟩⟩ <;>
    rw [same]
  · exact ⟨sound, Grows.refl g, fun id n found dead => by rw [found] at dead; cases dead⟩
  · refine ⟨sound.addEdge e, Grows.addEdge g e, fun id n found dead => ?_⟩
    rw [node?_addEdge, dead] at found
    cases found
  · refine ⟨(sound.getOrCreate _).addEdge _, (Grows.getOrCreate g _).trans (Grows.addEdge _ _), fun id n found dead => ?_⟩
    rw [node?_addEdge] at found
    rw [decl_of_getOrCreate found dead]
    exact settled.prevailing _

/-- A call from a copy that is not preempted is added from the caller's node,
whose declaration prevails: to the callee's node when the callee's
declaration prevails, and otherwise to the indexed node of the declaration
that prevails over it. The node called is live and its declaration prevails. -/
theorem mergeCall_added (settled : T.Settled) (sound : g.IndexSound) {m m' : CgNode}
    (caller : g.node? e.caller = some m) (callee : g.node? e.callee = some m')
    (kept : T.resolution? m.decl ≠ some .preempted) (merged : g.mergeCall T e = some (b, g')) :
    b = true ∧ T.isPrevailing m.decl = true ∧ ∃ z n, g'.edges = g.edges.push { e with callee := z } ∧
      g'.node? z = some n ∧ T.isPrevailing n.decl = true ∧ (T.isPrevailing m'.decl = true → z = e.callee) ∧
      (T.isPrevailing m'.decl = false → g'.nodeForDecl (T.prevailing m'.decl) = some z) := by
  rcases mergeCall_cases caller callee merged with ⟨preempted, -⟩ | ⟨-, accepted, added, moves⟩
  · exact absurd preempted kept
  -- the caller's copy was resolved to prevail, or prevails
  have prevails : T.isPrevailing m.decl = true := by
    rcases accepted with resolved | prevails
    · obtain ⟨r, found, chosen⟩ := (Option.any_eq_true _ _).1 resolved
      exact settled.resolved _ r found chosen
    · exact prevails
  refine ⟨added, prevails, ?_⟩
  rcases moves with ⟨stays, rfl⟩ | ⟨moved, -, rfl⟩
  · exact ⟨e.callee, m', rfl, callee, stays, fun _ => rfl, fun gone => absurd stays (by simp [gone])⟩
  · obtain ⟨n, found, made⟩ := sound.getOrCreate_live (T.prevailing m'.decl)
    refine ⟨_, n, by rw [edges_addEdge, edges_getOrCreate], found, made ▸ settled.prevailing _,
      fun stays => absurd moved (by simp [stays]), fun _ => ?_⟩
    rw [nodeForDecl_addEdge]
    exact nodeForDecl_getOrCreate g _

/-- A merged call keeps every call between prevailing nodes. -/
theorem mergeCall_calls (settled : T.Settled) (sound : g.IndexSound) (calls : g.CallsPrevail T)
    (merged : g.mergeCall T e = some (b, g')) : g'.CallsPrevail T := by
  obtain ⟨-, grows, -⟩ := mergeCall_grows settled sound merged
  obtain ⟨m, m', caller, callee⟩ := mergeCall_ends merged
  by_cases preempted : T.resolution? m.decl = some .preempted
  · obtain ⟨-, rfl⟩ := mergeCall_dropped caller preempted merged
    exact calls
  obtain ⟨-, prevails, z, n, edges, found, prevails', -⟩ := mergeCall_added settled sound caller callee preempted merged
  refine calls.grow grows fun e' listed => ?_
  rw [edges, Array.mem_push] at listed
  rcases listed with old | rfl
  · exact .inl old
  · obtain ⟨k, caller', sameDecl⟩ := grows.live _ _ caller
    exact .inr ⟨k, n, caller', found, sameDecl ▸ prevails, prevails', sameDecl ▸ preempted⟩

end MergeCall

/-- `G'` is `G` with nodes of declarations that do not prevail removed: what
`G'` keeps of `G` is what every later read keeps, every node of `G'` was in
`G` with its declaration, and every call of `G'` was a call of `G`. -/
structure Prunes (T : SymbolTable) (G G' : CallGraph) : Prop extends KeepsPrevailing T G G' where
  kept : ∀ id n, G'.node? id = some n → ∃ n', G.node? id = some n' ∧ n'.decl = n.decl
  calls : ∀ e ∈ G'.edges, e ∈ G.edges

namespace Prunes

variable {G G' G'' : CallGraph}

theorem refl (G : CallGraph) : Prunes T G G :=
  { KeepsPrevailing.refl G with
    kept := fun _ n found => ⟨n, found, rfl⟩
    calls := fun _ listed => listed }

theorem trans (first : Prunes T G G') (second : Prunes T G' G'') : Prunes T G G'' :=
  { first.toKeepsPrevailing.trans second.toKeepsPrevailing with
    kept := fun id n found => by
      obtain ⟨n', found', sameDecl⟩ := second.kept id n found
      obtain ⟨n'', found'', sameDecl'⟩ := first.kept id n' found'
      exact ⟨n'', found'', sameDecl'.trans sameDecl⟩
    calls := fun e listed => first.calls e (second.calls e listed) }

end Prunes

/-- Removing a node keeps the index entries of the other declarations. -/
theorem nodeForDecl_removeNode_of_ne {G : CallGraph} {id : CgNodeId} {removed : CgNode}
    (live : G.node? id = some removed) {d : NodeId} (other : d ≠ removed.decl) :
    (G.removeNode id).nodeForDecl d = G.nodeForDecl d := by
  simp only [nodeForDecl, removeNode, live, Std.HashMap.get?_eq_getElem?]
  split <;> simp [Std.HashMap.getElem?_erase, Ne.symm other]

/-- Removing a live node whose declaration does not prevail prunes the graph. -/
theorem prunes_removeNode {G : CallGraph} {id : CgNodeId} {removed : CgNode} (live : G.node? id = some removed)
    (dropped : T.isPrevailing removed.decl = false) : Prunes T G (G.removeNode id) where
  nodes j n found prevails := by
    have other : j ≠ id := by
      rintro rfl
      rw [live] at found
      cases found
      simp [prevails] at dropped
    exact ⟨unlink id n, by rw [node?_removeNode live, if_neg other, found, Option.map_some], rfl⟩
  index d i prevails entry := by
    have other : d ≠ removed.decl := by
      rintro rfl
      simp [prevails] at dropped
    rw [nodeForDecl_removeNode_of_ne live other]
    exact entry
  edges e listed caller callee := by
    -- neither end is the removed node, whose declaration does not prevail
    have apart : ∀ j, (∃ m, G.node? j = some m ∧ T.isPrevailing m.decl = true) → j ≠ id := by
      rintro j ⟨m, found, prevails⟩ rfl
      rw [live] at found
      cases found
      simp [prevails] at dropped
    simp only [removeNode, live, Array.mem_filter]
    simp [listed, apart _ caller, apart _ callee]
  kept j n found := by
    rw [node?_removeNode live] at found
    split at found
    · cases found
    · obtain ⟨n', found', rfl⟩ := Option.map_eq_some_iff.1 found
      exact ⟨n', found', rfl⟩
  calls e listed := by
    simp only [removeNode, live, Array.mem_filter] at listed
    exact listed.1

/-- Whether the last pass keeps the node `id` of `G`. -/
def prunedAnswer (T : SymbolTable) (G : CallGraph) (id : CgNodeId) : Option CgNodeId :=
  if (G.node? id).any (fun n => T.isPrevailing n.decl) then some id else none

/-- The last pass over live nodes of which only those of prevailing
declarations repeat: it answers each node it keeps, in order, and `none` for
each node of a declaration that does not prevail, which it removes. The graph
it leaves prunes the one it was given, with a sound index if that had one, and
no node it went over is left unless its declaration prevails. -/
theorem prune_foldl :
    ∀ (l : List CgNodeId) (acc : Array (Option CgNodeId)) (G : CallGraph),
      (∀ id ∈ l, (G.node? id).isSome) →
      l.Pairwise (fun a b => a = b → ∃ n, G.node? a = some n ∧ T.isPrevailing n.decl = true) →
      (l.foldl (pruneStep T) (acc, G)).1 = acc ++ (l.map (prunedAnswer T G)).toArray ∧
        Prunes T G (l.foldl (pruneStep T) (acc, G)).2 ∧
        (G.IndexSound → (l.foldl (pruneStep T) (acc, G)).2.IndexSound) ∧
        ∀ id ∈ l, ∀ n, (l.foldl (pruneStep T) (acc, G)).2.node? id = some n → T.isPrevailing n.decl = true
  | [], acc, G, _, _ => ⟨by simp, Prunes.refl G, id, fun _ listed => absurd listed List.not_mem_nil⟩
  | id :: l, acc, G, live, repeats => by
    obtain ⟨first, rest⟩ := List.pairwise_cons.1 repeats
    obtain ⟨n, found⟩ := Option.isSome_iff_exists.1 (live id List.mem_cons_self)
    rw [List.foldl_cons]
    by_cases prevails : T.isPrevailing n.decl = true
    · -- the node is kept, and answered
      have stepped : pruneStep T (acc, G) id = (acc.push (some id), G) := by
        simp [pruneStep, found, prevails]
      rw [stepped]
      obtain ⟨answers, prunes, sound, left⟩ := prune_foldl l (acc.push (some id)) G
        (fun j listed => live j (List.mem_cons_of_mem _ listed)) rest
      refine ⟨by simp [answers, prunedAnswer, found, prevails], prunes, sound, fun j listed n' kept => ?_⟩
      rcases List.mem_cons.1 listed with rfl | later
      · obtain ⟨n'', found', sameDecl⟩ := prunes.kept _ n' kept
        rw [found] at found'
        cases found'
        exact sameDecl ▸ prevails
      · exact left j later n' kept
    · -- the node is removed, and answered `none`; it does not come again
      have dropped : T.isPrevailing n.decl = false := by simpa using prevails
      have stepped : pruneStep T (acc, G) id = (acc.push none, G.removeNode id) := by
        simp [pruneStep, found, dropped]
      rw [stepped]
      have removal := prunes_removeNode found dropped
      have other : ∀ j ∈ l, j ≠ id := by
        rintro j listed rfl
        obtain ⟨n', found', prevails'⟩ := first j listed rfl
        rw [found] at found'
        cases found'
        exact prevails prevails'
      have same : ∀ j ∈ l, (G.removeNode id).node? j = (G.node? j).map (unlink id) := fun j listed => by
        rw [node?_removeNode found, if_neg (other j listed)]
      obtain ⟨answers, prunes, sound, left⟩ := prune_foldl l (acc.push none) (G.removeNode id)
        (fun j listed => by simpa [same j listed] using live j (List.mem_cons_of_mem _ listed))
        (rest.imp_of_mem fun {a} {b} listed _ again equal => by
          obtain ⟨n', found', prevails'⟩ := again equal
          exact ⟨unlink id n', by rw [same a listed, found', Option.map_some], prevails'⟩)
      refine ⟨?_, removal.trans prunes, fun sound₀ => sound (sound₀.removeNode id), fun j listed n' kept => ?_⟩
      · rw [answers]
        have answered : l.map (prunedAnswer T (G.removeNode id)) = l.map (prunedAnswer T G) :=
          List.map_congr_left fun j listed => by
            cases found' : G.node? j <;> simp [prunedAnswer, same j listed, found', unlink]
        simp [answered, prunedAnswer, found, dropped]
      · rcases List.mem_cons.1 listed with rfl | later
        · -- the removed node is not live again
          obtain ⟨n'', found', -⟩ := prunes.kept _ n' kept
          rw [node?_removeNode found, if_pos rfl] at found'
          cases found'
        · exact left j later n' kept

end CallGraph

end IrStream
