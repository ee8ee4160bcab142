import Mathlib
import IrStream.Proofs.CallGraph.SectionRoundTrip

/-!
# Reading a section into a merged graph

In a session, `CallGraph.readSection` reads each unit's call-graph section
into the graph the units before it left, against a symbol table that already
knows every copy. Its edge records may then fail, be dropped, or be moved to
the prevailing copy of their callee, and its last pass removes the nodes whose
declarations do not prevail. This module states each of those phases as a
function of the graph, so that a section read is their composition.

* `GraphReadM.Fails` and `GraphReadM.Runs`: a reader part that fails on every
  reader, and one that either reads (`Reads`) or fails, as an `Option` says;
* `CallGraph.mergeCall`: what one edge record does to the graph, and
  `GraphReadM.edge_runs` that the record's reader does it;
* `GraphReadM.edges_runs`: the edge records, one `mergeCall` after another,
  failing where the first of them fails;
* `CallGraph.pruneStep`: one round of the last pass;
* `CallGraph.readSection_merges` and `CallGraph.readSection_refuses`: a
  section read whose edges merge answers what the last pass answers, and one
  whose edges fail is an error.
-/

namespace IrStream

namespace GraphReadM

/-- On every reader with `bs` ahead whose program has call graph `g`, `m`
fails. -/
def Fails {α : Type} (m : GraphReadM α) (g : CallGraph) (bs : List UInt8) : Prop :=
  ∀ (p : Program) (c : Cursor) (rest : List UInt8), p.callgraph = g → c.ahead = bs ++ rest →
    ∃ e s, m { cursor := c, program := p } = .error e s

namespace Fails

variable {α β : Type} {m : GraphReadM α} {g : CallGraph} {p : List UInt8}

theorem fail (e : StreamError) (g : CallGraph) : Fails (GraphReadM.fail e : GraphReadM α) g [] :=
  fun _ _ _ _ _ => ⟨e, _, rfl⟩

/-- A failure stops whatever comes after it. -/
theorem bind {k : α → GraphReadM β} (fails : Fails m g p) : Fails (m >>= k) g p := by
  intro prog c rest same ahead
  obtain ⟨e, s, failed⟩ := fails prog c rest same ahead
  refine ⟨e, s, ?_⟩
  show EStateM.bind m k _ = _
  simp only [EStateM.bind, failed]

/-- A part that fails on some bytes fails on any that go on from them. -/
theorem append (fails : Fails m g p) (q : List UInt8) : Fails m g (p ++ q) := by
  intro prog c rest same ahead
  exact fails prog c (q ++ rest) same (by rw [ahead, List.append_assoc])

end Fails

/-- A part that reads, then one that fails. -/
theorem Reads.bind_fails {α β : Type} {m : GraphReadM α} {k : α → GraphReadM β} {g g₁ : CallGraph}
    {p q : List UInt8} {a : α} (first : Reads m g p a g₁) (second : Fails (k a) g₁ q) :
    Fails (m >>= k) g (p ++ q) := by
  intro prog c rest same ahead
  rw [List.append_assoc] at ahead
  have ahead₂ : (c.advance p.length).ahead = q ++ rest := by simp [ahead]
  obtain ⟨e, s, failed⟩ := second { prog with callgraph := g₁ } _ rest rfl ahead₂
  refine ⟨e, s, ?_⟩
  show EStateM.bind m k _ = _
  rw [CursorM.bind_ok (first prog c _ same ahead), failed]

/-- What `m` does on every reader with `bs` ahead whose program has call graph
`g`: it answers `v` and leaves `g'` when `r` is `some (v, g')`, and fails when
`r` is `none`. -/
def Runs {α : Type} (m : GraphReadM α) (g : CallGraph) (bs : List UInt8) : Option (α × CallGraph) → Prop
  | some (v, g') => Reads m g bs v g'
  | none => Fails m g bs

namespace Runs

variable {α β : Type} {m : GraphReadM α} {g g₁ : CallGraph} {p q : List UInt8} {a : α}

@[simp] theorem some_iff {v : α} {g' : CallGraph} : Runs m g p (some (v, g')) ↔ Reads m g p v g' := Iff.rfl

@[simp] theorem none_iff : Runs m g p none ↔ Fails m g p := Iff.rfl

/-- A part that reads, then one that runs. -/
theorem bind {k : α → GraphReadM β} {r : Option (β × CallGraph)} (first : Reads m g p a g₁)
    (second : Runs (k a) g₁ q r) : Runs (m >>= k) g (p ++ q) r := by
  match r, second with
  | some (_, _), second => exact first.bind second
  | none, second => exact first.bind_fails second

theorem bind_nil {k : α → GraphReadM β} {r : Option (β × CallGraph)} (first : Reads m g [] a g₁)
    (second : Runs (k a) g₁ q r) : Runs (m >>= k) g q r :=
  Runs.bind first second

theorem congr_result {r r' : Option (α × CallGraph)} (same : r = r') (runs : Runs m g p r) : Runs m g p r' :=
  same ▸ runs

/-- A part that runs, then one that answers from its value and reads nothing. -/
theorem map {r : Option (α × CallGraph)} (runs : Runs m g p r) {k : α → GraphReadM β} (f : α → β)
    (each : ∀ a g', r = some (a, g') → Reads (k a) g' [] (f a) g') :
    Runs (m >>= k) g p (r.map fun x => (f x.1, x.2)) := by
  match r, runs, each with
  | some (v, g'), runs, each => exact Reads.congr_bytes (List.append_nil p) (Reads.bind runs (each v g' rfl))
  | none, runs, _ => exact Fails.bind runs

/-- A failure, whatever comes after it. -/
theorem fail_bind (e : StreamError) (g : CallGraph) {k : α → GraphReadM β} :
    Runs (GraphReadM.fail e >>= k) g [] none :=
  Fails.bind (Fails.fail e g)

/-- A loop whose fuel is one more than the bytes left runs as it runs with any
fuel above the length of what it reads. -/
theorem fuelled {l : Nat → GraphReadM α} {k : α → GraphReadM β} {r : Option (β × CallGraph)} (bound : Nat)
    (enough : ∀ fuel, bound < fuel → Runs (l fuel >>= k) g p r) (short : bound ≤ p.length) :
    Runs (get >>= fun (s : GraphReader) => l (s.cursor.remaining + 1) >>= k) g p r := by
  -- reading and failing are both statements about every reader, so one argument serves both
  rcases r with _ | ⟨_, _⟩ <;>
  · intro prog c rest same ahead
    have left := Cursor.length_le_remaining ahead
    exact enough (c.remaining + 1) (by omega) prog c rest same ahead

end Runs

end GraphReadM

namespace CallGraph

/-- What an edge record between the nodes `e.caller` and `e.callee` does to
the graph, against `T`: a call from a preempted copy is dropped (`false`); a
call from a copy that prevails neither by its resolution nor in the table, or
between nodes that are not both live, is refused (`none`); a call to a copy
that does not prevail moves to the node of the prevailing copy, made on first
request, unless the callee is a clone, which is refused. -/
def mergeCall (T : SymbolTable) (g : CallGraph) (e : CgEdge) : Option (Bool × CallGraph) :=
  match g.node? e.caller, g.node? e.callee with
  | some m, some m' =>
    if T.resolution? m.decl == some .preempted then some (false, g)
    else if !((T.resolution? m.decl).any Resolution.isPrevailing) && !T.isPrevailing m.decl then none
    else if T.prevailing m'.decl != m'.decl then
      if m'.cloneOf.isSome then none
      else some (true, (g.getOrCreate (T.prevailing m'.decl)).2.addEdge
        { e with callee := (g.getOrCreate (T.prevailing m'.decl)).1 })
    else some (true, g.addEdge e)
  | _, _ => none

end CallGraph

namespace GraphReadM

/-- An edge record between two nodes read does what `CallGraph.mergeCall`
says of the edge between them. -/
theorem edge_runs {nodes : Array CgNodeId} {symtab : SymbolTable} (g : CallGraph) (e : CgEdge) {i j : Nat}
    {caller callee : CgNodeId} (atI : nodes[i]? = some caller) (atJ : nodes[j]? = some callee)
    (smallI : i < 2 ^ 63) (smallJ : j < 2 ^ 63) :
    Runs (edge nodes symtab) g (e.record i j) (g.mergeCall symtab { e with caller, callee }) := by
  have small := InlineFailed.code_lt e.inlineFailed
  have code : e.inlineFailed.code.toUInt32.toNat = e.inlineFailed.code := by
    rw [Nat.toUInt32_eq, UInt32.toNat_ofNat_of_lt' small]
  have reason : e.inlineFailed.code.toUInt64 = e.inlineFailed.code.toUInt32.toUInt64 := by
    apply UInt64.toNat_inj.1
    have fits : e.inlineFailed.code < 2 ^ 64 := by omega
    rw [UInt32.toNat_toUInt64, code, Nat.toUInt64_eq, UInt64.toNat_ofNat_of_lt' fits]
  simp only [CgEdge.record, List.append_assoc, reason]
  unfold edge
  refine Runs.bind (Reads.cur (CursorM.Reads.sleb _) g) (Runs.bind_nil (nodeAt_reads g atI smallI) ?_)
  refine Runs.bind (Reads.cur (CursorM.Reads.sleb _) g) (Runs.bind_nil (nodeAt_reads g atJ smallJ) ?_)
  refine Runs.bind (Reads.cur (CursorM.Reads.u32 _) g) ?_
  refine Runs.bind (Reads.cur (CursorM.Reads.u32 _) g) ?_
  simp only [code, InlineFailed.ofCode?_code]
  refine Runs.bind (Reads.cur (CursorM.Reads.sleb _) g) ?_
  refine Runs.bind (Reads.cur (CursorM.Reads.u32 _) g) ?_
  refine Runs.bind (Reads.cur (CursorM.Reads.u32 _) g) ?_
  rw [← List.append_nil (Leb128.ofUInt64 _)]
  refine Runs.bind (Reads.cur (CursorM.Reads.uleb _) g) ?_
  rw [Flags.pack_toUInt64_toNat _ (by decide), EdgeFlags.unpack_pack]
  -- the declarations of both ends decide where the call goes
  simp only [bind_assoc]
  refine Runs.bind_nil (Reads.graph g) ?_
  cases callerLive : g.node? caller with
  | none =>
    simp only [CallGraph.mergeCall, callerLive]
    exact Runs.fail_bind _ g
  | some m =>
    simp only [pure_bind]
    refine Runs.bind_nil (Reads.graph g) ?_
    cases calleeLive : g.node? callee with
    | none =>
      simp only [CallGraph.mergeCall, callerLive, calleeLive]
      exact Runs.fail_bind _ g
    | some m' =>
      simp only [pure_bind, CallGraph.mergeCall, callerLive, calleeLive]
      by_cases preempted : (symtab.resolution? m.decl == some Resolution.preempted) = true
      · simp only [preempted, if_true, Runs.some_iff]
        exact Reads.pure false g
      simp only [preempted, Bool.false_eq_true, if_false]
      by_cases refused : (!Option.any Resolution.isPrevailing (symtab.resolution? m.decl) &&
          !symtab.isPrevailing m.decl) = true
      · simp only [refused, if_true]
        exact Runs.fail_bind _ g
      simp only [refused, Bool.false_eq_true, if_false]
      by_cases moved : (symtab.prevailing m'.decl != m'.decl) = true
      · -- the call moves to the prevailing copy, unless its callee is a clone
        simp only [moved, if_true]
        refine Runs.bind_nil (Reads.graph g) ?_
        simp only [calleeLive, Option.any_some]
        by_cases clone : m'.cloneOf.isSome = true
        · simp only [clone, if_true]
          exact Runs.fail_bind _ g
        · simp only [clone, Bool.false_eq_true, if_false, Runs.some_iff]
          exact (Reads.setGraph g _).bind_nil ((Reads.graph _).bind_nil
            ((Reads.setGraph _ _).bind_nil (Reads.pure true _)))
      · simp only [moved, Bool.false_eq_true, if_false, Runs.some_iff]
        exact (Reads.graph g).bind_nil ((Reads.setGraph g _).bind_nil (Reads.pure true _))

/-- A loop over the records of `items` that ends on the end tag, as in
`forIn_records`, whose rounds may fail: each round either reads its record
into the graph `step` gives, or fails. The loop then reads them all, or fails
at the first round that does. -/
theorem forIn_runs {ρ β : Type} {body : Nat → Option ρ × Unit → GraphReadM (ForInStep (Option ρ × Unit))}
    (items : List β) (bytes : β → List UInt8) (step : CallGraph → β → Option CallGraph) (v : ρ)
    (round : ∀ i g x, x ∈ items →
      Runs (body i (none, ())) g (bytes x) ((step g x).map fun g' => (.yield (none, ()), g')))
    (stop : ∀ i g, Reads (body i (none, ())) g [GraphTag.done] (.done (some v, ())) g) :
    ∀ rest : List β, (∀ x ∈ rest, x ∈ items) → ∀ (s n : Nat), rest.length < n → ∀ g,
      Runs (forIn (List.range' s n) (none, ()) body) g (rest.flatMap bytes ++ [GraphTag.done])
        ((rest.foldlM step g).map fun g' => ((some v, ()), g')) := by
  intro rest
  induction rest with
  | nil =>
    intro _ s n long g
    obtain ⟨m, rfl⟩ : ∃ m, n = m + 1 := ⟨n - 1, by simp at long; omega⟩
    rw [List.range'_succ, List.forIn_cons, List.flatMap_nil, List.nil_append, ← List.append_nil [GraphTag.done]]
    exact (stop s g).bind (Reads.pure _ _)
  | cons x rest ih =>
    intro listed s n long g
    obtain ⟨m, rfl⟩ : ∃ m, n = m + 1 := ⟨n - 1, by simp at long; omega⟩
    have first := round s g x (listed x List.mem_cons_self)
    rw [List.range'_succ, List.forIn_cons, List.flatMap_cons, List.append_assoc, List.foldlM_cons]
    cases stepped : step g x with
    | none =>
      rw [stepped] at first
      exact Fails.append (Fails.bind first) _
    | some g₁ =>
      rw [stepped] at first
      exact Runs.bind first (ih (fun y member => listed y (List.mem_cons_of_mem _ member)) (s + 1) m
        (by simp at long; omega) g₁)

/-- The edge records of `items`, then the end tag: each record does to the
graph what `step` says, and the records are read through, or the reader fails
at the first record that fails. -/
theorem edges_runs {β : Type} {nodes : Array CgNodeId} {symtab : SymbolTable} (items : List β)
    (bytes : β → List UInt8) (step : CallGraph → β → Option (Bool × CallGraph))
    (each : ∀ g x, x ∈ items → Runs (edge nodes symtab) g (bytes x) (step g x)) (g₀ : CallGraph) :
    Runs (edges nodes symtab) g₀ (items.flatMap (fun x => GraphTag.edge :: bytes x) ++ [GraphTag.done])
      ((items.foldlM (fun g x => (step g x).map Prod.snd) g₀).map fun g' => ((), g')) := by
  unfold edges
  refine Runs.fuelled (l := fun fuel => forIn [:fuel] _ _) items.length (fun fuel more => ?_) (by simp; omega)
  rw [Std.Legacy.Range.forIn_eq_forIn_range']
  -- the loop ends on the end tag, after which nothing is read
  refine Runs.congr_result ?_ (Runs.map (forIn_runs items (fun x => GraphTag.edge :: bytes x)
    (fun g x => (step g x).map Prod.snd) () ?round ?stop items (fun _ member => member) _ _
    (by simpa [Std.Legacy.Range.size] using more) g₀) (fun _ => ()) ?ended)
  · simp [Option.map_map, Function.comp_def]
  case ended =>
    intro a g' found
    obtain ⟨_, -, ended⟩ := Option.map_eq_some_iff.1 found
    obtain ⟨rfl, rfl⟩ := Prod.mk.inj ended
    exact Reads.pure _ _
  case round =>
    intro i g x member
    refine Runs.bind (Reads.cur (CursorM.Reads.u8 GraphTag.edge) _) ?_
    simp only [show (GraphTag.edge == GraphTag.done) = false from rfl,
      show (GraphTag.edge != GraphTag.edge) = false from rfl, Bool.false_eq_true, if_false]
    have mapped := Runs.map (each g x member)
      (k := fun _ => pure (ForInStep.yield ((none : Option Unit), ())))
      (fun _ => ForInStep.yield (none, ())) (fun _ g' _ => Reads.pure _ g')
    simpa [Option.map_map, Function.comp_def] using mapped
  case stop =>
    intro i g
    refine Reads.congr_bytes (List.append_nil _) ((Reads.cur (CursorM.Reads.u8 GraphTag.done) _).bind ?_)
    exact Reads.pure _ _

end GraphReadM

namespace CallGraph

/-- One round of the last pass of a section read, over the node the reader
made of one record: a live node whose declaration does not prevail is removed
and answered `none`; any other node is answered as it is. -/
def pruneStep (T : SymbolTable) (st : Array (Option CgNodeId) × CallGraph) (id : CgNodeId) :
    Array (Option CgNodeId) × CallGraph :=
  match st.2.node? id with
  | some n => if T.isPrevailing n.decl then (st.1.push (some id), st.2) else (st.1.push none, st.2.removeNode id)
  | none => (st.1.push (some id), st.2)

end CallGraph

namespace GraphReadM

/-- A loop over `ids` whose every round reads nothing and does what
`CallGraph.pruneStep` says does, over all of them, what the rounds do one
after another. -/
theorem forIn_prune {body : CgNodeId → Array (Option CgNodeId) → GraphReadM (ForInStep (Array (Option CgNodeId)))}
    (T : SymbolTable)
    (round : ∀ id acc g, Reads (body id acc) g [] (.yield (CallGraph.pruneStep T (acc, g) id).1)
      (CallGraph.pruneStep T (acc, g) id).2) :
    ∀ (ids : List CgNodeId) acc g, Reads (forIn ids acc body) g []
      (ids.foldl (CallGraph.pruneStep T) (acc, g)).1 (ids.foldl (CallGraph.pruneStep T) (acc, g)).2
  | [], acc, g => by simpa using Reads.pure acc g
  | id :: ids, acc, g => by
    rw [List.forIn_cons]
    refine (round id acc g).bind_nil ?_
    simpa using forIn_prune T round ids _ _

end GraphReadM

namespace CallGraph

variable {program : Program} {decls : UnitDecls} {data : ByteArray} {symtab : SymbolTable} {c : Cursor}
  {p q : List UInt8} {ids : Array CgNodeId} {targets : List (CgNodeId × Int64)} {g₁ g₂ g₃ : CallGraph}

/-- A section read whose node records, inline targets and edge records read
the main stream through answers, per node read, what the last pass answers,
and the program takes the graph the last pass leaves. -/
theorem readSection_merges (parsed : (SectionData.parse data .cgraph >>= (·.cursor .main)) = .ok c)
    (ahead : c.ahead = p ++ q)
    (records : GraphReadM.Reads (GraphReadM.nodes decls) program.callgraph p (ids, targets) g₁)
    (resolved : GraphReadM.Reads (GraphReadM.resolveTargets ids targets) g₁ [] () g₂)
    (calls : GraphReadM.Reads (GraphReadM.edges ids symtab) g₂ q () g₃) :
    readSection program decls data symtab =
      (.ok (ids.toList.foldl (pruneStep symtab) (#[], g₃)).1.toList,
        { program with callgraph := (ids.toList.foldl (pruneStep symtab) (#[], g₃)).2 }) := by
  unfold CallGraph.readSection
  simp only [parsed]
  have run : ∀ {α : Type} {m : GraphReadM α} {v : α} {h : CallGraph},
      GraphReadM.Reads m program.callgraph (p ++ q) v h →
        EStateM.run m { cursor := c, program } =
          .ok v { cursor := c.advance (p ++ q).length, program := { program with callgraph := h } } :=
    fun reads => reads program c [] rfl (by rw [ahead, List.append_nil])
  rw [run (v := (ids.toList.foldl (pruneStep symtab) (#[], g₃)).1.toList)
    (h := (ids.toList.foldl (pruneStep symtab) (#[], g₃)).2) ?read]
  refine records.bind ?_
  refine resolved.bind_nil ?_
  rw [← List.append_nil q]
  refine calls.bind ?_
  -- the last pass, one node at a time
  dsimp only
  rw [← Array.forIn_toList]
  refine (GraphReadM.forIn_prune symtab (fun id acc g => ?_) ids.toList #[] g₃).bind
    (GraphReadM.Reads.pure _ _)
  refine (GraphReadM.Reads.graph g).bind_nil ?_
  unfold pruneStep
  cases found : g.node? id with
  | none => exact GraphReadM.Reads.pure _ _
  | some n =>
    by_cases prevails : symtab.isPrevailing n.decl = true
    · simp only [prevails, if_true]
      exact GraphReadM.Reads.pure _ _
    · simp only [prevails, Bool.false_eq_true, if_false]
      exact (GraphReadM.Reads.setGraph g _).bind_nil (GraphReadM.Reads.pure _ _)

/-- A section read whose edge records fail is an error. -/
theorem readSection_refuses (parsed : (SectionData.parse data .cgraph >>= (·.cursor .main)) = .ok c)
    (ahead : c.ahead = p ++ q)
    (records : GraphReadM.Reads (GraphReadM.nodes decls) program.callgraph p (ids, targets) g₁)
    (resolved : GraphReadM.Reads (GraphReadM.resolveTargets ids targets) g₁ [] () g₂)
    (calls : GraphReadM.Fails (GraphReadM.edges ids symtab) g₂ q) :
    ∃ e program', readSection program decls data symtab = (.error e, program') := by
  unfold CallGraph.readSection
  simp only [parsed]
  have never : ∀ {α : Type} {m : GraphReadM α}, GraphReadM.Fails m program.callgraph (p ++ q) →
      ∀ r s, EStateM.run m { cursor := c, program } ≠ .ok r s := by
    intro α m fails r s ok
    obtain ⟨e, s', failed⟩ := fails program c [] rfl (by rw [ahead, List.append_nil])
    rw [EStateM.run, failed] at ok
    cases ok
  split
  · next r s ok =>
    refine absurd ok (never ?_ r s)
    exact records.bind_fails (resolved.bind_fails (GraphReadM.Fails.bind calls))
  · next e s _ => exact ⟨e, s.program, rfl⟩

end CallGraph

namespace CallGraph

section Landing

variable {G : CallGraph}

/-- A node pushed past the end leaves every other slot as it was. -/
theorem node?_push_ne (n : CgNode) {id : CgNodeId} (other : id ≠ (G.push n).1) :
    (G.push n).2.node? id = G.node? id := by
  have different : id.val ≠ G.nodes.size := fun same => other (by cases id; simp [push, ← same])
  simp [node?, push, Array.getElem?_push, different]

theorem node?_size : G.node? ⟨G.nodes.size⟩ = none := by
  simp [node?]

theorem IndexSound.push (sound : G.IndexSound) (n : CgNode) : (G.push n).2.IndexSound := by
  intro d i entry
  obtain ⟨m, found, sameDecl, primary⟩ := sound d i entry
  exact ⟨m, by rw [node?_push_of_lt n (lt_size_of_node? found)]; exact found, sameDecl, primary⟩

/-- What a record of declaration `d` does to a graph with a sound index, its
fields set by `f`, which keeps declarations and clone links. It lands in a node
of `d` that is a clone exactly when the record is one: a new clone, or `d`'s
primary node, made if `d` has none. Nothing else changes but the index entry of
`d`, and the node landed in was there before only as `d`'s primary node. A clone
record needs `d` to have a primary node already. -/
theorem recordNode_spec (sound : G.IndexSound) {d : NodeId} {clone : Bool}
    (first : clone = true → ∃ i, G.nodeForDecl d = some i)
    {f : CgNode → CgNode} (keeps : ∀ n, (f n).decl = n.decl ∧ (f n).cloneOf = n.cloneOf) :
    ((G.recordNode d clone).2.modifyNode (G.recordNode d clone).1 f).IndexSound ∧
      ((G.recordNode d clone).2.modifyNode (G.recordNode d clone).1 f).edges = G.edges ∧
      G.Grows ((G.recordNode d clone).2.modifyNode (G.recordNode d clone).1 f) ∧
      (∃ m, ((G.recordNode d clone).2.modifyNode (G.recordNode d clone).1 f).node? (G.recordNode d clone).1 = some m ∧
        m.decl = d ∧ m.cloneOf.isSome = clone) ∧
      (∀ id, id ≠ (G.recordNode d clone).1 →
        ((G.recordNode d clone).2.modifyNode (G.recordNode d clone).1 f).node? id = G.node? id) ∧
      (clone = false →
        ((G.recordNode d clone).2.modifyNode (G.recordNode d clone).1 f).nodeForDecl d = some (G.recordNode d clone).1) ∧
      (∀ e i, ((G.recordNode d clone).2.modifyNode (G.recordNode d clone).1 f).nodeForDecl e = some i →
        G.nodeForDecl e = some i ∨ (e = d ∧ i = (G.recordNode d clone).1)) ∧
      ((G.node? (G.recordNode d clone).1).isSome → clone = false ∧ G.nodeForDecl d = some (G.recordNode d clone).1) := by
  have keepsDecl : ∀ n, (f n).decl = n.decl := fun n => (keeps n).1
  cases clone with
  | true =>
    -- a new clone of the primary node, pushed past the end
    obtain ⟨i, indexed⟩ := first rfl
    obtain ⟨m, found, sameDecl, -⟩ := sound d i indexed
    have landed : G.recordNode d true = G.push { decl := m.decl, cloneOf := some i } := by
      simp [recordNode, getOrCreate_of_nodeForDecl G d i indexed, createClone, found]
    rw [landed, modifyNode_push]
    refine ⟨sound.push _, rfl, Grows.push G _, ⟨_, node?_push_self _, by simp [keeps, sameDecl], by simp [keeps]⟩,
      fun id other => node?_push_ne _ other, (fun wrong => by cases wrong), fun e j entry => .inl entry, fun old => ?_⟩
    simp [push, node?_size] at old
  | false =>
    cases absent : G.byDecl.get? d with
    | some i =>
      -- the primary node, whose fields the record sets
      have landed : G.recordNode d false = (i, G) := by
        simp [recordNode, getOrCreate_of_nodeForDecl G d i absent]
      obtain ⟨m, found, sameDecl, primary⟩ := sound d i absent
      rw [landed]
      refine ⟨sound.modifyNode i keeps, rfl, Grows.modifyNode G i keepsDecl,
        ⟨f m, by simp [node?_modifyNode, found], by rw [keepsDecl, sameDecl], by simp [keeps, primary]⟩,
        fun id other => (by rw [node?_modifyNode, if_neg (Ne.symm other)]),
        fun _ => absent, fun e j entry => .inl entry, fun _ => ⟨rfl, absent⟩⟩
    | none =>
      -- a new primary node, indexed under `d`
      have landed := getOrCreate_of_fresh absent
      have made : G.recordNode d false = G.getOrCreate d := by simp [recordNode]
      have sound₁ := sound.getOrCreate d
      have grows₁ := Grows.getOrCreate G d
      rw [made] at ⊢
      refine ⟨sound₁.modifyNode _ keeps, ?_, grows₁.trans (Grows.modifyNode _ _ keepsDecl), ?_, ?_, ?_, ?_, ?_⟩
      · rw [landed]
        rfl
      · rw [landed]
        refine ⟨f { decl := d }, ?_, by simp [keeps], by simp [keeps]⟩
        simp [modifyNode, node?, push, Array.modify_push_size]
      · intro id other
        rw [node?_modifyNode, if_neg (Ne.symm other), landed]
        exact node?_push_ne _ (by rwa [landed] at other)
      · intro _
        rw [landed]
        simp [modifyNode, nodeForDecl, push]
      · intro e j entry
        rw [landed] at entry ⊢
        simp only [modifyNode, nodeForDecl, Std.HashMap.get?_eq_getElem?, Std.HashMap.getElem?_insert] at entry ⊢
        split at entry
        · next same =>
          simp only [beq_iff_eq] at same
          exact .inr ⟨same.symm, (Option.some.inj entry).symm⟩
        · exact .inl entry
      · intro old
        rw [landed] at old
        simp [push, node?_size] at old

end Landing

end CallGraph

end IrStream
