import Mathlib
import IrStream.Proofs.CallGraph.SectionStream

/-!
# Reading a call-graph section back

Each part of the call-graph reader, run over the bytes the writer puts down,
as a `GraphReadM.Reads` fact: what it answers and the graph it leaves.

* `GraphReadM.node_reads`: a node record lands in the node of its declaration,
  or in a new clone of it (`CallGraph.recordNode`), which takes every field of
  the record (`CgNode.recordFields`); the inline target comes back raw;
* `GraphReadM.edge_reads`: an edge record between live nodes, from a caller
  that prevails and to a callee that stays, adds the edge between the nodes
  its numbers name;
* `GraphReadM.forIn_records`: the record loops, for any body described round
  by round, so that no lemma has to match the loop's elaborated body; from it
  `GraphReadM.nodes_reads` and `GraphReadM.edges_reads`;
* `GraphReadM.resolveTargets_reads`: raw inline targets resolved one by one
  (`CallGraph.inlineAll`);
* `CallGraph.readSection_of_phases`: a section read is its four phases, and
  when every node read prevails it answers them all.
-/

namespace IrStream

theorem CursorM.Reads.u8 (b : UInt8) : CursorM.Reads CursorM.readU8 [b] b :=
  fun _ _ ahead => CursorM.readU8_of_ahead ahead

namespace GraphReadM

namespace Reads

variable {α β : Type} {g g₁ g₂ : CallGraph} {p q : List UInt8} {a : α}

/-- A loop whose fuel is one more than the bytes left reads what it reads with
any fuel above the length of what it reads. -/
theorem fuelled {l : Nat → GraphReadM α} {k : α → GraphReadM β} {b : β} (bound : Nat)
    (enough : ∀ fuel, bound < fuel → Reads (l fuel) g p a g₁) (short : bound ≤ p.length)
    (next : Reads (k a) g₁ q b g₂) :
    Reads (get >>= fun (s : GraphReader) => l (s.cursor.remaining + 1) >>= k) g (p ++ q) b g₂ := by
  intro prog c rest same ahead
  have left := Cursor.length_le_remaining ahead
  rw [List.length_append] at left
  exact (enough (c.remaining + 1) (by omega)).bind next prog c rest same ahead

theorem congr_value {m : GraphReadM α} {a' : α} (same : a = a') (reads : Reads m g p a g₁) : Reads m g p a' g₁ :=
  same ▸ reads

/-- A field read and stored in the inline data of node `id`. -/
theorem store {m : CursorM α} (reads : CursorM.Reads m p a) (id : CgNodeId) (f : α → InlineGlobal → InlineGlobal)
    {k : α → Unit → GraphReadM β} {b : β}
    (next : Reads (k a ()) (g.modifyNode id fun n => { n with global := f a n.global }) q b g₂) :
    Reads (GraphReadM.cur m >>= fun v => GraphReadM.modifyGlobal id (f v) >>= k v) g (p ++ q) b g₂ :=
  (Reads.cur reads g).bind ((Reads.modifyGlobal id (f a) g).bind_nil next)

end Reads

end GraphReadM

namespace CallGraph

/-- Two changes of one node are one change. -/
theorem modifyNode_modifyNode (g : CallGraph) (id : CgNodeId) (f f' : CgNode → CgNode) :
    (g.modifyNode id f).modifyNode id f' = g.modifyNode id (f' ∘ f) := by
  simp only [modifyNode, CallGraph.mk.injEq, and_true]
  apply Array.ext_getElem?
  intro i
  simp only [Array.getElem?_modify]
  split <;> simp [Option.map_map]

/-- The node a record of declaration `d` lands in: the declaration's node,
made on first request, or for a clone a new node made from it. -/
def recordNode (g : CallGraph) (d : NodeId) (clone : Bool) : CgNodeId × CallGraph :=
  let (of, g) := g.getOrCreate d
  if clone then
    match g.createClone of with
    | some made => made
    | none => (of, g)
  else (of, g)

end CallGraph

namespace CgNode

/-- The availability a record's tag and flags give: a bodiless tag, an
overwritable one, or a body that the local flag makes the program's own. -/
def readAvailability (tag : UInt8) (flags : CgraphFlags) : Availability :=
  if tag == GraphTag.unavailable then .notAvailable
  else if tag == GraphTag.overwritable then .overwritable
  else if flags.isLocal then .programLocal
  else .available

/-- What the record of `n` sets in the node it lands in: every field but the
declaration and the clone link, the inline target left for later. -/
def recordFields (n : CgNode) (boundary : Bool) (m : CgNode) : CgNode :=
  { m with
    availability := readAvailability (n.tag boundary) (n.sectionFlags boundary)
    flags := n.sectionFlags boundary
    count := n.count
    summary := if n.tag boundary != GraphTag.unavailable then n.summary else {}
    global := { n.global with inlinedTo := none } }

theorem tag_valid (n : CgNode) (boundary : Bool) :
    (!(n.tag boundary == GraphTag.unavailable || n.tag boundary == GraphTag.available ||
      n.tag boundary == GraphTag.overwritable)) = false := by
  unfold tag
  split
  · rfl
  · split <;> rfl

theorem tag_ne_done (n : CgNode) (boundary : Bool) : (n.tag boundary == GraphTag.done) = false := by
  unfold tag
  split
  · rfl
  · split <;> rfl

end CgNode

namespace GraphReadM

/-- A node record reads back into the node of its declaration, or into a new
clone of it: that node takes the record's fields, and the record's inline
target comes back raw, unless it is -1. -/
theorem node_reads {decls : UnitDecls} (g : CallGraph) (n : CgNode) (boundary clone : Bool) {index : Nat}
    (target : Int64) {d : NodeId} (entry : (decls.table .function)[index]? = some d) (fits : index < 2 ^ 64)
    (live : clone = true → ((g.getOrCreate d).2.node? (g.getOrCreate d).1).isSome) :
    Reads (node decls (n.tag boundary)) g (n.record boundary clone index target)
      ((g.recordNode d clone).1, if target == -1 then none else some target)
      ((g.recordNode d clone).2.modifyNode (g.recordNode d clone).1 (n.recordFields boundary)) := by
  have valid := n.tag_valid boundary
  simp only [CgNode.record, List.append_assoc]
  unfold node
  simp only [valid, Bool.false_eq_true, if_false]
  refine (Reads.cur (CursorM.Reads.uleb _) g).bind ?_
  have index64 : index.toUInt64.toNat = index := by
    rw [Nat.toUInt64_eq, UInt64.toNat_ofNat_of_lt' fits]
  have got : decls.get .function index.toUInt64 = .ok d := by
    simp [UnitDecls.get, index64, entry]
  simp only [GraphWriteM.flag_ne_zero]
  refine (Reads.cur (CursorM.Reads.uleb _) g).bind ?_
  simp only [got]
  refine (Reads.lift d g).bind_nil ?_
  refine (Reads.cur (CursorM.Reads.sleb _) g).bind ?_
  refine (Reads.cur (CursorM.Reads.uleb _) g).bind ?_
  rw [Flags.pack_toUInt64_toNat _ (by decide), CgraphFlags.unpack_pack]
  -- the summary, written for a node with a body only
  by_cases bodied : (n.tag boundary != GraphTag.unavailable) = true
  on_goal 1 =>
    simp only [bodied, if_true, List.flatMap_cons, List.flatMap_nil, List.append_nil, List.append_assoc]
    refine (Reads.cur (CursorM.Reads.sleb _) g).bind ?_
    refine (Reads.cur (CursorM.Reads.i32 _) g).bind ?_
    refine (Reads.cur (CursorM.Reads.i32 _) g).bind ?_
    refine (Reads.cur (CursorM.Reads.i32 _) g).bind ?_
    refine (Reads.cur (CursorM.Reads.i32 _) g).bind ?_
    refine (Reads.pure _ g).bind_nil ?_
  on_goal 2 =>
    rw [Bool.not_eq_true] at bodied
    simp only [bodied, Bool.false_eq_true, if_false, List.flatMap_nil, List.nil_append]
    simp only [List.flatMap_cons, List.flatMap_nil, List.append_nil, List.append_assoc]
    refine (Reads.pure _ g).bind_nil ?_
  -- the node the record lands in: a clone is made from the declaration's node
  all_goals
    refine (Reads.graph g).bind_nil ((Reads.setGraph g _).bind_nil ?_)
    cases clone
  all_goals first
    | obtain ⟨m, found⟩ := Option.isSome_iff_exists.1 (live rfl)
      simp only [CallGraph.recordNode, CallGraph.createClone, found, Option.map_some, if_true]
      refine (Reads.setGraph _ _).bind_nil ((Reads.pure _ _).bind_nil ?_)
    | refine (Reads.pure _ _).bind_nil ?_
  -- the record's fields, then its estimates one at a time
  all_goals
    refine (Reads.modifyNode _ _ _).bind_nil ?_
    refine Reads.store (CursorM.Reads.sleb _) _ _ ?_
    refine Reads.store (CursorM.Reads.sleb _) _ _ ?_
    refine Reads.store (CursorM.Reads.sleb _) _ _ ?_
    refine Reads.store (CursorM.Reads.i32 _) _ _ ?_
    refine Reads.store (CursorM.Reads.i32 _) _ _ ?_
    refine Reads.store (CursorM.Reads.i32 _) _ _ ?_
    rw [← List.append_nil (Leb128.ofUInt64 (GraphWriteM.flag n.global.inlined))]
    refine Reads.store (CursorM.Reads.uleb _) _ _ ?_
    refine (Reads.pure _ _).congr_graph ?_
    simp only [CallGraph.modifyNode_modifyNode, CallGraph.recordNode, Bool.false_eq_true, if_false]
    congr 1
    funext m
    simp [CgNode.recordFields, CgNode.readAvailability, bodied]

/-- A loop over the records of `items` that ends on the end tag: every round
reads one record, from the graph and state the records before it left, and goes
on, and a round past the last record reads the end tag and stops. Given more
rounds than there are records left, the loop reads them all and the end tag. -/
theorem forIn_records {ρ σ β : Type} {body : Nat → Option ρ × σ → GraphReadM (ForInStep (Option ρ × σ))}
    (items : List β) (bytes : β → List UInt8) (next : CallGraph → β → CallGraph) (push : σ → β → σ)
    (out : σ → ρ) (g₀ : CallGraph) (st₀ : σ)
    (round : ∀ i done x rest, done ++ x :: rest = items →
      Reads (body i (none, done.foldl push st₀)) (done.foldl next g₀) (bytes x)
        (.yield (none, push (done.foldl push st₀) x)) (next (done.foldl next g₀) x))
    (stop : ∀ i, Reads (body i (none, items.foldl push st₀)) (items.foldl next g₀) [GraphTag.done]
      (.done (some (out (items.foldl push st₀)), items.foldl push st₀)) (items.foldl next g₀)) :
    ∀ rest done, done ++ rest = items → ∀ (s n : Nat), rest.length < n →
      Reads (forIn (List.range' s n) (none, done.foldl push st₀) body) (done.foldl next g₀)
        (rest.flatMap bytes ++ [GraphTag.done])
        (some (out (items.foldl push st₀)), items.foldl push st₀) (items.foldl next g₀) := by
  intro rest
  induction rest with
  | nil =>
    intro done whole s n long
    obtain ⟨m, rfl⟩ : ∃ m, n = m + 1 := ⟨n - 1, by simp at long; omega⟩
    rw [List.append_nil] at whole
    subst whole
    rw [List.range'_succ, List.forIn_cons, List.flatMap_nil, List.nil_append, ← List.append_nil [GraphTag.done]]
    exact (stop s).bind (Reads.pure _ _)
  | cons x rest ih =>
    intro done whole s n long
    obtain ⟨m, rfl⟩ : ∃ m, n = m + 1 := ⟨n - 1, by simp at long; omega⟩
    have reads := ih (done ++ [x]) (by simpa using whole) (s + 1) m (by simp at long; omega)
    rw [List.foldl_append, List.foldl_append, List.foldl_cons, List.foldl_cons, List.foldl_nil,
      List.foldl_nil] at reads
    rw [List.range'_succ, List.forIn_cons, List.flatMap_cons, List.append_assoc]
    exact (round s done x rest whole).bind reads

/-- The node records of `items`, then the end tag, each record read from the
graph the ones before it left: the reader answers every record's node, in
order, and the raw inline targets the records name, in order. -/
theorem nodes_reads {β : Type} {decls : UnitDecls} (items : List β) (tag : β → UInt8) (bytes : β → List UInt8)
    (answer : β → CgNodeId × Option Int64) (next : CallGraph → β → CallGraph) (g₀ : CallGraph)
    (step : ∀ done x rest, done ++ x :: rest = items →
      (tag x == GraphTag.done) = false ∧
        Reads (node decls (tag x)) (done.foldl next g₀) (bytes x) (answer x) (next (done.foldl next g₀) x)) :
    Reads (nodes decls) g₀ (items.flatMap (fun x => tag x :: bytes x) ++ [GraphTag.done])
      ((items.map fun x => (answer x).1).toArray,
        items.filterMap fun x => (answer x).2.map ((answer x).1, ·)) (items.foldl next g₀) := by
  unfold nodes
  dsimp only
  rw [← List.append_nil (items.flatMap _ ++ [GraphTag.done])]
  refine Reads.fuelled (l := fun fuel => forIn [:fuel] _ _)
    (a := (some ((items.map fun x => (answer x).1).toArray,
        items.filterMap fun x => (answer x).2.map ((answer x).1, ·)),
      (items.map fun x => (answer x).1).toArray,
        (items.filterMap fun x => (answer x).2.map ((answer x).1, ·)).reverse))
    items.length (fun fuel more => ?_) (by simp; omega) (Reads.pure _ _)
  rw [Std.Legacy.Range.forIn_eq_forIn_range']
  -- the loop keeps the nodes so far and the targets, last first
  let push : Array CgNodeId × List (CgNodeId × Int64) → β → Array CgNodeId × List (CgNodeId × Int64) :=
    fun st x => (st.1.push (answer x).1, ((answer x).2.map ((answer x).1, ·)).toList ++ st.2)
  have pushed : ∀ (l : List β) acc tg, l.foldl push (acc, tg) =
      (acc ++ (l.map fun x => (answer x).1).toArray, (l.filterMap fun x => (answer x).2.map ((answer x).1, ·)).reverse ++ tg) := by
    intro l
    induction l with
    | nil => simp
    | cons x l ih =>
      intro acc tg
      cases found : (answer x).2 <;> simp [push, ih, found]
  refine Reads.congr_value ?_ (forIn_records items (fun x => tag x :: bytes x) next push
    (fun st => (st.1, st.2.reverse)) g₀ (#[], []) ?round ?stop items [] (by simp) _ _
    (by simpa [Std.Legacy.Range.size] using more))
  case round =>
    intro i done x rest position
    obtain ⟨notDone, reads⟩ := step done x rest position
    refine (Reads.cur (CursorM.Reads.u8 (tag x)) _).bind ?_
    simp only [notDone, Bool.false_eq_true, if_false]
    rw [← List.append_nil (bytes x)]
    refine reads.bind ?_
    cases found : (answer x).2 <;> simp only [push, found] <;> exact Reads.pure _ _
  case stop =>
    intro i
    refine Reads.congr_bytes (List.append_nil _) ((Reads.cur (CursorM.Reads.u8 GraphTag.done) _).bind ?_)
    exact Reads.pure _ _
  simp [pushed]

/-- A section number below 2^63 is written as a word that is not negative and
not -1, and whose value is the number. -/
theorem sectionNumber {i : Nat} (small : i < 2 ^ 63) :
    ¬ Int64.ofNat i < 0 ∧ (Int64.ofNat i).toInt.toNat = i ∧ Int64.ofNat i ≠ -1 := by
  have value := Int64.toInt_ofNat_of_lt small
  refine ⟨?_, by rw [value]; simp, fun same => ?_⟩
  · rw [Int64.lt_iff_toInt_lt, value]
    simp
  · have := congrArg Int64.toInt same
    rw [value] at this
    simp at this

/-- A section number names the node at its place among the nodes read. -/
theorem nodeAt_reads (g : CallGraph) {nodes : Array CgNodeId} {i : Nat} {id : CgNodeId}
    (found : nodes[i]? = some id) (small : i < 2 ^ 63) : Reads (nodeAt nodes (Int64.ofNat i)) g [] id g := by
  obtain ⟨nonneg, value, -⟩ := sectionNumber small
  simp only [nodeAt, nonneg, if_false, value, found]
  exact Reads.pure id g

/-- An edge record between two live nodes, from a caller that prevails on its
own and to a callee that stays, reads back as the edge between the nodes its
numbers name. -/
theorem edge_reads {nodes : Array CgNodeId} {symtab : SymbolTable} (g : CallGraph) (e : CgEdge) {i j : Nat}
    {caller callee : CgNodeId} (atI : nodes[i]? = some caller) (atJ : nodes[j]? = some callee)
    (smallI : i < 2 ^ 63) (smallJ : j < 2 ^ 63) {m m' : CgNode} (callerLive : g.node? caller = some m)
    (calleeLive : g.node? callee = some m') (quiet : symtab.resolution? m.decl = none)
    (prevails : symtab.isPrevailing m.decl = true) (stays : symtab.prevailing m'.decl = m'.decl) :
    Reads (edge nodes symtab) g (e.record i j) true (g.addEdge { e with caller, callee }) := by
  have small := InlineFailed.code_lt e.inlineFailed
  have code : e.inlineFailed.code.toUInt32.toNat = e.inlineFailed.code := by
    rw [Nat.toUInt32_eq, UInt32.toNat_ofNat_of_lt' small]
  have reason : e.inlineFailed.code.toUInt64 = e.inlineFailed.code.toUInt32.toUInt64 := by
    apply UInt64.toNat_inj.1
    have fits : e.inlineFailed.code < 2 ^ 64 := by omega
    rw [UInt32.toNat_toUInt64, code, Nat.toUInt64_eq, UInt64.toNat_ofNat_of_lt' fits]
  simp only [CgEdge.record, List.append_assoc, reason]
  unfold edge
  refine (Reads.cur (CursorM.Reads.sleb _) g).bind ((nodeAt_reads g atI smallI).bind_nil ?_)
  refine (Reads.cur (CursorM.Reads.sleb _) g).bind ((nodeAt_reads g atJ smallJ).bind_nil ?_)
  refine (Reads.cur (CursorM.Reads.u32 _) g).bind ?_
  refine (Reads.cur (CursorM.Reads.u32 _) g).bind ?_
  simp only [code, InlineFailed.ofCode?_code]
  refine (Reads.cur (CursorM.Reads.sleb _) g).bind ?_
  refine (Reads.cur (CursorM.Reads.u32 _) g).bind ?_
  refine (Reads.cur (CursorM.Reads.u32 _) g).bind ?_
  rw [← List.append_nil (Leb128.ofUInt64 _)]
  refine (Reads.cur (CursorM.Reads.uleb _) g).bind ?_
  -- the declarations of both ends, which decide where the call goes
  simp only [bind_assoc]
  refine (Reads.graph g).bind_nil ?_
  simp only [callerLive, pure_bind]
  refine (Reads.graph g).bind_nil ?_
  simp only [calleeLive, pure_bind, quiet, prevails, stays, Option.any_none, Bool.not_true, Bool.and_false,
    bne_self_eq_false, Bool.false_eq_true, if_false, show (none == some Resolution.preempted) = false from rfl]
  rw [Flags.pack_toUInt64_toNat _ (by decide), EdgeFlags.unpack_pack]
  exact (Reads.graph g).bind_nil ((Reads.setGraph g _).bind_nil (Reads.pure true _))

/-- The edge records of `items`, then the end tag, each record read from the
graph the ones before it left. -/
theorem edges_reads {β : Type} {nodes : Array CgNodeId} {symtab : SymbolTable} (items : List β)
    (bytes : β → List UInt8) (kept : β → Bool) (next : CallGraph → β → CallGraph) (g₀ : CallGraph)
    (step : ∀ done x rest, done ++ x :: rest = items →
      Reads (edge nodes symtab) (done.foldl next g₀) (bytes x) (kept x) (next (done.foldl next g₀) x)) :
    Reads (edges nodes symtab) g₀ (items.flatMap (fun x => GraphTag.edge :: bytes x) ++ [GraphTag.done]) ()
      (items.foldl next g₀) := by
  unfold edges
  rw [← List.append_nil (items.flatMap _ ++ [GraphTag.done])]
  refine Reads.fuelled (l := fun fuel => forIn [:fuel] _ _) (a := (some (), ())) items.length
    (fun fuel more => ?_) (by simp; omega) (Reads.pure _ _)
  rw [Std.Legacy.Range.forIn_eq_forIn_range']
  refine forIn_records items (fun x => GraphTag.edge :: bytes x) next (fun _ _ => ()) (fun _ => ()) g₀ ()
    ?round ?stop items [] (by simp) _ _ (by simpa [Std.Legacy.Range.size] using more)
  case round =>
    intro i done x rest position
    refine (Reads.cur (CursorM.Reads.u8 GraphTag.edge) _).bind ?_
    simp only [show (GraphTag.edge == GraphTag.done) = false from rfl,
      show (GraphTag.edge != GraphTag.edge) = false from rfl, Bool.false_eq_true, if_false]
    rw [← List.append_nil (bytes x)]
    exact (step done x rest position).bind (Reads.pure _ _)
  case stop =>
    intro i
    refine Reads.congr_bytes (List.append_nil _) ((Reads.cur (CursorM.Reads.u8 GraphTag.done) _).bind ?_)
    exact Reads.pure _ _

end GraphReadM

/-- The graph once the node `x.1` of every pair of `targets` is inlined into
`target x`. -/
def CallGraph.inlineAll (g : CallGraph) (targets : List (CgNodeId × Int64))
    (target : CgNodeId × Int64 → CgNodeId) : CallGraph :=
  targets.foldl (fun g x => g.modifyNode x.1 fun n =>
    { n with global := { n.global with inlinedTo := some (target x) } }) g

namespace GraphReadM

/-- Raw inline targets that each name a node read are resolved one after
another, reading nothing. -/
theorem resolveTargets_reads {nodes : Array CgNodeId} (target : CgNodeId × Int64 → CgNodeId) :
    ∀ (targets : List (CgNodeId × Int64)) (g : CallGraph),
      (∀ x ∈ targets, ∃ i, x.2 = Int64.ofNat i ∧ i < 2 ^ 63 ∧ nodes[i]? = some (target x)) →
      Reads (resolveTargets nodes targets) g [] () (g.inlineAll targets target)
  | [], g, _ => by
    unfold resolveTargets
    exact (Reads.pure _ g).bind_nil (Reads.pure _ g)
  | x :: targets, g, named => by
    obtain ⟨i, raw, small, found⟩ := named x List.mem_cons_self
    have rest := resolveTargets_reads target targets
      (g.modifyNode x.1 fun n => { n with global := { n.global with inlinedTo := some (target x) } })
      (fun y member => named y (List.mem_cons_of_mem _ member))
    unfold resolveTargets at rest ⊢
    rw [List.forIn_cons]
    obtain ⟨id, r⟩ := x
    simp only at raw
    subst raw
    simp only [bind_assoc]
    refine (nodeAt_reads g found small).bind_nil ((Reads.modifyGlobal _ _ _).bind_nil ?_)
    simpa [CallGraph.inlineAll] using rest

/-- A loop over `ids` whose every round reads nothing, keeps the graph and
pushes the id it is given answers them all. -/
theorem forIn_keeps {body : CgNodeId → Array (Option CgNodeId) → GraphReadM (ForInStep (Array (Option CgNodeId)))}
    (g : CallGraph) :
    ∀ (ids : List CgNodeId), (∀ id ∈ ids, ∀ acc, Reads (body id acc) g [] (.yield (acc.push (some id))) g) →
      ∀ acc, Reads (forIn ids acc body) g [] (acc ++ (ids.map some).toArray) g
  | [], _, acc => by simpa using Reads.pure acc g
  | id :: ids, round, acc => by
    rw [List.forIn_cons]
    refine (round id List.mem_cons_self acc).bind_nil ?_
    simpa using forIn_keeps g ids (fun id' member => round id' (List.mem_cons_of_mem _ member)) (acc.push (some id))

end GraphReadM

/-- Reading a call-graph section is its four phases: the node records, the
inline targets, the edge records, and a last pass that keeps the nodes whose
declarations prevail. When the first three read the main stream through and
every node read is live with a prevailing declaration, the section answers
every node read and the program takes the graph the edges left. -/
theorem CallGraph.readSection_of_phases {program : Program} {decls : UnitDecls} {data : ByteArray}
    {symtab : SymbolTable} {c : Cursor} (parsed : (SectionData.parse data .cgraph >>= (·.cursor .main)) = .ok c)
    {p q : List UInt8} (ahead : c.ahead = p ++ q) {ids : Array CgNodeId} {targets : List (CgNodeId × Int64)}
    {g₁ g₂ g₃ : CallGraph}
    (records : GraphReadM.Reads (GraphReadM.nodes decls) program.callgraph p (ids, targets) g₁)
    (resolved : GraphReadM.Reads (GraphReadM.resolveTargets ids targets) g₁ [] () g₂)
    (calls : GraphReadM.Reads (GraphReadM.edges ids symtab) g₂ q () g₃)
    (prevail : ∀ id ∈ ids, ∃ n, g₃.node? id = some n ∧ symtab.isPrevailing n.decl = true) :
    CallGraph.readSection program decls data symtab = (.ok (ids.toList.map some), { program with callgraph := g₃ }) := by
  unfold CallGraph.readSection
  simp only [parsed]
  have run : ∀ {α : Type} {m : GraphReadM α} {v : α} {h : CallGraph},
      GraphReadM.Reads m program.callgraph (p ++ q) v h →
        EStateM.run m { cursor := c, program } =
          .ok v { cursor := c.advance (p ++ q).length, program := { program with callgraph := h } } :=
    fun reads => reads program c [] rfl (by rw [ahead, List.append_nil])
  rw [run (v := ids.toList.map some) (h := g₃) ?read]
  refine records.bind ?_
  refine resolved.bind_nil ?_
  rw [← List.append_nil q]
  refine calls.bind ?_
  -- the last pass keeps every node
  dsimp only
  rw [← Array.forIn_toList]
  refine (GraphReadM.forIn_keeps g₃ ids.toList (fun id member acc => ?_) #[]).bind ?_
  · obtain ⟨n, live, prevails⟩ := prevail id (Array.mem_toList_iff.1 member)
    refine (GraphReadM.Reads.graph g₃).bind_nil ?_
    simp only [live, prevails, if_true]
    exact GraphReadM.Reads.pure _ _
  · exact (GraphReadM.Reads.pure _ _).congr_value (by simp)

end IrStream
