import IrStream.Service.Bodies
import IrStream.View.Program

/-!
Requests that drive one model value through a list of steps: a control-flow
graph, an exception-region table or a call graph, each step answering a
value or `null`; and the structural pairing of nodes of two programs.
-/

namespace IrStream.Service

/-- Run `step` over `steps` from `start`, collecting each step's answer. -/
def runSteps (start : σ) (steps : List Doc) (step : σ → Doc → Decode (Doc × σ)) : Decode Doc := do
  let (_, results) ← steps.foldlM (fun (acc : σ × Array Doc) d => do
    let (r, s) ← step acc.1 d
    return (s, acc.2.push r)) (start, #[])
  return .obj [("results", .arr results.toList)]

/-- The optional trailing number at position `i` of an argument list:
absent it is none, and given it has to be read. -/
def optionalAt (args : List Doc) (i : Nat) (f : Doc → Decode α) : Decode (Option α) :=
  match args[i]? with
  | none => pure none
  | some d => some <$> f d

/-- The largest block a step may name directly. -/
def largestStepBlock : Nat := 65536

/-- A block a step names, no larger than `largestStepBlock`. -/
def stepBlock (d : Doc) : Decode Nat := do
  let i ← nat d
  if largestStepBlock < i then refuse s!"{i} too large" else pure i

def cfgStep (g : Cfg) (step : Doc) : Decode (Doc × Cfg) := do
  match stepOf step with
  | some ("add_block", _) =>
    let (i, g) := g.addBlock
    return (.nat i, g)
  | some ("add_edge", a) =>
    let args := match a with
      | .arr args => args
      | _ => []
    let src :: dest :: flags :: _ := args
      | refuse "add_edge takes [src, dest, flags, probability?, count?]"
    let src ← stepBlock src
    let dest ← u32 dest
    let flags ← u32 flags
    let probability := (← optionalAt args 3 (i32Named "probability")).getD 10000
    let count := (← optionalAt args 4 i64).getD 0
    return (.null, g.addEdge src { dest, probability, count, flags })
  | some ("ensure_block", i) =>
    let g := g.ensureBlock (← stepBlock i)
    return (.nat g.lastBlock, g)
  | some ("remove_block", i) =>
    let i ← stepBlock i
    return (.null, { g with blocks := g.blocks.set i none })
  | some ("set_order", o) =>
    return (.null, { g with order := ← (← list o).mapM u32 })
  | some ("preds", i) =>
    return (.arr ((g.preds (← u32 i)).map fun p => .nat p.toNat), g)
  | some ("verify", _) => return (← verifyDoc g.verify, g)
  | some ("num_blocks", _) => return (.nat g.numBlocks, g)
  | some ("num_edges", _) => return (.nat g.numEdges, g)
  | some ("last", _) => return (.nat g.lastBlock, g)
  | some ("dump", _) => return (View.run (View.cfg Program.new.arena g), g)
  | some ("write", _) => return (hexDoc (Cfg.write .empty g), g)
  | some ("roundtrip", _) =>
    match Cursor.run "cfg" (Cfg.write .empty g) Cfg.read with
    | .ok back _ =>
      return (.obj [("equal", .bool (back == g)), ("cfg", View.run (View.cfg Program.new.arena back))], g)
    | .error e _ => return (streamError e, g)
  | some (name, _) => refuse s!"unknown cfg step {name}"
  | none => refuse s!"unknown cfg step {render step}"

def cfgOps (req : Doc) : Decode Doc := do
  let start := if req.field "start" matches .str "empty" then Cfg.empty else Cfg.initial
  runSteps start (← list (req.field "steps")) cfgStep

/-- A link to one of the regions of `t`. -/
def tableRegion (t : EhTable) : Doc → Decode (Option RegionId) :=
  regionIn t.regions.length fun i => s!"region {i} out of range"

/-- A region of `t` that must be given, as a number of the unsigned 64-bit
range or the text of one; `what` names it when it is not one. -/
def requiredRegion (t : EhTable) (what : String) (d : Doc) : Decode RegionId := do
  let i ← match d with
    | .int i => pure i
    | .str s => match parseInt? s with
      | some i => pure i
      | none => refuse what
    | _ => refuse what
  if i < 0 ∨ Nat.pow 2 64 ≤ i then refuse what
  if i.toNat < t.regions.length then pure ⟨i.toNat⟩ else refuse s!"region {i} out of range"

/-- A region kind, an object with the kind's name and links into `t`; a
table alone holds no nodes, so the kind's node references are left out. -/
def regionKindOf (t : EhTable) (d : Doc) : Decode EhKind := do
  discard (members d)
  return (← buildOn Program.new (ehKindOf (fun _ => pure none) (tableRegion t) d)).1

def ehStep (t : EhTable) (step : Doc) : Decode (Doc × EhTable) := do
  match stepOf step with
  | some ("add_region", d) =>
    let (id, t) := t.addRegion (← regionKindOf t d) (← tableRegion t (d.field "outer"))
    return (.nat id.val, t)
  | some ("add_alias", r) =>
    let (n, t) := t.addAlias (← requiredRegion t "alias target" r)
    return (.nat n.toNat, t)
  | some ("set_kind", a) =>
    let .arr [r, k] := a | refuse "set_kind takes [region, kind]"
    let r ← requiredRegion t "region" r
    let kind ← regionKindOf t k
    return (.null, t.modifyRegion r fun reg => { reg with kind })
  | some ("set_throw", r) =>
    let r ← requiredRegion t "region" r
    return (.null, t.modifyRegion r fun reg => { reg with mayContainThrow := true })
  | some ("push_slot", r) => return (.null, { t with slots := t.slots ++ [← tableRegion t r] })
  | some ("set_root", r) => return (.null, { t with root := ← tableRegion t r })
  | some ("lookup", n) => return (Doc.opt (fun r => .nat r.number.toNat) (t.lookup (← u32Named "number" n).toNat), t)
  | some ("verify", _) => return (← verifyDoc t.verify, t)
  | some ("dump", _) => return (View.run (View.ehTable Program.new.arena t), t)
  | some (name, _) => refuse s!"unknown eh step {name}"
  | none => refuse s!"unknown eh step {render step}"

def ehOps (req : Doc) : Decode Doc := do
  runSteps ({} : EhTable) (← list (req.field "steps")) ehStep

def cgNodeOf (d : Doc) : Decode CgNodeId := return ⟨(← u32Named "id" d).toNat⟩

def declOf (d : Doc) : Decode NodeId := return ⟨(← u32Named "id" d).toNat⟩

def cgDoc (id : CgNodeId) : Doc := .nat id.val

def graphStep (g : CallGraph) (step : Doc) : Decode (Doc × CallGraph) := do
  match stepOf step with
  | some ("get_or_create", d) =>
    let (id, g) := g.getOrCreate (← declOf d)
    return (cgDoc id, g)
  | some ("create_clone", n) =>
    match g.createClone (← cgNodeOf n) with
    | some (id, g) => return (cgDoc id, g)
    | none => return (.null, g)
  | some ("add_edge", .arr [a, b, uid]) =>
    return (.null, g.addEdge { caller := ← cgNodeOf a, callee := ← cgNodeOf b, stmtUid := ← u32 uid })
  | some ("remove_node", n) => return (.null, g.removeNode (← cgNodeOf n))
  | some ("replace_decl", .arr [a, b]) => return (.null, g.replaceDecl (← declOf a) (← declOf b))
  | some ("set_inlined_to", .arr [n, t]) =>
    let node ← cgNodeOf n
    let target ← match t with
      | .null => pure none
      | t => some <$> cgNodeOf t
    return (.null, g.modifyNode node fun node =>
      { node with global := { node.global with inlinedTo := target } })
  | some ("node_for_decl", d) => return (Doc.opt cgDoc (g.nodeForDecl (← declOf d)), g)
  | some ("node", n) =>
    return (Doc.opt (fun node => .obj [("decl", .nat node.decl.val),
      ("clone_of", Doc.opt cgDoc node.cloneOf), ("inlined_to", Doc.opt cgDoc node.global.inlinedTo)])
      (g.node? (← cgNodeOf n)), g)
  | some ("callees", n) =>
    return (.arr ((g.callees (← cgNodeOf n)).map fun e => .arr [cgDoc e.callee, .nat e.stmtUid.toNat]), g)
  | some ("callers", n) =>
    return (.arr ((g.callers (← cgNodeOf n)).map fun e => .arr [cgDoc e.caller, .nat e.stmtUid.toNat]), g)
  | some ("edges", _) =>
    return (.arr (g.edges.toList.map fun e => .arr [cgDoc e.caller, cgDoc e.callee, .nat e.stmtUid.toNat]), g)
  | some ("num_nodes", _) => return (.nat g.numNodes, g)
  | some ("node_ids", _) => return (.arr (g.nodeIds.map cgDoc), g)
  | _ => refuse s!"unknown call-graph step {render step}"

def callGraphOps (req : Doc) : Decode Doc := do
  runSteps ({} : CallGraph) (← list (req.field "steps")) graphStep

/-- Pair nodes of two programs in order with one equivalence, answering
each pair's verdict and the mismatch that ended the pairing, if any. -/
def equiv (req : Doc) : Decode Doc := do
  let (left, ls) ← programOf (req.field "left")
  let (right, rs) ← programOf (req.field "right")
  let (_, _, e, results) ← (← list (req.field "pairs")).foldlM
    (fun (acc : Program × Program × Equivalence × Array Doc) pair => do
      let (left, right, e, results) := acc
      let .arr [l, r] := pair | refuse "a pair needs two references"
      let (l, left) ← buildOn left (nodeRef ls l)
      let (r, right) ← buildOn right (nodeRef rs r)
      let (ok, e) := e.check left.arena right.arena l r
      return (left, right, e, results.push (.bool ok))) (left, right, {}, #[])
  return .obj [("results", .arr results.toList),
    ("mismatch", Doc.opt (fun m => .str (Text.scrub m)) e.mismatch)]

end IrStream.Service
