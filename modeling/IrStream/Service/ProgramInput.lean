import IrStream.Service.Input
import IrStream.Program

/-!
Programs described in requests. The description lists nodes; references are
positions in that list, `@name` for a common node, or `$spelling` for the
identifier of that spelling. The program is built in a fixed order: the
common nodes, one slot per listed node (identifiers hash-consed), then each
node filled in, then the globals, the bodies and the call graph.
-/

namespace IrStream.Service

/-- Building a program; ids of the listed nodes are fixed before any is filled. -/
abbrev Build := StateT Program Decode

def fail (msg : String) : Build α := refuse msg

/-- The node a reference names. -/
def nodeRef (slots : Array NodeId) (d : Doc) : Build (Option NodeId) := do
  match d with
  | .null => pure none
  | .int k =>
    if 0 ≤ k then
      match slots[k.toNat]? with
      | some id => pure (some id)
      | none => fail s!"node index {k} out of range"
    else fail s!"node index {k} out of range"
  | .str s =>
    match s.toList with
    | '@' :: rest =>
      match CommonNode.ofName? (String.ofList rest) with
      | some c => pure (some c.id)
      | none => fail s!"unknown common node {s}"
    | '$' :: rest =>
      let p ← get
      let (id, p) := p.identifier (String.ofList rest)
      set p
      pure (some id)
    | _ => fail s!"bad node reference {s}"
  | _ => fail s!"bad node reference {render d}"

def liftD (m : Decode α) : Build α := fun p => do return (← m, p)

def refs (slots : Array NodeId) (d : Doc) : Build (List (Option NodeId)) := do
  (← liftD (list d)).mapM (nodeRef slots)

def refPairs (slots : Array NodeId) (d : Doc) : Build (List (Option NodeId × Option NodeId)) := do
  (← liftD (list d)).mapM fun e => do
    match ← liftD (list e) with
    | [a, b] => return (← nodeRef slots a, ← nodeRef slots b)
    | _ => fail "expected a pair"

def locusOf (d : Doc) : Decode (Option Locus) := do
  match d with
  | .null => pure none
  | .arr [f, l, c] => pure (some ⟨← str f, ← u32 l, ← u32 c⟩)
  | _ => refuse "expected a locus"

/-- Hex bytes under `key_hex` if that is a string, else the text under
`key`, which may be left out but is otherwise a string. -/
def bytesField (d : Doc) (key : String) : Decode (List UInt8) := do
  match text? (d.field (key ++ "_hex")) with
  | some h => return (← hexText h).toList
  | none => match ← optionalText d key with
    | some s => return s.toUTF8.toList
    | none => pure []

/-- The bits of a real constant: the raw bits under `bits` if the key is
there (null being zero), else the double the number under `value` reads as,
else zero. -/
def realBits (d : Doc) : Decode UInt64 :=
  match d.get? "bits" with
  | some _ => u64At d "bits"
  | none =>
    match d.field "value" with
    | .int i => pure (Double.ofInt i).toBits
    | .real x => pure x.toBits
    | _ => pure 0

/-- The payload a description gives to a node of code `code`. -/
def payloadOf (slots : Array NodeId) (code : TreeCode) (d : Doc) : Build NodeData := do
  let r (k : String) := nodeRef slots (d.field k)
  match code.layout with
  | .identifier => return .identifier ((text? (d.field "name")).getD "")
  | .integerCst => return .int (← liftD (u64At d "low")) (← liftD (i64At d "high"))
  | .realCst => return .real (← liftD (realBits d))
  | .complexCst => return .complex (← r "real") (← r "imag")
  | .vectorCst => return .vector (← refs slots (d.field "elts"))
  | .vec => return .vec (← refs slots (d.field "elts"))
  | .stringCst => return .str (← liftD (bytesField d "str"))
  | .list => return .list (← refPairs slots (d.field "entries"))
  | .binfo => do
    let b ← BinfoLink.all.foldlM (fun b l => return b.setLink (← r l.label) l) ({} : BinfoData)
    return .binfo { b with baseAccesses := ← refs slots (d.field "base_accesses"),
                           baseBinfos := ← refs slots (d.field "base_binfos") }
  | .type => do
    let t ← TypeLink.all.foldlM (fun t l => return t.setLink (← r l.label) l) ({} : TypeData)
    return .type { t with precision := ← liftD (u32At d "precision"),
                          mode := ← liftD (u32At d "mode"),
                          align := ← liftD (u32At d "align") }
  | .decl => do
    let x ← DeclLink.all.foldlM (fun x l => return x.setLink (← r l.label) l) ({} : DeclData)
    return .decl { x with align := ← liftD (u32At d "align"),
                          offAlign := ← liftD (u32At d "off_align"),
                          mode := ← liftD (u32At d "mode"),
                          builtinCode := ← liftD (u32At d "builtin_code") }
  | .constructor => return .constructor (← refPairs slots (d.field "elts"))
  | .call => return .call (← r "func") (← r "static_chain") (← refs slots (d.field "args"))
  | .caseLabel => return .caseLabel (← r "low") (← r "high") (← r "label")
  | .asm => return .asm (← liftD (bytesField d "asm")) (← r "inputs") (← r "outputs") (← r "clobbers")
  | .ssaName => return .ssa (← liftD (u32At d "version")) (← r "var")
  | .operands _ =>
    match d.field "ops" with
    | .null => return NodeData.ofLayout code.layout
    | ops => return .operands (← refs slots ops)

def codeOf (d : Doc) : Decode TreeCode := do
  let name ← requiredText d "code"
  match TreeCode.ofName? name with
  | some c => pure c
  | none => refuse s!"unknown tree code {name}"

/-- Fill the slot of a listed node. An identifier is left as the identifier
index made it: its spelling is all it has. -/
def fillNode (slots : Array NodeId) (id : NodeId) (d : Doc) : Build Unit := do
  let code ← liftD (codeOf d)
  if code == .identifierNode then return
  let ty ← nodeRef slots (d.field "ty")
  let flags ← liftD (flagsFrom TreeFlags.fields {} (d.field "flags"))
  let locus ← liftD (locusOf (d.field "locus"))
  let data ← payloadOf slots code d
  let data := if switch (d.field "empty_payload") then .empty else data
  modify fun p => { p with arena := p.arena.replace id { code, ty, flags, locus, data } }

/-- One slot per listed node, identifiers through the identifier index. -/
def allocNodes (nodes : List Doc) : Build (Array NodeId) :=
  nodes.foldlM (fun slots d => do
    let code ← liftD (codeOf d)
    let p ← get
    let (id, p) := if code == .identifierNode then
        p.identifier ((d.field "name" |> fun n => match n with | .str s => s | _ => ""))
      else p.alloc (Node.fresh code)
    set p
    return slots.push id) #[]

def regionRef (d : Doc) : Decode (Option RegionId) :=
  match d with
  | .null => pure none
  | _ => return some ⟨← nat d⟩

/-- A region link into a table of `count` regions; `message` says why an
index past them is refused. -/
def regionIn (count : Nat) (message : Nat → String) (d : Doc) : Decode (Option RegionId) := do
  match ← regionRef d with
  | some r => if r.val < count then pure (some r) else refuse (message r.val)
  | none => pure none

/-- A region link of a described table. -/
def listedRegion (count : Nat) : Doc → Decode (Option RegionId) :=
  regionIn count fun i => s!"region index {i} out of range"

/-- A region's kind, from its `kind` name (a cleanup unless a string names
another) and the links and nodes that kind carries; `region` reads a link and
`node` a node reference. -/
def ehKindOf (node : Doc → Build (Option NodeId)) (region : Doc → Decode (Option RegionId))
    (d : Doc) : Build EhKind := do
  let r (k : String) := node (d.field k)
  let g (k : String) := liftD (region (d.field k))
  match (text? (d.field "kind")).getD "cleanup" with
  | "cleanup" => pure .cleanup
  | "try" => return .tryBlock (← g "first_catch") (← g "last_catch")
  | "catch" => return .catchBlock (← g "next_catch") (← g "prev_catch") (← r "type_list") (← r "filter_list")
  | "allowed_exceptions" => return .allowedExceptions (← r "type_list") (← liftD (u32At d "filter"))
  | "must_not_throw" => pure .mustNotThrow
  | "throw" => return .throwType (← r "ty")
  | k => fail s!"unknown region kind {k}"

def ehOf (slots : Array NodeId) (d : Doc) : Build EhTable := do
  discard (liftD (fields d))
  let listed ← liftD (list (d.field "regions"))
  let link := listedRegion listed.length
  let regions ← listed.mapM fun rd => do
    let aka ← liftD ((← liftD (list (rd.field "aka"))).mapM u32)
    return ({ number := ← liftD (u32At rd "number"),
              mayContainThrow := switch (rd.field "may_contain_throw"),
              aka := aka.foldl (fun acc x => insertAscending x acc) [],
              outer := ← liftD (link (rd.field "outer")),
              inner := ← liftD (link (rd.field "inner")),
              nextPeer := ← liftD (link (rd.field "next_peer")),
              label := ← nodeRef slots (rd.field "label"),
              kind := ← ehKindOf (nodeRef slots) link rd } : EhRegion)
  let slotsD ← liftD ((← liftD (list (d.field "slots"))).mapM link)
  return { regions, slots := slotsD, root := ← liftD (link (d.field "root")),
           lastRegionNumber := ← liftD (u32At d "last_region_number") }

def stmtOf (slots : Array NodeId) (d : Doc) : Build Stmt := do
  let name ← liftD (str (d.field "code"))
  let some code := StmtCode.ofName? name | fail s!"unknown statement code {name}"
  return { code, subcode := ← liftD (u32At d "subcode"), uid := ← liftD (u32At d "uid"),
           flags := ← liftD (flagsFrom StmtFlags.fields {} (d.field "flags")),
           locus := ← liftD (locusOf (d.field "locus")),
           ehRegion := ← liftD (i32At d "eh_region"),
           ops := ← refs slots (d.field "ops") }

/-- The largest block index, and the largest `last`, a description may give:
a graph past it would be larger than any body the streams hold. -/
def largestBlock : Nat := 1048576

def blockOf (slots : Array NodeId) (d : Doc) : Build Block := do
  let succs ← liftD ((← liftD (list (d.field "succs"))).mapM fun e => do
    return ({ dest := ← u32At e "dest", probability := ← i32At e "probability",
              count := ← i64At e "count", flags := ← u32At e "flags" } : Edge))
  let phis ← (← liftD (list (d.field "phis"))).mapM fun ph => do
    let args ← (← liftD (list (ph.field "args"))).mapM fun a => do
      match ← liftD (list a) with
      | [v, s] => return (← nodeRef slots v, ← liftD (u32 s))
      | _ => fail "expected a phi argument pair"
    return ({ result := ← liftD (u32At ph "result"), args } : Phi)
  let index ← liftD (u32At d "index")
  if largestBlock < index.toNat then fail "block index too large"
  return { index, count := ← liftD (i64At d "count"),
           loopDepth := ← liftD (u32At d "loop_depth"),
           frequency := ← liftD (i32At d "frequency"), flags := ← liftD (u32At d "flags"),
           succs, stmts := ← (← liftD (list (d.field "stmts"))).mapM (stmtOf slots), phis }

/-- The listed block indices ascending, with the exit block moved to the end. -/
def defaultOrder (indices : List UInt32) : List UInt32 :=
  let sorted := (indices.mergeSort (· ≤ ·)).eraseDups
  if sorted.contains exitBlock then sorted.filter (· != exitBlock) ++ [exitBlock] else sorted

def cfgOf (slots : Array NodeId) (d : Doc) : Build Cfg := do
  let some _ ← liftD (object? d) | return Cfg.initial
  let profile ← match text? (d.field "profile_status") with
    | none => pure ProfileStatus.absent
    | some name =>
      match ProfileStatus.ofLabel? name with
      | some p => pure p
      | none => fail s!"unknown profile status {name}"
  let blocks ← (← liftD (list (d.field "blocks"))).mapM (blockOf slots)
  let last ← liftD (natAt d "last")
  if largestBlock < last then fail "last too large"
  let size := blocks.foldl (fun m b => max m (b.index.toNat + 1)) last
  let table := blocks.foldl (fun t b => t.set b.index.toNat (some b))
    (List.replicate size (none : Option Block))
  let order ← match d.field "order" with
    | .null => pure (defaultOrder (blocks.map (·.index)))
    | o => liftD ((← liftD (list o)).mapM u32)
  return { profile, blocks := table, order }

def bodyOf (slots : Array NodeId) (d : Doc) : Build FunctionBody := do
  let some decl ← nodeRef slots (d.field "decl") | fail "a body needs a declaration"
  let eh ← match d.field "eh" with
    | .null => pure none
    | e => some <$> ehOf slots e
  let ssaNames ← match d.get? "ssa_names" with
    | none => pure [none]
    | some s => refs slots s
  return { decl, flags := ← liftD (flagsFrom FunctionFlags.fields {} (d.field "flags")),
           staticChain := ← nodeRef slots (d.field "static_chain"),
           nonlocalGotoSaveArea := ← nodeRef slots (d.field "nonlocal_goto_save_area"),
           eh, arguments := ← nodeRef slots (d.field "arguments"),
           cfg := ← cfgOf slots (d.field "cfg"), ssaNames,
           localDecls := ← (← refs slots (d.field "local_decls")).mapM fun
             | some n => pure n
             | none => fail "null local decl" }

def cgId (ids : Array CgNodeId) (d : Doc) : Decode CgNodeId := do
  let k ← nat d
  match ids[k]? with
  | some id => pure id
  | none => refuse s!"call-graph node index {k} out of range"

def edgeOf (ids : Array CgNodeId) (d : Doc) : Decode CgEdge := do
  let reason ← match text? (d.field "inline_failed") with
    | none => pure InlineFailed.ok
    | some name =>
      match InlineFailed.ofName? name with
      | some r => pure r
      | none => refuse s!"unknown inline failure {name}"
  return { caller := ← cgId ids (d.field "caller"), callee := ← cgId ids (d.field "callee"),
           stmtUid := ← u32At d "stmt_uid", inlineFailed := reason,
           count := ← i64At d "count", frequency := ← u32At d "frequency",
           loopNest := ← u32At d "loop_nest",
           flags := { indirectCall := switch (d.field "indirect_call"),
                      callStmtCannotInline := switch (d.field "call_stmt_cannot_inline") } }

def cgNodeFields (ids : Array CgNodeId) (n : CgNode) (d : Doc) : Decode CgNode := do
  let avail ← match text? (d.field "availability") with
    | none => pure Availability.notAvailable
    | some name =>
      match Availability.ofName? name with
      | some a => pure a
      | none => refuse s!"unknown availability {name}"
  let s := d.field "summary"
  let g := d.field "global"
  discard (object? s)
  discard (object? g)
  let inlinedTo ← match g.field "inlined_to" with
    | .null => pure none
    | k => some <$> cgId ids k
  let flags ← flagsFrom CgraphFlags.fields n.flags (d.field "flags")
  let summary : InlineSummary := {
    estimatedSelfStackSize := ← i64At s "estimated_self_stack_size"
    selfSize := ← i32At s "self_size"
    sizeInliningBenefit := ← i32At s "size_inlining_benefit"
    selfTime := ← i32At s "self_time"
    timeInliningBenefit := ← i32At s "time_inlining_benefit" }
  let global : InlineGlobal := {
    estimatedStackSize := ← i64At g "estimated_stack_size"
    stackFrameOffset := ← i64At g "stack_frame_offset"
    inlinedTo
    time := ← i32At g "time"
    size := ← i32At g "size"
    estimatedGrowth := ← i32At g "estimated_growth"
    inlined := switch (g.field "inlined") }
  return { n with availability := avail, flags, count := ← i64At d "count", summary, global }

def callGraphOf (slots : Array NodeId) (d : Doc) : Build (Array CgNodeId) := do
  discard (liftD (object? d))
  let entries ← liftD (list (d.field "nodes"))
  let ids ← entries.foldlM (fun (ids : Array CgNodeId) e => do
    let p ← get
    match e.field "clone_of" with
    | .null =>
      let some decl ← nodeRef slots (e.field "decl") | fail "a call-graph node needs a declaration"
      let p ← get
      let (id, cg) := p.callgraph.getOrCreate decl
      set { p with callgraph := cg }
      return ids.push id
    | k => do
      let of ← liftD (cgId ids k)
      match p.callgraph.createClone of with
      | some (id, cg) =>
        set { p with callgraph := cg }
        return ids.push id
      | none => fail s!"cannot clone {of}") #[]
  for (e, id) in entries.zip ids.toList do
    let p ← get
    match p.callgraph.node? id with
    | some n =>
      let n ← liftD (cgNodeFields ids n e)
      set { p with callgraph := p.callgraph.modifyNode id fun _ => n }
    | none => pure ()
  for e in ← liftD (list (d.field "edges")) do
    let edge ← liftD (edgeOf ids e)
    modify fun p => { p with callgraph := p.callgraph.addEdge edge }
  for k in ← liftD (list (d.field "remove")) do
    let id ← liftD (cgId ids k)
    modify fun p => { p with callgraph := p.callgraph.removeNode id }
  for e in ← liftD (list (d.field "late_edges")) do
    let edge ← liftD (edgeOf ids e)
    modify fun p => { p with callgraph := p.callgraph.addEdge edge }
  return ids

/-- The program a description names, with the id of each listed node and of
each listed call-graph node. -/
def programGraphOf (d : Doc) : Decode (Program × Array NodeId × Array CgNodeId) := do
  let build : Build (Array NodeId × Array CgNodeId) := do
    let nodes ← liftD (list (d.field "nodes"))
    let slots ← allocNodes nodes
    for (nd, id) in nodes.zip slots.toList do
      fillNode slots id nd
    for g in ← liftD (list (d.field "globals")) do
      let some id ← nodeRef slots g | fail "global must not be null"
      modify fun p => p.addGlobal id
    for f in ← liftD (list (d.field "functions")) do
      let b ← bodyOf slots f
      modify fun p => p.setBody b.decl b
    let graph ← callGraphOf slots (d.field "callgraph")
    return (slots, graph)
  let ((slots, graph), p) ← build.run Program.new
  return (p, slots, graph)

/-- The program a description names, with the id of each listed node. -/
def programOf (d : Doc) : Decode (Program × Array NodeId) := do
  let (p, slots, _) ← programGraphOf d
  return (p, slots)

end IrStream.Service
