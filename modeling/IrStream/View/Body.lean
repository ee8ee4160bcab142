import IrStream.View.Nodes
import IrStream.Body.Function

/-!
Canonical views of function bodies, control-flow graphs and region tables,
with the same field names as their request form. Nodes are mentioned in
stream order: the declaration, the frame trees, the regions' trees, each
block's statement operands and phi arguments, the SSA names and the locals.
-/

namespace IrStream

namespace View

def edge (e : Edge) : Doc :=
  .obj [("dest", .nat e.dest.toNat), ("probability", .int e.probability.toInt),
    ("count", .int e.count.toInt), ("flags", .nat e.flags.toNat)]

def stmt (arena : Arena) (s : Stmt) : ViewM Doc := do
  let ops ← refs arena s.ops
  return Doc.dense [("code", .str s.code.name), ("subcode", .nat s.subcode.toNat),
    ("uid", .nat s.uid.toNat), ("flags", flags StmtFlags.fields {} s.flags), ("locus", locus s.locus),
    ("eh_region", .int s.ehRegion.toInt), ("ops", ops)]

def phi (arena : Arena) (p : Phi) : ViewM Doc := do
  let args ← p.args.mapM fun (v, src) => return .arr [← ref arena v, .nat src.toNat]
  return Doc.dense [("result", .nat p.result.toNat), ("args", .arr args)]

def block (arena : Arena) (b : Block) : ViewM Doc := do
  let stmts ← b.stmts.mapM (stmt arena)
  let phis ← b.phis.mapM (phi arena)
  return Doc.dense [("index", .nat b.index.toNat), ("count", .int b.count.toInt),
    ("loop_depth", .nat b.loopDepth.toNat), ("frequency", .int b.frequency.toInt),
    ("flags", .nat b.flags.toNat), ("succs", .arr (b.succs.map edge)), ("stmts", .arr stmts),
    ("phis", .arr phis)]

def cfg (arena : Arena) (g : Cfg) : ViewM Doc := do
  let blocks ← g.present.mapM (block arena)
  return Doc.dense [("profile_status", .str g.profile.label), ("last", .nat g.lastBlock),
    ("blocks", .arr blocks), ("order", .arr (g.order.map fun i => .nat i.toNat))]

def regionRef (r : Option RegionId) : Doc := Doc.opt (fun id => .nat id.val) r

def region (arena : Arena) (r : EhRegion) : ViewM Doc := do
  let label ← ref arena r.label
  let kindFields ← match r.kind with
    | .cleanup | .mustNotThrow => pure []
    | .tryBlock f l => pure [("first_catch", regionRef f), ("last_catch", regionRef l)]
    | .catchBlock n p t fl => do
      let t ← ref arena t
      let fl ← ref arena fl
      pure [("next_catch", regionRef n), ("prev_catch", regionRef p), ("type_list", t),
        ("filter_list", fl)]
    | .allowedExceptions t filter => do
      let t ← ref arena t
      pure [("type_list", t), ("filter", .nat filter.toNat)]
    | .throwType ty => do pure [("ty", ← ref arena ty)]
  return Doc.dense ([("number", .nat r.number.toNat), ("kind", .str r.kind.name),
    ("may_contain_throw", .bool r.mayContainThrow), ("aka", .arr (r.aka.map fun a => .nat a.toNat)),
    ("outer", regionRef r.outer), ("inner", regionRef r.inner), ("next_peer", regionRef r.nextPeer),
    ("label", label)] ++ kindFields)

def ehTable (arena : Arena) (t : EhTable) : ViewM Doc := do
  let regions ← t.regions.mapM (region arena)
  return Doc.dense [("last_region_number", .nat t.lastRegionNumber.toNat), ("root", regionRef t.root),
    ("slots", .arr (t.slots.map regionRef)), ("regions", .arr regions)]

/-- The view of a body, mentioning its nodes in stream order. -/
def body (arena : Arena) (b : FunctionBody) : ViewM Doc := do
  let decl ← ref arena (some b.decl)
  let staticChain ← ref arena b.staticChain
  let saveArea ← ref arena b.nonlocalGotoSaveArea
  let arguments ← ref arena b.arguments
  let eh ← match b.eh with
    | some t => ehTable arena t
    | none => pure .null
  let g ← cfg arena b.cfg
  let ssa ← b.ssaNames.zipIdx.filterMapM fun (n, version) => do
    match n with
    | some id => return some (.arr [.nat version, ← ref arena (some id)])
    | none => return none
  let locals ← refs arena (b.localDecls.map some)
  return Doc.dense [("decl", decl), ("flags", flags FunctionFlags.fields {} b.flags),
    ("static_chain", staticChain), ("nonlocal_goto_save_area", saveArea), ("arguments", arguments),
    ("eh", eh), ("cfg", g), ("ssa_len", .nat b.ssaNames.length), ("ssa_names", .arr ssa),
    ("local_decls", locals)]

end View

end IrStream
