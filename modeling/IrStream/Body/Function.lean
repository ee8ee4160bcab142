import IrStream.Body.Cfg
import IrStream.Body.Eh

/-!
The body of one function: its flags, frame trees, exception regions, control
flow, SSA names by version and declared locals. `FunctionBody.verify` runs
the graph and region checks and checks that every phi defines a version
inside the SSA table.
-/

namespace IrStream

structure FunctionBody where
  decl : NodeId
  flags : FunctionFlags := {}
  staticChain : Option NodeId := none
  nonlocalGotoSaveArea : Option NodeId := none
  eh : Option EhTable := none
  /-- First parameter; the rest follow through the parameters' chain. -/
  arguments : Option NodeId := none
  cfg : Cfg := Cfg.initial
  /-- SSA names by version. Version 0 is never used; `none` is a released version. -/
  ssaNames : List (Option NodeId) := [none]
  /-- Declared locals in declaration order, hoisted statics included. -/
  localDecls : List NodeId := []
  deriving DecidableEq, Repr, Inhabited

namespace FunctionBody

def verify (b : FunctionBody) : Except VerifyError Unit := do
  b.cfg.verify
  if let some eh := b.eh then eh.verify
  let limit := b.ssaNames.length
  for blk in b.cfg.present do
    for phi in blk.phis do
      if phi.result == 0 || limit ≤ phi.result.toNat then
        throw (.ssaVersionOutOfRange phi.result)

end FunctionBody

end IrStream
