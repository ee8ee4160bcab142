import Mathlib
import IrStream.Proofs.Codec.CfgStream
import IrStream.Proofs.Codec.DeclTables
import IrStream.Proofs.FlagTables

/-!
The records of a call-graph section, one at a time. A node record is its tag,
whether an earlier record named its declaration, the declaration's entry in the
function table, its count and flags, for a node with a body its summary, its
estimates with the inline target's section number, and whether it was inlined
(`CgNode.record`). An edge record is its tag, the section numbers of its ends
and its fields (`CgEdge.record`).

`GraphReadM.Reads` says that a reader, on every cursor with given bytes ahead
and every program with a given call graph, returns a value, moves over exactly
those bytes and leaves a given call graph; it composes along `>>=` as
`CursorM.Reads` does.

* `GraphWriteM.node_run`, `GraphWriteM.edge_run`: what a record appends;
* `GraphReadM.Reads.bind`, `GraphReadM.Reads.cur` and the other `Reads`
  lemmas: the steps a record reader is made of, from which reading a record
  back is to be assembled.
-/

open Std.Do

set_option mvcgen.warning false

namespace IrStream

namespace GraphReadM

/-- On every reader with `bs` ahead whose program has call graph `g`, `m`
returns `v`, moves over `bs` and leaves call graph `g'`, the rest of the
program as it was. -/
def Reads {α : Type} (m : GraphReadM α) (g : CallGraph) (bs : List UInt8) (v : α) (g' : CallGraph) :
    Prop :=
  ∀ (p : Program) (c : Cursor) (rest : List UInt8), p.callgraph = g → c.ahead = bs ++ rest →
    m { cursor := c, program := p } =
      .ok v { cursor := c.advance bs.length, program := { p with callgraph := g' } }

namespace Reads

variable {α β : Type} {m : GraphReadM α} {g g₁ g₂ : CallGraph} {p q : List UInt8} {a : α}

theorem pure (v : α) (g : CallGraph) : Reads (Pure.pure v) g [] v g := by
  intro prog c rest same _
  subst same
  rfl

theorem bind {k : α → GraphReadM β} {b : β} (first : Reads m g p a g₁) (second : Reads (k a) g₁ q b g₂) :
    Reads (m >>= k) g (p ++ q) b g₂ := by
  intro prog c rest same ahead
  rw [List.append_assoc] at ahead
  have ahead₂ : (c.advance p.length).ahead = q ++ rest := by simp [ahead]
  show EStateM.bind m k _ = _
  rw [CursorM.bind_ok (first prog c _ same ahead), second _ _ rest rfl ahead₂, Cursor.advance_advance,
    List.length_append]

theorem congr_bytes (same : p = q) (reads : Reads m g p a g₁) : Reads m g q a g₁ := same ▸ reads

theorem congr_graph (same : g₁ = g₂) (reads : Reads m g p a g₁) : Reads m g p a g₂ := same ▸ reads

/-- A part that reads nothing, then the rest. -/
theorem bind_nil {k : α → GraphReadM β} {b : β} (first : Reads m g [] a g₁) (second : Reads (k a) g₁ q b g₂) :
    Reads (m >>= k) g q b g₂ :=
  first.bind second

/-- A read of the cursor alone. -/
theorem cur {m : CursorM α} (reads : CursorM.Reads m p a) (g : CallGraph) : Reads (GraphReadM.cur m) g p a g := by
  intro prog c rest same ahead
  subst same
  simp [GraphReadM.cur, EStateM.run, reads c rest ahead]

theorem lift (v : α) (g : CallGraph) : Reads (GraphReadM.lift (.ok v)) g [] v g :=
  pure v g

theorem graph (g : CallGraph) : Reads GraphReadM.graph g [] g g := by
  intro prog c rest same _
  subst same
  rfl

theorem setGraph (g g' : CallGraph) : Reads (GraphReadM.setGraph g') g [] () g' := by
  intro prog c rest same _
  subst same
  rfl

theorem modifyNode (id : CgNodeId) (f : CgNode → CgNode) (g : CallGraph) :
    Reads (GraphReadM.modifyNode id f) g [] () (g.modifyNode id f) :=
  (graph g).bind_nil (setGraph g _)

theorem modifyGlobal (id : CgNodeId) (f : InlineGlobal → InlineGlobal) (g : CallGraph) :
    Reads (GraphReadM.modifyGlobal id f) g [] () (g.modifyNode id fun n => { n with global := f n.global }) :=
  modifyNode id _ g

end Reads

end GraphReadM

namespace FlagField

theorem bool_get_lt {ρ : Type} (name : String) (get : ρ → Bool) (set : ρ → Bool → ρ) (r : ρ) :
    (FlagField.bool name get set).get r < 2 ^ (FlagField.bool name get set).width := by
  simp only [FlagField.bool]
  split <;> decide

@[simp] theorem bool_bit (b : Bool) : ((if b = true then (1 : Nat) else 0) != 0) = b := by
  cases b <;> rfl

end FlagField

/-- Every attribute of a node is a field of its table, and each is one bit. -/
theorem CgraphFlags.unpack_pack (flags : CgraphFlags) :
    Flags.unpack CgraphFlags.fields (Flags.pack CgraphFlags.fields flags) {} = flags := by
  rw [@Flags.unpack_pack_of_fits _ _ flags (fun f member => ?_) {}]
  · cases flags
    simp [Flags.restrict, CgraphFlags.fields, CgraphFlags.loweredField, CgraphFlags.analyzedField,
      CgraphFlags.neededField, CgraphFlags.isLocalField, CgraphFlags.externallyVisibleField,
      CgraphFlags.finalizedField, CgraphFlags.inlinableField, CgraphFlags.disregardInlineLimitsField,
      CgraphFlags.redefinedExternInlineField, CgraphFlags.forFunctionsValidField,
      CgraphFlags.vtableMethodField, FlagField.bool]
  · simp only [CgraphFlags.fields, List.mem_cons, List.not_mem_nil, or_false] at member
    rcases member with rfl | rfl | rfl | rfl | rfl | rfl | rfl | rfl | rfl | rfl | rfl <;>
      exact FlagField.bool_get_lt _ _ _ _

/-- Every attribute of an edge is a field of its table, and each is one bit. -/
theorem EdgeFlags.unpack_pack (flags : EdgeFlags) :
    Flags.unpack EdgeFlags.fields (Flags.pack EdgeFlags.fields flags) {} = flags := by
  rw [@Flags.unpack_pack_of_fits _ _ flags (fun f member => ?_) {}]
  · cases flags
    simp [Flags.restrict, EdgeFlags.fields, EdgeFlags.indirectCallField,
      EdgeFlags.callStmtCannotInlineField, FlagField.bool]
  · simp only [EdgeFlags.fields, List.mem_cons, List.not_mem_nil, or_false] at member
    rcases member with rfl | rfl <;> exact FlagField.bool_get_lt _ _ _ _

/-- A flag word of a table fits a varint. -/
theorem Flags.pack_toUInt64_toNat {ρ : Type} {fields : List (FlagField ρ)} (value : ρ)
    (narrow : Flags.width fields ≤ 64) : (Flags.pack fields value).toUInt64.toNat = Flags.pack fields value := by
  have small : Flags.pack fields value < 2 ^ 64 :=
    lt_of_lt_of_le (Flags.pack_lt fields value) (Nat.pow_le_pow_right (by norm_num) narrow)
  rw [Nat.toUInt64_eq, UInt64.toNat_ofNat_of_lt' small]

@[simp] theorem InlineFailed.ofCode?_code (f : InlineFailed) : InlineFailed.ofCode? f.code = some f := by
  cases f <;> rfl

theorem InlineFailed.code_lt (f : InlineFailed) : f.code < 2 ^ 32 := by
  cases f <;> decide

@[simp] theorem GraphWriteM.flag_ne_zero (b : Bool) : (GraphWriteM.flag b != 0) = b := by
  cases b <;> rfl

theorem Bytes.slebs_data (vs : List Int64) (out : ByteArray) :
    (vs.foldl Out.sleb out).data.toList = out.data.toList ++ vs.flatMap Leb128.ofInt64 := by
  induction vs generalizing out with
  | nil => simp
  | cons v vs ih => simp [ih]

namespace CgNode

/-- The flags a node is written with: a boundary node as a function visible
outside the unit that may not be inlined. -/
def sectionFlags (n : CgNode) (boundary : Bool) : CgraphFlags :=
  if boundary then { n.flags with isLocal := false, externallyVisible := true, inlinable := false }
  else n.flags

/-- A node record after its tag, for a node whose declaration an earlier record
named (`clone`), filed at `index` of the function table, with inline target
numbered `target`. -/
def record (n : CgNode) (boundary clone : Bool) (index : Nat) (target : Int64) : List UInt8 :=
  Leb128.ofUInt64 (GraphWriteM.flag clone) ++ Leb128.ofUInt64 index.toUInt64 ++ Leb128.ofInt64 n.count ++
    Leb128.ofUInt64 (Flags.pack CgraphFlags.fields (n.sectionFlags boundary)).toUInt64 ++
    (if n.tag boundary != GraphTag.unavailable then
        [n.summary.estimatedSelfStackSize, n.summary.selfSize.toInt64, n.summary.sizeInliningBenefit.toInt64,
          n.summary.selfTime.toInt64, n.summary.timeInliningBenefit.toInt64] else []).flatMap Leb128.ofInt64 ++
    [n.global.estimatedStackSize, n.global.stackFrameOffset, target, n.global.time.toInt64,
      n.global.size.toInt64, n.global.estimatedGrowth.toInt64].flatMap Leb128.ofInt64 ++
    Leb128.ofUInt64 (GraphWriteM.flag n.global.inlined)

end CgNode

/-- The section number a record gives a node's inline target: -1 for a
boundary node and for a node inlined nowhere, else the target's number. -/
def GraphEncoder.targetNumber (e : GraphEncoder) (n : CgNode) (boundary : Bool) : Int64 :=
  match n.global.inlinedTo with
  | some t => if boundary then -1 else ((e.lookup t).map Int64.ofNat).getD (-1)
  | none => -1

/-- An edge record after its tag, its ends numbered `caller` and `callee`. -/
def CgEdge.record (edge : CgEdge) (caller callee : Nat) : List UInt8 :=
  Leb128.ofInt64 (Int64.ofNat caller) ++ Leb128.ofInt64 (Int64.ofNat callee) ++
    Leb128.ofUInt64 edge.stmtUid.toUInt64 ++ Leb128.ofUInt64 edge.inlineFailed.code.toUInt64 ++
    Leb128.ofInt64 edge.count ++ Leb128.ofUInt64 edge.frequency.toUInt64 ++
    Leb128.ofUInt64 edge.loopNest.toUInt64 ++ Leb128.ofUInt64 (Flags.pack EdgeFlags.fields edge.flags).toUInt64

namespace GraphWriteM

/-- A node record appends its tag and fields, files the node's declaration in
the function table and marks it named; a node of the partition inlined
somewhere is inlined into a node of the section. -/
theorem node_run {e : GraphEncoder} {n : CgNode} {boundary : Bool} {w w' : GraphWriter}
    (run : (node e n boundary).run w = .ok ((), w')) :
    (boundary = false → ∀ t, n.global.inlinedTo = some t → (e.lookup t).isSome) ∧
      w'.out.data.toList = w.out.data.toList ++ n.tag boundary ::
        n.record boundary (w.declared.contains n.decl) (w.decls.encode .function n.decl).1
          (e.targetNumber n boundary) ∧
      w'.decls = (w.decls.encode .function n.decl).2 ∧ w'.declared = w.declared.insert n.decl := by
  refine triple_stateT_run (P := fun w₀ => w₀ = w) (Q := fun _ w' =>
    (boundary = false → ∀ t, n.global.inlinedTo = some t → (e.lookup t).isSome) ∧
      w'.out.data.toList = w.out.data.toList ++ n.tag boundary ::
        n.record boundary (w.declared.contains n.decl) (w.decls.encode .function n.decl).1
          (e.targetNumber n boundary) ∧
      w'.decls = (w.decls.encode .function n.decl).2 ∧ w'.declared = w.declared.insert n.decl) ?_ rfl run
  mvcgen [node, MonadExcept.throw, MonadExceptOf.throw, emit, slebs]
  all_goals subst_vars
  all_goals simp_all +zetaDelta [GraphEncoder.targetNumber, CgNode.record, CgNode.sectionFlags]

/-- An edge record appends its tag and fields; both its ends are numbered. -/
theorem edge_run {e : GraphEncoder} {edge : CgEdge} {w w' : GraphWriter}
    (run : (GraphWriteM.edge e edge).run w = .ok ((), w')) :
    ∃ i j, e.lookup edge.caller = some i ∧ e.lookup edge.callee = some j ∧
      w'.out.data.toList = w.out.data.toList ++ GraphTag.edge :: edge.record i j ∧
      w'.decls = w.decls ∧ w'.declared = w.declared := by
  refine triple_stateT_run (P := fun w₀ => w₀ = w) (Q := fun _ w' =>
    ∃ i j, e.lookup edge.caller = some i ∧ e.lookup edge.callee = some j ∧
      w'.out.data.toList = w.out.data.toList ++ GraphTag.edge :: edge.record i j ∧
      w'.decls = w.decls ∧ w'.declared = w.declared) ?_ rfl run
  mvcgen [GraphWriteM.edge, MonadExcept.throw, MonadExceptOf.throw, emit]
  all_goals subst_vars
  all_goals simp_all +zetaDelta [CgEdge.record]

end GraphWriteM

end IrStream
