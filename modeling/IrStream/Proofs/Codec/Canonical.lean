import Mathlib
import IrStream.Proofs.Flags
import IrStream.Codec.Decls

/-!
Canonical program graphs: the graphs the tree codec gives back as they were
written. The codec streams a fixed part of each node, chosen by its kind, and
shares only types, declarations, binfos (through back-references) and
identifiers (by spelling); everything else is written out once per slot that
holds it. So a graph survives the round trip exactly when

* each payload has the constructor of its kind's layout (`NodeData.fits`),
  every field, flag and type slot the kind does not stream is at its default,
  and the multi-bit flags fit their widths (`Node.Canonical`);
* every reachable node is in the arena, identifiers have distinct spellings,
  every node the codec does not share has a single holder (one position of
  the roots or one slot), and the common nodes are the standard ones
  (`Program.Canonical`).

Reachability (`Program.Reaches`) goes through every child slot, the type slot
included. The lemmas on `NodeData.mapChildren` say that renaming child slots
acts on the list of slots and on nothing else.
-/

namespace IrStream

namespace NodeData

/-- Whether the payload has the constructor its layout gives (`NodeData.ofLayout`),
with exactly `k` operands for a layout of `k > 0` operands. -/
def fits : Layout → NodeData → Bool
  | .identifier, .identifier _ => true
  | .integerCst, .int .. => true
  | .realCst, .real _ => true
  | .complexCst, .complex .. => true
  | .vectorCst, .vector _ => true
  | .stringCst, .str _ => true
  | .list, .list _ => true
  | .vec, .vec _ => true
  | .binfo, .binfo _ => true
  | .type, .type _ => true
  | .decl, .decl _ => true
  | .constructor, .constructor _ => true
  | .call, .call .. => true
  | .caseLabel, .caseLabel .. => true
  | .asm, .asm .. => true
  | .ssaName, .ssa .. => true
  | .operands 0, .empty => true
  | .operands (k + 1), .operands ops => ops.length == k + 1
  | _, _ => false

/-- The pairs of layout and payload that fit, one constructor per row of `fits`. -/
inductive Fits : Layout → NodeData → Prop
  | identifier (s : String) : Fits .identifier (.identifier s)
  | int (low : UInt64) (high : Int64) : Fits .integerCst (.int low high)
  | real (bits : UInt64) : Fits .realCst (.real bits)
  | complex (r i : Option NodeId) : Fits .complexCst (.complex r i)
  | vector (elts : List (Option NodeId)) : Fits .vectorCst (.vector elts)
  | str (bytes : List UInt8) : Fits .stringCst (.str bytes)
  | list (entries : List (Option NodeId × Option NodeId)) : Fits .list (.list entries)
  | vec (elts : List (Option NodeId)) : Fits .vec (.vec elts)
  | binfo (b : BinfoData) : Fits .binfo (.binfo b)
  | type (t : TypeData) : Fits .type (.type t)
  | decl (d : DeclData) : Fits .decl (.decl d)
  | constructor (elts : List (Option NodeId × Option NodeId)) : Fits .constructor (.constructor elts)
  | call (f c : Option NodeId) (args : List (Option NodeId)) : Fits .call (.call f c args)
  | caseLabel (low high label : Option NodeId) : Fits .caseLabel (.caseLabel low high label)
  | asm (text : List UInt8) (i o c : Option NodeId) : Fits .asm (.asm text i o c)
  | ssa (version : UInt32) (var : Option NodeId) : Fits .ssaName (.ssa version var)
  | empty : Fits (.operands 0) .empty
  | operands (ops : List (Option NodeId)) : ops ≠ [] → Fits (.operands ops.length) (.operands ops)

theorem Fits.of_fits {L : Layout} {d : NodeData} (fits : d.fits L = true) : Fits L d := by
  -- A mismatched pair has `fits` reduce to `false`.
  cases L with
  | operands k =>
    cases d <;> cases k <;> first | exact Fits.empty | cases fits | skip
    next ops k =>
    have length : ops.length = k + 1 := beq_iff_eq.1 fits
    rw [← length]
    exact Fits.operands ops (List.ne_nil_of_length_eq_add_one length)
  | _ => cases d <;> first | constructor | cases fits

theorem children_mapChildren (f : Option NodeId → Option NodeId) (d : NodeData) :
    (d.mapChildren f).children = d.children.map f := by
  cases d <;> simp [mapChildren, children, pairSlots, TypeData.links, TypeData.mapLinks,
    DeclData.links, DeclData.mapLinks, BinfoData.mapLinks, List.map_flatMap, List.flatMap_map]

theorem pairs_congr {f g : Option NodeId → Option NodeId}
    {ps : List (Option NodeId × Option NodeId)} (same : ∀ c ∈ pairSlots ps, f c = g c) :
    ps.map (fun p => (f p.1, f p.2)) = ps.map (fun p => (g p.1, g p.2)) := by
  refine List.map_congr_left fun p member => ?_
  have first := same p.1 (List.mem_flatMap.2 ⟨p, member, by simp⟩)
  have second := same p.2 (List.mem_flatMap.2 ⟨p, member, by simp⟩)
  rw [first, second]

/-- Renaming depends only on what the renaming does to the payload's slots. -/
theorem mapChildren_congr {f g : Option NodeId → Option NodeId} {d : NodeData}
    (same : ∀ c ∈ d.children, f c = g c) : d.mapChildren f = d.mapChildren g := by
  cases d with
  | list entries => simp only [mapChildren, pairs_congr same]
  | constructor entries => simp only [mapChildren, pairs_congr same]
  | _ => simp_all [mapChildren, children, TypeData.links, TypeData.mapLinks, DeclData.links,
    DeclData.mapLinks, BinfoData.mapLinks]

@[simp] theorem mapChildren_id (d : NodeData) : d.mapChildren id = d := by
  cases d <;> simp [mapChildren, TypeData.mapLinks, DeclData.mapLinks, BinfoData.mapLinks]

theorem mapChildren_mapChildren (f g : Option NodeId → Option NodeId) (d : NodeData) :
    (d.mapChildren f).mapChildren g = d.mapChildren (g ∘ f) := by
  cases d <;> simp [mapChildren, TypeData.mapLinks, DeclData.mapLinks, BinfoData.mapLinks]

end NodeData

namespace Node

@[simp] theorem children_mapChildren (f : Option NodeId → Option NodeId) (n : Node) :
    (n.mapChildren f).children = n.children.map f := by
  simp [mapChildren, children, NodeData.children_mapChildren]

theorem mapChildren_congr {f g : Option NodeId → Option NodeId} {n : Node}
    (same : ∀ c ∈ n.children, f c = g c) : n.mapChildren f = n.mapChildren g := by
  have ty := same n.ty (List.mem_cons_self ..)
  have data := NodeData.mapChildren_congr fun c member => same c (List.mem_cons_of_mem _ member)
  simp only [mapChildren, ty, data]

@[simp] theorem mapChildren_code (f : Option NodeId → Option NodeId) (n : Node) :
    (n.mapChildren f).code = n.code := rfl

@[simp] theorem mapChildren_flags (f : Option NodeId → Option NodeId) (n : Node) :
    (n.mapChildren f).flags = n.flags := rfl

@[simp] theorem mapChildren_locus (f : Option NodeId → Option NodeId) (n : Node) :
    (n.mapChildren f).locus = n.locus := rfl

/-- Renaming keeps an identifier's spelling, and makes no identifier. -/
@[simp] theorem identifier?_mapChildren (f : Option NodeId → Option NodeId) (n : Node) :
    (n.mapChildren f).identifier? = n.identifier? := by
  rcases n with ⟨code, ty, flags, locus, data⟩
  cases data <;> rfl

end Node

namespace RecordField

/-- The field's value in `value`, set in `r`. -/
def copy : RecordField ρ → ρ → ρ → ρ
  | .link get set, value, r => set r (get value)
  | .links get set, value, r => set r (get value)
  | .scalar get set, value, r => set r (get value)

/-- `base` with the listed fields taken from `value`, in order. -/
def restrict (fields : List (RecordField ρ)) (value base : ρ) : ρ :=
  fields.foldl (fun r f => f.copy value r) base

end RecordField

namespace TreeCode

theorem layout_eq_identifier {c : TreeCode} : c.layout = .identifier ↔ c = .identifierNode := by
  cases c <;> simp [layout]

theorem index_lt (c : TreeCode) : c.index < 115 := by
  cases c <;> simp [index]

theorem ofIndex?_index (c : TreeCode) : ofIndex? c.index = some c := by
  cases c <;> rfl

/-- A kind with a declaration table is shared through back-references. -/
theorem isGlobalIndexable_of_category {c : TreeCode} {cat : DeclCategory}
    (h : DeclCategory.ofCode? c = some cat) : c.isGlobalIndexable = true := by
  cases c <;> simp_all [DeclCategory.ofCode?, isGlobalIndexable, isType, isDecl, treeClass]

end TreeCode

namespace Node

/-- A node as its kind streams it: the payload has its layout's constructor;
the type slot, if the kind does not stream it, is empty; the flags are
canonical for the kind; the declaration or type fields the kind does not
stream are at their defaults; and an identifier has no flags or position. -/
structure Canonical (n : Node) : Prop where
  fits : n.data.fits n.code.layout = true
  untyped : n.code.streamsType = false → n.ty = none
  flags : TreeFlags.Canonical n.code n.flags
  declFields : ∀ d, n.data = .decl d → RecordField.restrict (declFields n.code) d {} = d
  typeFields : ∀ t, n.data = .type t → RecordField.restrict (typeFields n.code) t {} = t
  bareIdentifier : n.code = .identifierNode → n.flags = {} ∧ n.locus = none

end Node

namespace Program

/-- The nodes reachable from `roots` through child slots, the type slot included. -/
inductive Reaches (p : Program) (roots : List NodeId) : NodeId → Prop
  | root {r : NodeId} : r ∈ roots → Reaches p roots r
  | child {parent n : NodeId} : Reaches p roots parent → some n ∈ (p.node parent).children →
      Reaches p roots n

/-- Where a node is held: at a position of the roots, or in a slot of a
reachable node. -/
inductive Holder (p : Program) (roots : List NodeId) (n : NodeId) : Nat ⊕ (NodeId × Nat) → Prop
  | root {i : Nat} : roots[i]? = some n → Holder p roots n (.inl i)
  | slot {a : NodeId} {i : Nat} : Reaches p roots a → (p.node a).children[i]? = some (some n) →
      Holder p roots n (.inr (a, i))

/-- A node the codec neither shares nor preloads: not a type, declaration,
binfo or identifier, and not one of the common nodes. -/
structure Unshared (p : Program) (n : NodeId) : Prop where
  uncommon : CommonNode.count ≤ n.val
  unindexed : (p.node n).code.isGlobalIndexable = false
  notIdentifier : (p.node n).code ≠ .identifierNode

/-- The graph reachable from `roots` is one the tree codec gives back: its nodes
are canonical and in the arena, its identifiers have distinct spellings, each
unshared node has a single holder, and the common nodes are the standard ones. -/
structure Canonical (p : Program) (roots : List NodeId) : Prop where
  nodes : ∀ n, p.Reaches roots n → (p.node n).Canonical
  inRange : ∀ n, p.Reaches roots n → n.val < p.arena.size
  spellings : ∀ a b s, p.Reaches roots a → p.Reaches roots b →
    (p.node a).identifier? = some s → (p.node b).identifier? = some s → a = b
  singleHolder : ∀ n, p.Reaches roots n → p.Unshared n → ∀ h h', p.Holder roots n h →
    p.Holder roots n h' → h = h'
  commons : ∀ c : CommonNode, p.node c.id = c.node

end Program

end IrStream
