import Mathlib
import IrStream.Tree.Visit

/-!
# The two child visitors

A node's child slots are read through `Node.children` (the type slot, then the
payload's slots in stream order) and changed through `Node.traverseChildren`,
which passes each slot through a function and stores back its answer. The two
are written separately, one arm per payload constructor, so nothing but a
proof keeps them in step. Here:

* `Node.traverseChildren_slots`: whatever monad the visiting function runs in
  (a state for a function that counts or collects), the changing visitor runs
  it on exactly the slots `children` lists, in that order, the new slots are
  its answers, and the node is otherwise unchanged (`Node.blank`, the node with
  every slot cleared, stays the same);
* `Node.holds_iff`: `children` lists every place a node holds a node id, by
  field (`Node.Holds`): the type slot, the links of types, declarations and
  binfos, the halves of list and constructor entries, and every element of a
  list of slots, binfo bases included;
* `Node.mapChildren_eq_traverseChildren`: the renaming the linker applies is
  the changing visitor run with a function that keeps no state.
-/

namespace IrStream

variable {m : Type → Type} [Monad m] [LawfulMonad m]

/-- What follows `xs.mapM g` sees only answers of `xs`'s length. -/
theorem mapM_bind_congr {α β γ : Type} {g : α → m β} {xs : List α} {f f' : List β → m γ}
    (same : ∀ ys, ys.length = xs.length → f ys = f' ys) :
    (xs.mapM g >>= f) = (xs.mapM g >>= f') := by
  induction xs generalizing f f' with
  | nil => simpa using same [] rfl
  | cons x xs ih =>
    simp only [List.mapM_cons, bind_assoc, pure_bind]
    exact bind_congr fun y => ih fun ys length => same (y :: ys) (by simp [length])

namespace TypeLink

theorem mem_all (k : TypeLink) : k ∈ all := by
  cases k <;> simp [all]

end TypeLink

namespace DeclLink

theorem mem_all (k : DeclLink) : k ∈ all := by
  cases k <;> simp [all]

end DeclLink

namespace BinfoLink

theorem mem_all (k : BinfoLink) : k ∈ all := by
  cases k <;> simp [all]

end BinfoLink

/-- A type's list of links is its link fields, one per `TypeLink`. -/
theorem TypeData.mem_links {t : TypeData} {x : Option NodeId} : x ∈ t.links ↔ ∃ k, t.link k = x := by
  have fields : t.links = TypeLink.all.map t.link := rfl
  simp [fields, TypeLink.mem_all]

theorem DeclData.mem_links {d : DeclData} {x : Option NodeId} : x ∈ d.links ↔ ∃ k, d.link k = x := by
  have fields : d.links = DeclLink.all.map d.link := rfl
  simp [fields, DeclLink.mem_all]

theorem BinfoData.mem_links {b : BinfoData} {x : Option NodeId} : x ∈ b.links ↔ ∃ k, b.link k = x := by
  have fields : b.links = BinfoLink.all.map b.link := rfl
  simp [fields, BinfoLink.mem_all]

namespace NodeData

/-- The payload with every child slot cleared: what is left is its
constructor, its scalars and the length of each list of slots. -/
def blank (d : NodeData) : NodeData := d.mapChildren fun _ => none

/-- Where a payload holds a node id, field by field. -/
inductive Holds : NodeData → Option NodeId → Prop
  | complexReal (r i : Option NodeId) : Holds (.complex r i) r
  | complexImag (r i : Option NodeId) : Holds (.complex r i) i
  | vector {elts : List (Option NodeId)} {x : Option NodeId} : x ∈ elts → Holds (.vector elts) x
  | vec {elts : List (Option NodeId)} {x : Option NodeId} : x ∈ elts → Holds (.vec elts) x
  | operands {ops : List (Option NodeId)} {x : Option NodeId} : x ∈ ops → Holds (.operands ops) x
  | listValue {entries : List (Option NodeId × Option NodeId)} {p : Option NodeId × Option NodeId} :
      p ∈ entries → Holds (.list entries) p.1
  | listPurpose {entries : List (Option NodeId × Option NodeId)} {p : Option NodeId × Option NodeId} :
      p ∈ entries → Holds (.list entries) p.2
  | callFunction (f c : Option NodeId) (args : List (Option NodeId)) : Holds (.call f c args) f
  | callChain (f c : Option NodeId) (args : List (Option NodeId)) : Holds (.call f c args) c
  | callArgument {f c : Option NodeId} {args : List (Option NodeId)} {x : Option NodeId} :
      x ∈ args → Holds (.call f c args) x
  | constructorIndex {elts : List (Option NodeId × Option NodeId)} {p : Option NodeId × Option NodeId} :
      p ∈ elts → Holds (.constructor elts) p.1
  | constructorValue {elts : List (Option NodeId × Option NodeId)} {p : Option NodeId × Option NodeId} :
      p ∈ elts → Holds (.constructor elts) p.2
  | caseLow (low high label : Option NodeId) : Holds (.caseLabel low high label) low
  | caseHigh (low high label : Option NodeId) : Holds (.caseLabel low high label) high
  | caseTarget (low high label : Option NodeId) : Holds (.caseLabel low high label) label
  | asmInputs (text : List UInt8) (i o c : Option NodeId) : Holds (.asm text i o c) i
  | asmOutputs (text : List UInt8) (i o c : Option NodeId) : Holds (.asm text i o c) o
  | asmClobbers (text : List UInt8) (i o c : Option NodeId) : Holds (.asm text i o c) c
  | ssaVar (version : UInt32) (var : Option NodeId) : Holds (.ssa version var) var
  | typeLink (t : TypeData) (k : TypeLink) : Holds (.type t) (t.link k)
  | declLink (d : DeclData) (k : DeclLink) : Holds (.decl d) (d.link k)
  | binfoLink (b : BinfoData) (k : BinfoLink) : Holds (.binfo b) (b.link k)
  | baseAccess {b : BinfoData} {x : Option NodeId} : x ∈ b.baseAccesses → Holds (.binfo b) x
  | baseBinfo {b : BinfoData} {x : Option NodeId} : x ∈ b.baseBinfos → Holds (.binfo b) x

theorem mem_pairSlots {ps : List (Option NodeId × Option NodeId)} {x : Option NodeId} :
    x ∈ pairSlots ps ↔ ∃ p ∈ ps, x = p.1 ∨ x = p.2 := by
  simp [pairSlots]

/-- The slots `children` lists are exactly the places the payload holds an id. -/
theorem holds_iff {d : NodeData} {x : Option NodeId} : d.Holds x ↔ x ∈ d.children := by
  constructor
  · intro holds
    cases holds with
    | listValue member | listPurpose member | constructorIndex member | constructorValue member =>
      exact mem_pairSlots.2 ⟨_, member, by simp⟩
    | typeLink t k => exact TypeData.mem_links.2 ⟨k, rfl⟩
    | declLink d k => exact DeclData.mem_links.2 ⟨k, rfl⟩
    | binfoLink b k =>
      have listed : b.link k ∈ b.links := BinfoData.mem_links.2 ⟨k, rfl⟩
      simp only [children, List.mem_append]
      exact .inl (.inl listed)
    | _ => simp_all [children]
  · intro member
    cases d with
    | complex r i =>
      rcases List.mem_pair.1 member with rfl | rfl
      exacts [.complexReal _ _, .complexImag _ _]
    | vector elts => exact .vector member
    | vec elts => exact .vec member
    | operands ops => exact .operands member
    | list entries =>
      obtain ⟨p, held, rfl | rfl⟩ := mem_pairSlots.1 member
      exacts [.listValue held, .listPurpose held]
    | call f c args =>
      rcases List.mem_cons.1 member with rfl | member
      · exact .callFunction _ _ _
      rcases List.mem_cons.1 member with rfl | member
      · exact .callChain _ _ _
      exact .callArgument member
    | constructor elts =>
      obtain ⟨p, held, rfl | rfl⟩ := mem_pairSlots.1 member
      exacts [.constructorIndex held, .constructorValue held]
    | caseLabel low high label =>
      simp only [children, List.mem_cons, List.not_mem_nil, or_false] at member
      rcases member with rfl | rfl | rfl
      exacts [.caseLow _ _ _, .caseHigh _ _ _, .caseTarget _ _ _]
    | asm text i o c =>
      simp only [children, List.mem_cons, List.not_mem_nil, or_false] at member
      rcases member with rfl | rfl | rfl
      exacts [.asmInputs _ _ _ _, .asmOutputs _ _ _ _, .asmClobbers _ _ _ _]
    | ssa version var =>
      rcases List.mem_singleton.1 member with rfl
      exact .ssaVar _ _
    | type t =>
      obtain ⟨k, rfl⟩ := TypeData.mem_links.1 member
      exact .typeLink t k
    | decl d =>
      obtain ⟨k, rfl⟩ := DeclData.mem_links.1 member
      exact .declLink d k
    | binfo b =>
      have links : [b.offset, b.vtable, b.virtuals, b.vptrField, b.vttSubvtt, b.vttVptr, b.chain] =
        b.links := rfl
      simp only [children, links, List.mem_append] at member
      rcases member with (member | member) | member
      · obtain ⟨k, rfl⟩ := BinfoData.mem_links.1 member
        exact .binfoLink b k
      · exact .baseAccess member
      · exact .baseBinfo member
    | _ => simp [children] at member

/-- Visiting pairs runs the function on their slots in order and keeps their number. -/
theorem traversePairs_bind (g : Option NodeId → m (Option NodeId))
    (ps : List (Option NodeId × Option NodeId)) {γ : Type}
    (k : List (Option NodeId) → Nat → m γ) :
    (traversePairs g ps >>= fun ps' => k (pairSlots ps') ps'.length) =
      ((pairSlots ps).mapM g >>= fun slots => k slots ps.length) := by
  induction ps generalizing k with
  | nil => simp [traversePairs, pairSlots]
  | cons p ps ih =>
    simp only [traversePairs, pairSlots] at ih ⊢
    simp only [List.mapM_cons, List.flatMap_cons, bind_assoc, pure_bind, List.length_cons,
      List.cons_append, List.nil_append]
    refine bind_congr fun first => bind_congr fun second => ?_
    exact ih fun slots n => k (first :: second :: slots) (n + 1)

/-- The changing visitor, followed by anything that looks only at the new
slots and the cleared payload, is the function run on the listed slots. -/
theorem traverseChildren_bind (g : Option NodeId → m (Option NodeId)) (d : NodeData) {γ : Type}
    (k : List (Option NodeId) → NodeData → m γ) :
    (d.traverseChildren g >>= fun d' => k d'.children d'.blank) =
      (d.children.mapM g >>= fun slots => k slots d.blank) := by
  -- Each arm visits its fields in the order `children` lists them; what is
  -- left to show is that every list of slots keeps its length.
  cases d with
  | vector elts | vec elts | operands elts =>
    simp [traverseChildren, blank, mapChildren, children]
    refine mapM_bind_congr fun slots length => ?_
    simp [length]
  | list entries =>
    simp [traverseChildren, blank, mapChildren, children]
    exact traversePairs_bind g entries fun slots n => k slots (.list (List.replicate n (none, none)))
  | constructor elts =>
    simp [traverseChildren, blank, mapChildren, children]
    exact traversePairs_bind g elts fun slots n =>
      k slots (.constructor (List.replicate n (none, none)))
  | call f c args =>
    simp [traverseChildren, blank, mapChildren, children]
    refine bind_congr fun _ => bind_congr fun _ => mapM_bind_congr fun slots length => ?_
    simp [length]
  | binfo b =>
    simp [traverseChildren, blank, mapChildren, children, BinfoData.traverseLinks,
      BinfoData.mapLinks, List.mapM_append]
    iterate 7 refine bind_congr fun _ => ?_
    refine mapM_bind_congr fun accesses accessesLength =>
      mapM_bind_congr fun bases basesLength => ?_
    simp [accessesLength, basesLength]
  | type t =>
    simp only [traverseChildren, TypeData.traverseLinks, children, TypeData.links, blank,
      mapChildren, TypeData.mapLinks, List.mapM_cons, List.mapM_nil, bind_assoc, pure_bind,
      map_bind, map_pure]
  | decl d =>
    simp only [traverseChildren, DeclData.traverseLinks, children, DeclData.links, blank,
      mapChildren, DeclData.mapLinks, List.mapM_cons, List.mapM_nil, bind_assoc, pure_bind,
      map_bind, map_pure]
  | _ => simp [traverseChildren, blank, mapChildren, children]

end NodeData

namespace Node

/-- The node with every child slot cleared, the type slot included: its code,
flags, position and what its payload holds besides node ids. -/
def blank (n : Node) : Node := n.mapChildren fun _ => none

/-- Where a node holds a node id: its type slot, and each place its payload holds one. -/
inductive Holds (n : Node) : Option NodeId → Prop
  | type : Holds n n.ty
  | payload {x : Option NodeId} : n.data.Holds x → Holds n x

theorem holds_iff {n : Node} {x : Option NodeId} : n.Holds x ↔ x ∈ n.children := by
  constructor
  · rintro (_ | ⟨held⟩)
    · exact List.mem_cons_self
    · exact List.mem_cons_of_mem _ (NodeData.holds_iff.1 held)
  · intro member
    rcases List.mem_cons.1 member with rfl | member
    · exact .type
    · exact .payload (NodeData.holds_iff.2 member)

/-- The changing visitor runs its function on exactly the slots `children`
lists, in order; the new slots are its answers, and nothing else changes. -/
theorem traverseChildren_slots (g : Option NodeId → m (Option NodeId)) (n : Node) :
    (fun n' => (n'.children, n'.blank)) <$> n.traverseChildren g =
      (fun slots => (slots, n.blank)) <$> n.children.mapM g := by
  simp only [traverseChildren, children, List.mapM_cons, map_bind, map_pure]
  refine bind_congr fun ty => ?_
  exact NodeData.traverseChildren_bind g n.data fun slots data =>
    pure (ty :: slots, { n.blank with data })

/-- The two visitors agree, slot for slot and in order, and between them they
reach every node id a node holds. -/
theorem traverseChildren_agrees_with_children (n : Node) (g : Option NodeId → m (Option NodeId)) :
    (fun n' => (n'.children, n'.blank)) <$> n.traverseChildren g =
        (fun slots => (slots, n.blank)) <$> n.children.mapM g ∧
      ∀ x, n.Holds x ↔ x ∈ n.children :=
  ⟨traverseChildren_slots g n, fun _ => holds_iff⟩

/-- A call with its type, its function, no static chain and two arguments,
visited by a function that records each slot it is given. -/
theorem traverseChildren_agrees_on_a_call :
    LawfulMonad (StateM (List (Option NodeId))) ∧
      let call : Node := {
        code := .callExpr, ty := some ⟨1⟩, data := .call (some ⟨2⟩) none [some ⟨3⟩, some ⟨4⟩] }
      let record : Option NodeId → StateM (List (Option NodeId)) (Option NodeId) :=
        fun slot => modifyGet fun seen => (slot, seen ++ [slot])
      ((fun n' => (n'.children, n'.blank)) <$> call.traverseChildren record =
          (fun slots => (slots, call.blank)) <$> call.children.mapM record) ∧
        ∀ x, call.Holds x ↔ x ∈ call.children :=
  ⟨inferInstance, traverseChildren_agrees_with_children _ _⟩

example :
    let call : Node := {
      code := .callExpr, ty := some ⟨1⟩, data := .call (some ⟨2⟩) none [some ⟨3⟩, some ⟨4⟩] }
    let record : Option NodeId → StateM (List (Option NodeId)) (Option NodeId) :=
      fun slot => modifyGet fun seen => (slot, seen ++ [slot])
    ((call.traverseChildren record).run []).2 = [some ⟨1⟩, some ⟨2⟩, none, some ⟨3⟩, some ⟨4⟩] := by
  rfl

/-- The renaming the linker applies to every node is the changing visitor
run with a function that keeps no state. -/
theorem mapChildren_eq_traverseChildren (f : Option NodeId → Option NodeId) (n : Node) :
    n.mapChildren f = Id.run (n.traverseChildren fun slot => pure (f slot)) := by
  rcases n with ⟨code, ty, flags, locus, data⟩
  cases data <;> simp [mapChildren, traverseChildren, NodeData.mapChildren,
    NodeData.traverseChildren, NodeData.traversePairs, TypeData.traverseLinks,
    TypeData.mapLinks, DeclData.traverseLinks, DeclData.mapLinks, BinfoData.traverseLinks,
    BinfoData.mapLinks]

end Node

end IrStream
