import Mathlib
import IrStream.Codec.CallGraph

/-!
The numbering of a call-graph section. The encoder numbers the members of the
partition in the order given, each once, and then every callee they reach
outside the partition, in the order the calls are listed (`CallGraph.boundary`).
So the section's nodes are `CallGraph.sectionNodes`, with no repeats, and the
encoder answers each node's position among them (`GraphEncoder.Numbers`).

* `GraphEncoder.numbers_foldl_encode`: numbering a list one node at a time keeps
  the nodes seen, each once, in order of first sight;
* `GraphEncoder.build_ok`: a numbering that succeeds numbers the section's nodes,
  every member is live, and every boundary node is live and inlined nowhere.
-/

namespace IrStream

/-- A loop in `Except` whose every round that succeeds goes on with `step`
and keeps `I`: when the loop succeeds from a state with `I`, it is the fold,
and its result has `I`. -/
theorem forIn_except_fold {α σ ε : Type} {f : α → σ → Except ε (ForInStep σ)} (step : σ → α → σ)
    (I : σ → Prop) {xs : List α} {init last : σ} (run : forIn xs init f = .ok last) (kept : I init)
    (round : ∀ x b r, I b → f x b = .ok r → r = .yield (step b x) ∧ I (step b x)) :
    last = xs.foldl step init ∧ I last := by
  induction xs generalizing init with
  | nil =>
    cases run
    exact ⟨rfl, kept⟩
  | cons x xs ih =>
    rw [List.forIn_cons] at run
    cases first : f x init with
    | error e => rw [first] at run; cases run
    | ok r =>
      obtain ⟨rfl, kept'⟩ := round x init r kept first
      rw [first] at run
      exact ih run kept'

namespace CallGraph

/-- The callees of the nodes of `set`, in the order their calls are listed. -/
def calleesOf (g : CallGraph) (set : List CgNodeId) : List CgNodeId :=
  set.flatMap fun id => (g.callees id).map (·.callee)

/-- The callees of `set` outside it, each once, in order of first call: the
nodes a section of `set` writes as bodiless functions. -/
def boundary (g : CallGraph) (set : List CgNodeId) : List CgNodeId :=
  ((g.calleesOf set).removeAll set).eraseDups

/-- The nodes of the section of `set`, in section order: the members, each
once, then the boundary. -/
def sectionNodes (g : CallGraph) (set : List CgNodeId) : List CgNodeId :=
  set.eraseDups ++ g.boundary set

end CallGraph

namespace GraphEncoder

/-- The encoder numbers the nodes of `l`, in order. -/
def Numbers (e : GraphEncoder) (l : List CgNodeId) : Prop :=
  e.nodes.toList = l ∧ ∀ id i, e.lookup id = some i ↔ l[i]? = some id

theorem lookup_isSome {e : GraphEncoder} {id : CgNodeId} : (e.lookup id).isSome = e.index.contains id := by
  simp [lookup]

theorem numbers_empty : ({} : GraphEncoder).Numbers [] := by
  refine ⟨rfl, fun id i => ?_⟩
  simp [lookup]

theorem Numbers.nodup {e : GraphEncoder} {l : List CgNodeId} (numbers : e.Numbers l) : l.Nodup := by
  refine List.nodup_iff_injective_get.2 fun i j same => Fin.ext ?_
  have atI := (numbers.2 (l.get i) i).2 (List.getElem?_eq_getElem i.2)
  have atJ := (numbers.2 (l.get j) j).2 (List.getElem?_eq_getElem j.2)
  rw [same, atJ] at atI
  exact (Option.some.inj atI).symm

/-- Numbering a node appends it, unless it is numbered. -/
theorem Numbers.encode {e : GraphEncoder} {acc : List CgNodeId} (numbers : e.Numbers acc.eraseDups)
    (id : CgNodeId) : (e.encode id).Numbers (acc ++ [id]).eraseDups := by
  by_cases old : id ∈ acc
  · have seen : e.index.contains id = true := by
      obtain ⟨i, found⟩ := List.mem_iff_getElem?.1 (List.mem_eraseDups.2 old)
      rw [← lookup_isSome, (numbers.2 id i).2 found]
      rfl
    have same : (acc ++ [id]).eraseDups = acc.eraseDups := by
      rw [List.eraseDups_append]
      simp [List.removeAll, old]
    rw [same]
    simpa [GraphEncoder.encode, seen] using numbers
  · have fresh : e.index.contains id = false := by
      rw [← lookup_isSome, Option.isSome_eq_false_iff, Option.isNone_iff_eq_none]
      cases found : e.lookup id with
      | none => rfl
      | some i =>
        exact absurd (List.mem_eraseDups.1 (List.mem_of_getElem? ((numbers.2 id i).1 found))) old
    have grown : (acc ++ [id]).eraseDups = acc.eraseDups ++ [id] := by
      rw [List.eraseDups_append]
      simp [List.removeAll, old, List.eraseDups_cons]
    have size : e.nodes.size = acc.eraseDups.length := by
      rw [← Array.length_toList, numbers.1]
    rw [grown]
    refine ⟨by simp [GraphEncoder.encode, fresh, numbers.1], fun x i => ?_⟩
    simp only [GraphEncoder.encode, fresh, Bool.false_eq_true, if_false, lookup,
      Std.HashMap.get?_eq_getElem?, Std.HashMap.getElem?_insert, beq_iff_eq]
    rw [List.getElem?_append]
    by_cases self : id = x
    · subst self
      simp only [if_true, Option.some.injEq, size]
      split
      · next inside =>
        -- an old entry equal to `id` would put `id` in `acc`
        constructor
        · intro; omega
        · intro found
          exact absurd (List.mem_eraseDups.1 (List.mem_of_getElem? found)) old
      · next outside =>
        constructor
        · rintro rfl
          simp
        · intro found
          have := (List.getElem?_eq_some_iff.1 found).1
          simp at this
          omega
    · have before := numbers.2 x i
      simp only [lookup, Std.HashMap.get?_eq_getElem?] at before
      simp only [self, if_false, before]
      split
      · rfl
      · next outside =>
        constructor
        · intro found
          exact absurd (List.getElem?_eq_some_iff.1 found).1 outside
        · intro found
          have := (List.getElem?_eq_some_iff.1 found)
          simp at this
          exact absurd this.2 self

theorem numbers_foldl_encode :
    ∀ (ids acc : List CgNodeId) (e : GraphEncoder), e.Numbers acc.eraseDups →
      (ids.foldl encode e).Numbers (acc ++ ids).eraseDups
  | [], acc, e, numbers => by simpa using numbers
  | id :: ids, acc, e, numbers => by
    rw [List.foldl_cons, ← List.singleton_append, ← List.append_assoc]
    exact numbers_foldl_encode ids _ _ (numbers.encode id)

theorem mem_encode {e : GraphEncoder} {id x : CgNodeId} (member : x ∈ (e.encode id).nodes.toList) :
    x ∈ e.nodes.toList ∨ x = id := by
  unfold encode at member
  split at member
  · exact .inl member
  · simpa using member

theorem partitionSize_foldl_encode (ids : List CgNodeId) (e : GraphEncoder) :
    (ids.foldl encode e).partitionSize = e.partitionSize := by
  induction ids generalizing e with
  | nil => rfl
  | cons id ids ih =>
    rw [List.foldl_cons, ih]
    unfold encode
    split <;> rfl

/-- Numbering a node already numbered changes nothing. -/
theorem encode_of_lookup {e : GraphEncoder} {id : CgNodeId} (numbered : (e.lookup id).isSome) :
    e.encode id = e := by
  rw [lookup_isSome] at numbered
  simp [encode, numbered]

end GraphEncoder

namespace GraphEncoder

/-- What a successful numbering of the partition `set` is: the members of
`set`, each once in order, then its boundary; the members are live, and the
boundary nodes are live functions inlined nowhere. -/
theorem build_ok {g : CallGraph} {set : List CgNodeId} {e : GraphEncoder} (built : build g set = .ok e) :
    e.Numbers (g.sectionNodes set) ∧ e.partitionSize = set.eraseDups.length ∧
      (∀ id ∈ set, (g.node? id).isSome) ∧
      ∀ id ∈ g.boundary set, ∃ n, g.node? id = some n ∧ n.global.inlinedTo = none := by
  unfold build at built
  unfold CallGraph.sectionNodes
  simp only [bind, Except.bind] at built
  split at built
  · cases built
  next e₁ members =>
  split at built
  · cases built
  next e₂ calls =>
  cases built
  -- the first pass numbers the members, each checked live
  obtain ⟨rfl, live⟩ := forIn_except_fold (fun (b : GraphEncoder) id => b.encode id)
    (fun b => ∀ x ∈ b.nodes.toList, (g.node? x).isSome) members (by simp) (by
      intro id b r kept run
      split at run
      · simp [throw, throwThe, MonadExceptOf.throw] at run
      · next present =>
        cases run
        refine ⟨rfl, fun x member => ?_⟩
        rcases mem_encode member with old | rfl
        · exact kept x old
        · simpa [Option.isSome_iff_ne_none] using present)
  have partition : (set.foldl (fun b id => b.encode id) ({} : GraphEncoder)).Numbers set.eraseDups := by
    simpa using numbers_foldl_encode set [] {} numbers_empty
  generalize (set.foldl (fun b id => b.encode id) ({} : GraphEncoder)) = e₁ at calls live partition
  -- the second pass numbers the callees not yet numbered, each checked live and not inlined
  let Good (x : CgNodeId) : Prop := ∃ n, g.node? x = some n ∧ n.global.inlinedTo = none
  obtain ⟨rfl, good⟩ := forIn_except_fold
    (fun (b : GraphEncoder) id => (g.callees id).foldl (fun b edge => b.encode edge.callee) b)
    (fun b => ∀ x ∈ b.nodes.toList, x ∈ e₁.nodes.toList ∨ Good x) calls (fun x member => .inl member) (by
      intro id b r kept run
      split at run
      · cases run
      next v inner =>
      cases run
      obtain ⟨rfl, kept'⟩ := forIn_except_fold (fun (b : GraphEncoder) (edge : CgEdge) => b.encode edge.callee)
        (fun b => ∀ x ∈ b.nodes.toList, x ∈ e₁.nodes.toList ∨ Good x) inner kept (by
          intro edge b r kept run
          split at run
          · next numbered =>
            cases run
            rw [encode_of_lookup numbered]
            exact ⟨rfl, kept⟩
          · split at run
            · next callee found =>
              split at run
              · simp [throw, throwThe, MonadExceptOf.throw] at run
              · next notInlined =>
                cases run
                refine ⟨rfl, fun x member => ?_⟩
                rcases mem_encode member with old | rfl
                · exact kept x old
                · exact .inr ⟨callee, found, by simpa using notInlined⟩
            · simp [throw, throwThe, MonadExceptOf.throw] at run)
      exact ⟨rfl, kept'⟩)
  have flat : ∀ (l : List CgNodeId) (b : GraphEncoder),
      l.foldl (fun (b : GraphEncoder) id => (g.callees id).foldl (fun (b : GraphEncoder) edge => b.encode edge.callee) b) b =
        (g.calleesOf l).foldl encode b := by
    intro l b
    simp [CallGraph.calleesOf, List.foldl_flatMap, List.foldl_map]
  have split : (set ++ g.calleesOf set).eraseDups = set.eraseDups ++ g.boundary set := by
    rw [List.eraseDups_append, CallGraph.boundary]
  have numbers : (set.foldl (fun (b : GraphEncoder) id => (g.callees id).foldl (fun (b : GraphEncoder) edge => b.encode edge.callee) b)
      { index := e₁.index, nodes := e₁.nodes, partitionSize := e₁.nodes.size }).Numbers
        (set.eraseDups ++ g.boundary set) := by
    rw [flat, ← split]
    exact numbers_foldl_encode _ _ _ partition
  refine ⟨numbers, ?_, fun id member => live id ?_, fun id member => ?_⟩
  · rw [flat, partitionSize_foldl_encode, ← Array.length_toList, partition.1]
  · rw [partition.1]
    exact List.mem_eraseDups.2 member
  · have numbered : id ∈ (set.eraseDups ++ g.boundary set) := List.mem_append_right _ member
    rw [← numbers.1] at numbered
    rcases good id numbered with old | found
    · rw [partition.1, List.mem_eraseDups] at old
      have outside := (List.mem_eraseDups.1 member)
      simp [List.removeAll, old] at outside
    · exact found

end GraphEncoder

end IrStream
