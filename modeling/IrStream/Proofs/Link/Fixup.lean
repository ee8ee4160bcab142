import Mathlib
import IrStream.Proofs.Link.SymbolTable
import IrStream.Proofs.Codec.Canonical

/-!
Fixup as one renaming. `SymbolTable.apply` runs once over the program, not to
a fixpoint; it is complete because the table's renaming `ρ = prevailing` has
no chains (`Coherent.prevailing_prevailing`). This module shows what one pass
does, for every program and every set of unit tables:

* `SymbolTable.apply_eq`: the pass in stages, `Arena.renameLive` for the node
  slots, `renameGlobals` for the file-scope list and `Program.dropCopy` per
  replacement for the call graph, the bodies and the freeing;
* one lemma per stage (`get?_renameLive`, `renameGlobals_eq_eraseDups`,
  `foldl_dropCopy`, `byDecl_foldl_replaceDecl`, …);
* `apply_fixedUp`: the program afterwards is `p` renamed by `ρ`
  (`FixedUp`), `apply_tables` and `apply_count` for the unit tables and the
  count, and `FixedUp.namesOnlyPrevailing`: nothing names a discarded copy
  afterwards.
-/

namespace IrStream

/-! ### Lists -/

theorem List.findSome?_congr_of_mem {α β : Type} {l : List α} {f g : α → Option β}
    (same : ∀ x ∈ l, f x = g x) : l.findSome? f = l.findSome? g := by
  induction l with
  | nil => rfl
  | cons head tail ih =>
    rw [List.findSome?_cons, List.findSome?_cons, same head (List.mem_cons_self ..),
      ih fun x member => same x (List.mem_cons_of_mem _ member)]

theorem List.eraseDups_of_nodup {l : List NodeId} (distinct : l.Nodup) : l.eraseDups = l := by
  cases l with
  | nil => rfl
  | cons head tail =>
    rw [List.eraseDups_cons]
    obtain ⟨fresh, rest⟩ := List.nodup_cons.1 distinct
    have kept : tail.filter (fun b => !b == head) = tail :=
      List.filter_eq_self.2 fun b member => by
        have : b ≠ head := fun same => fresh (same ▸ member)
        simpa using this
    rw [kept, List.eraseDups_of_nodup rest]
termination_by l.length

/-! ### The arena -/

namespace Arena

theorem mem_ids {a : Arena} {id : NodeId} : id ∈ a.ids ↔ id.val < a.nodes.size ∧ a.isFreed id = false := by
  obtain ⟨i⟩ := id
  simp only [ids, List.mem_filterMap, List.mem_range]
  constructor
  · rintro ⟨j, bound, chosen⟩
    split at chosen
    · simp at chosen
    · simp only [Option.some.injEq, NodeId.mk.injEq] at chosen
      subst chosen
      simp_all
  · rintro ⟨bound, live⟩
    exact ⟨i, bound, by simp [live]⟩

theorem nodup_ids (a : Arena) : a.ids.Nodup := by
  refine List.Nodup.filterMap (fun i j id chosenI chosenJ => ?_) List.nodup_range
  have fromI : id = ⟨i⟩ := by split at chosenI <;> simp_all
  have fromJ : id = ⟨j⟩ := by split at chosenJ <;> simp_all
  exact NodeId.mk.inj (fromI.symm.trans fromJ)

theorem get?_modify (a : Arena) (id : NodeId) (f : Node → Node) (j : NodeId) :
    (a.modify id f).get? j = if id = j then (a.get? j).map f else a.get? j := by
  simp only [modify, get?, Array.getElem?_modify]
  by_cases same : id = j
  · simp [same]
  · have : id.val ≠ j.val := fun equal => same (by cases id; cases j; simp_all)
    simp [same, this]

/-- Rename the children of every live node that `skip` passes over not. -/
def renameLive (a : Arena) (skip : NodeId → Bool) (f : NodeId → NodeId) : Arena :=
  a.ids.foldl (fun b id => if skip id then b else b.modify id (Node.mapChildren (Option.map f))) a

section Modify

variable (skip : NodeId → Bool) (g : Node → Node)

/-- Modifying the slots of a duplicate-free list of ids, each at most once. -/
theorem get?_foldl_modify {l : List NodeId} (distinct : l.Nodup) (a : Arena) (j : NodeId) :
    (l.foldl (fun b id => if skip id then b else b.modify id g) a).get? j =
      if j ∈ l ∧ skip j = false then (a.get? j).map g else a.get? j := by
  induction l generalizing a with
  | nil => simp
  | cons head tail ih =>
    obtain ⟨fresh, rest⟩ := List.nodup_cons.1 distinct
    simp only [List.foldl_cons]
    rw [ih rest]
    by_cases same : head = j
    · subst same
      cases skip head <;> simp [fresh, get?_modify]
    · cases skip head <;> simp [same, Ne.symm same, get?_modify]

theorem identifiers_foldl_modify (l : List NodeId) (a : Arena) :
    (l.foldl (fun b id => if skip id then b else b.modify id g) a).identifiers = a.identifiers := by
  induction l generalizing a with
  | nil => rfl
  | cons head tail ih =>
    rw [List.foldl_cons, ih]
    split <;> rfl

theorem freed_foldl_modify (l : List NodeId) (a : Arena) :
    (l.foldl (fun b id => if skip id then b else b.modify id g) a).freed = a.freed := by
  induction l generalizing a with
  | nil => rfl
  | cons head tail ih =>
    rw [List.foldl_cons, ih]
    split <;> rfl

end Modify

theorem get?_renameLive (a : Arena) (skip : NodeId → Bool) (f : NodeId → NodeId) (j : NodeId) :
    (a.renameLive skip f).get? j =
      if a.isFreed j = false ∧ skip j = false then (a.get? j).map (Node.mapChildren (Option.map f))
      else a.get? j := by
  rw [renameLive, get?_foldl_modify _ _ (nodup_ids a)]
  by_cases inside : j.val < a.nodes.size
  · simp [mem_ids, inside]
  · have : a.get? j = none := by simp [get?, inside]
    simp [this]

@[simp] theorem identifiers_renameLive (a : Arena) (skip : NodeId → Bool) (f : NodeId → NodeId) :
    (a.renameLive skip f).identifiers = a.identifiers :=
  identifiers_foldl_modify _ _ _ _

@[simp] theorem isFreed_renameLive (a : Arena) (skip : NodeId → Bool) (f : NodeId → NodeId) (j : NodeId) :
    (a.renameLive skip f).isFreed j = a.isFreed j := by
  simp [isFreed, renameLive, freed_foldl_modify]

theorem get?_free (a : Arena) (s j : NodeId) :
    (a.free s).get? j = if s = j then (a.get? j).map fun _ => Node.fresh .errorMark else a.get? j := by
  simp only [free, get?, Array.set!_eq_setIfInBounds, Array.getElem?_setIfInBounds]
  by_cases same : s = j
  · subst same
    by_cases inside : s.val < a.nodes.size <;> simp [inside]
  · have : s.val ≠ j.val := fun equal => same (by cases s; cases j; simp_all)
    simp [same, this]

theorem isFreed_free (a : Arena) (s j : NodeId) : (a.free s).isFreed j = (s == j || a.isFreed j) := by
  simp [free, isFreed, Std.HashMap.contains_insert]

theorem identifierName?_free (a : Arena) (s j : NodeId) :
    (a.free s).identifierName? j = if s = j then none else a.identifierName? j := by
  simp only [identifierName?, get?_free]
  split
  · cases a.get? j <;> rfl
  · rfl

/-- Freeing a list of slots, none an identifier: each becomes an error mark
and is marked freed, and the identifier index stays. -/
theorem foldl_free (l : List NodeId) (a : Arena) (plain : ∀ s ∈ l, a.identifierName? s = none) :
    (∀ j, (l.foldl free a).get? j = if j ∈ l then (a.get? j).map fun _ => Node.fresh .errorMark
      else a.get? j) ∧
    (∀ j, (l.foldl free a).isFreed j = (j ∈ l || a.isFreed j)) ∧
    (l.foldl free a).identifiers = a.identifiers := by
  induction l generalizing a with
  | nil => simp
  | cons head tail ih =>
    have still : ∀ s ∈ tail, (a.free head).identifierName? s = none := fun s member => by
      rw [identifierName?_free]
      split
      · rfl
      · exact plain s (List.mem_cons_of_mem _ member)
    obtain ⟨nodes, freed, names⟩ := ih (a.free head) still
    refine ⟨fun j => ?_, fun j => ?_, ?_⟩
    · rw [List.foldl_cons, nodes]
      simp only [get?_free]
      by_cases here : head = j
      · subst here
        by_cases later : head ∈ tail <;> simp [later, Option.map_map, Function.comp_def]
      · simp [here, Ne.symm here]
    · rw [List.foldl_cons, freed, isFreed_free]
      by_cases here : head = j
      · subst here; simp
      · simp [beq_eq_false_iff_ne.2 here, Ne.symm here]
    · rw [List.foldl_cons, names]
      simp [free, plain head (List.mem_cons_self ..)]

end Arena

/-! ### The globals -/

/-- The globals renamed by `f`, each kept at its first occurrence, as fixup
collects them: an array of the kept ones and the set of what it holds. -/
def renameGlobals (f : NodeId → NodeId) (globals : List NodeId) : List NodeId :=
  (globals.foldl (fun (acc : Array NodeId × Std.HashSet NodeId) g =>
      if acc.2.contains (f g) then acc else (acc.1.push (f g), acc.2.insert (f g))) (#[], {})).1.toList

/-- The collecting fold keeps, after what it has, the first occurrence of
each renamed element it does not have yet. -/
theorem foldl_firsts (f : NodeId → NodeId) (l : List NodeId) (kept : Array NodeId)
    (seen : Std.HashSet NodeId) (holds : ∀ x, seen.contains x ↔ x ∈ kept.toList) :
    (l.foldl (fun (acc : Array NodeId × Std.HashSet NodeId) g =>
      if acc.2.contains (f g) then acc else (acc.1.push (f g), acc.2.insert (f g))) (kept, seen)).1.toList =
      kept.toList ++ ((l.map f).filter fun x => x ∉ kept.toList).eraseDups := by
  induction l generalizing kept seen with
  | nil => simp
  | cons head tail ih =>
    simp only [List.foldl_cons, List.map_cons]
    by_cases had : seen.contains (f head)
    · -- a renamed element seen before is dropped
      have member : f head ∈ kept.toList := (holds _).1 had
      rw [if_pos had, ih kept seen holds, List.filter_cons_of_neg (by simpa using member)]
    · -- a new one is kept, and its later occurrences go
      have fresh : f head ∉ kept.toList := fun member => had ((holds _).2 member)
      have pushed : ∀ x, (seen.insert (f head)).contains x ↔ x ∈ (kept.push (f head)).toList := by
        intro x
        rw [Std.HashSet.contains_insert, Array.toList_push, List.mem_append, ← holds x]
        simp only [Bool.or_eq_true, beq_iff_eq, List.mem_singleton]
        tauto
      have later : ((tail.map f).filter fun x => x ∉ (kept.push (f head)).toList) =
          ((tail.map f).filter fun x => x ∉ kept.toList).filter fun x => !x == f head := by
        rw [List.filter_filter]
        exact List.filter_congr fun x _ => by by_cases same : x = f head <;> simp [same]
      rw [if_neg had, ih _ _ pushed, List.filter_cons_of_pos (by simpa using fresh),
        List.eraseDups_cons, later, Array.toList_push, List.append_assoc, List.singleton_append]

theorem renameGlobals_eq_eraseDups (f : NodeId → NodeId) (globals : List NodeId) :
    renameGlobals f globals = (globals.map f).eraseDups := by
  rw [renameGlobals, foldl_firsts f globals #[] {} (by simp)]
  simp

/-! ### The call graph -/

namespace CallGraph

theorem nodes_replaceDecl (g : CallGraph) (s d : NodeId) :
    (g.replaceDecl s d).nodes =
      g.nodes.map (Option.map fun n => { n with decl := if n.decl = s then d else n.decl }) := by
  simp only [replaceDecl]
  congr 1
  funext slot
  rcases slot with _ | n
  · rfl
  · by_cases same : n.decl = s <;> simp [same]

@[simp] theorem edges_replaceDecl (g : CallGraph) (s d : NodeId) :
    (g.replaceDecl s d).edges = g.edges := rfl

/-- The decl index after moving `s` to `d`: `s` loses its entry, and `d`
keeps its own or takes over the one of `s`. -/
theorem byDecl_replaceDecl (g : CallGraph) {s d : NodeId} (moved : s ≠ d) (k : NodeId) :
    (g.replaceDecl s d).byDecl[k]? =
      if k = s then none else if k = d then g.byDecl[d]?.or g.byDecl[s]? else g.byDecl[k]? := by
  simp only [replaceDecl, Std.HashMap.get?_eq_getElem?]
  cases found : g.byDecl[s]? with
  | none =>
    by_cases source : k = s
    · subst source; simp [found]
    · by_cases target : k = d
      · subst target; simp [source]
      · simp [source, target]
  | some id =>
    simp only
    have stays : (g.byDecl.erase s).contains d = g.byDecl.contains d := by
      rw [Std.HashMap.contains_erase]; simp [moved]
    by_cases source : k = s
    · subst source
      split <;> simp [Ne.symm moved]
    · by_cases target : k = d
      · -- the target keeps its own entry, or takes over the source's
        subst target
        rw [stays]
        cases own : g.byDecl[k]? with
        | none =>
          have : g.byDecl.contains k = false := by
            simp [Std.HashMap.contains_eq_isSome_getElem?, own]
          simp [this, source]
        | some j =>
          have : g.byDecl.contains k = true := by
            simp [Std.HashMap.contains_eq_isSome_getElem?, own]
          simp [this, Std.HashMap.getElem?_erase, moved, own, source]
      · split <;> simp [Std.HashMap.getElem?_insert, Std.HashMap.getElem?_erase, Ne.symm source,
          Ne.symm target]

section Moves

/-! A list of moves `(s, d)` whose sources are distinct and whose targets are
never sources, as fixup's replacements are. -/

variable {moves : List (NodeId × NodeId)}

theorem nodes_foldl_replaceDecl (moves : List (NodeId × NodeId)) (g : CallGraph) :
    (moves.foldl (fun g x => g.replaceDecl x.1 x.2) g).nodes =
      g.nodes.map (Option.map fun n =>
        { n with decl := moves.foldl (fun d x => if d = x.1 then x.2 else d) n.decl }) := by
  induction moves generalizing g with
  | nil => simp
  | cons head tail ih =>
    rw [List.foldl_cons, ih, nodes_replaceDecl, Array.map_map]
    congr 1
    funext slot
    cases slot <;> simp

@[simp] theorem edges_foldl_replaceDecl (moves : List (NodeId × NodeId)) (g : CallGraph) :
    (moves.foldl (fun g x => g.replaceDecl x.1 x.2) g).edges = g.edges := by
  induction moves generalizing g with
  | nil => rfl
  | cons head tail ih => simp [ih]

/-- A declaration moved along the list ends at the target of its own move. -/
theorem foldl_move (targets : ∀ x ∈ moves, ∀ y ∈ moves, x.2 ≠ y.1) (d : NodeId) :
    moves.foldl (fun d x => if d = x.1 then x.2 else d) d =
      ((moves.find? fun x => x.1 = d).map Prod.snd).getD d := by
  induction moves generalizing d with
  | nil => rfl
  | cons head tail ih =>
    have rest : ∀ x ∈ tail, ∀ y ∈ tail, x.2 ≠ y.1 := fun x hx y hy =>
      targets x (List.mem_cons_of_mem _ hx) y (List.mem_cons_of_mem _ hy)
    simp only [List.foldl_cons, List.find?_cons]
    by_cases here : d = head.1
    · -- the target of this move is no later source, so it stays
      subst here
      have stays : tail.find? (fun x => x.1 = head.2) = none :=
        List.find?_eq_none.2 fun y member same =>
          targets head (List.mem_cons_self ..) y (List.mem_cons_of_mem _ member)
            (Eq.symm (by simpa using same : y.1 = head.2))
      rw [if_pos rfl, ih rest, stays]
      simp
    · rw [if_neg here, ih rest]
      simp [Ne.symm here]

/-- The decl index after all moves: a source has no entry, and any other
declaration keeps its own entry or takes the first one among the sources
moved onto it. -/
theorem byDecl_foldl_replaceDecl (sources : (moves.map Prod.fst).Nodup)
    (targets : ∀ x ∈ moves, ∀ y ∈ moves, x.2 ≠ y.1) (g : CallGraph) (k : NodeId) :
    (moves.foldl (fun g x => g.replaceDecl x.1 x.2) g).byDecl[k]? =
      if k ∈ moves.map Prod.fst then none
      else g.byDecl[k]?.or (moves.findSome? fun x => if x.2 = k then g.byDecl[x.1]? else none) := by
  induction moves generalizing g with
  | nil => simp
  | cons head tail ih =>
    obtain ⟨s, d⟩ := head
    obtain ⟨fresh, rest⟩ := List.nodup_cons.1 sources
    have later : ∀ x ∈ tail, ∀ y ∈ tail, x.2 ≠ y.1 := fun x hx y hy =>
      targets x (List.mem_cons_of_mem _ hx) y (List.mem_cons_of_mem _ hy)
    have moved : s ≠ d := fun same => targets (s, d) (List.mem_cons_self ..) (s, d)
      (List.mem_cons_self ..) same.symm
    -- the later sources are neither `s` nor `d`, so this move leaves their entries
    have untouched : ∀ x ∈ tail, (g.replaceDecl s d).byDecl[x.1]? = g.byDecl[x.1]? := by
      intro x member
      have notS : x.1 ≠ s := fun same => fresh (List.mem_map.2 ⟨x, member, same⟩)
      have notD : x.1 ≠ d := fun same => targets (s, d) (List.mem_cons_self ..) x
        (List.mem_cons_of_mem _ member) same.symm
      simp [byDecl_replaceDecl _ moved, notS, notD]
    have found : (tail.findSome? fun x => if x.2 = k then (g.replaceDecl s d).byDecl[x.1]? else none) =
        tail.findSome? fun x => if x.2 = k then g.byDecl[x.1]? else none :=
      List.findSome?_congr_of_mem fun x member => by simp [untouched x member]
    rw [List.foldl_cons, ih rest later, found, byDecl_replaceDecl _ moved]
    by_cases source : k = s
    · -- a source is no target, so no later move brings an entry back
      subst source
      have none : (tail.findSome? fun x => if x.2 = k then g.byDecl[x.1]? else none) = none :=
        List.findSome?_eq_none_iff.2 fun x member => by
          have : x.2 ≠ k := targets x (List.mem_cons_of_mem _ member) (k, d) (List.mem_cons_self ..)
          simp [this]
      simp [none]
    · have mem : k ∈ ((s, d) :: tail).map Prod.fst ↔ k ∈ tail.map Prod.fst := by simp [source]
      simp only [mem, if_neg source]
      split
      · rfl
      · rw [List.findSome?_cons]
        by_cases target : k = d
        · subst target
          cases own : g.byDecl[s]? <;> simp
        · simp [target, Ne.symm target]

end Moves

end CallGraph

/-! ### The last pass: one step per replacement -/

namespace Program

/-- One step of fixup's last pass: the call graph moves from the copy to the
prevailing declaration, the copy's body is dropped and the copy is freed. -/
def dropCopy (p : Program) (x : NodeId × NodeId) : Program :=
  { p with callgraph := p.callgraph.replaceDecl x.1 x.2,
           functions := p.functions.filter (·.1 != x.1),
           arena := p.arena.free x.1 }

theorem foldl_dropCopy (moves : List (NodeId × NodeId)) (p : Program) :
    moves.foldl dropCopy p =
      { arena := (moves.map Prod.fst).foldl Arena.free p.arena,
        globals := p.globals,
        functions := p.functions.filter fun e => e.1 ∉ moves.map Prod.fst,
        callgraph := moves.foldl (fun g x => g.replaceDecl x.1 x.2) p.callgraph } := by
  induction moves generalizing p with
  | nil => simp
  | cons head tail ih =>
    rw [List.foldl_cons, ih]
    simp only [dropCopy, List.map_cons, List.foldl_cons, List.filter_filter, List.mem_cons,
      not_or, Program.mk.injEq, true_and, and_true]
    exact List.filter_congr fun e _ => by by_cases same : e.1 = head.1 <;> simp [same]

end Program

/-! ### The pass in stages -/

namespace SymbolTable

variable {p : Program} {t : SymbolTable}

/-- The map fixup looks prevailing declarations up in. -/
def replacementMap (t : SymbolTable) : Std.HashMap NodeId NodeId :=
  t.replacements.foldl (fun m x => m.insert x.1 x.2) {}

theorem apply_eq (t : SymbolTable) (p : Program) (units : List UnitDecls) :
    t.apply p units =
      if t.replacements.isEmpty then (p, units, 0)
      else
        let resolve := fun id => t.replacementMap.getD id id
        (t.replacements.foldl Program.dropCopy
            { p with arena := p.arena.renameLive t.replacementMap.contains resolve,
                     globals := renameGlobals resolve p.globals },
          units.map (·.map resolve), t.replacements.length) := rfl

theorem getElem?_foldl_insert (pairs : List (NodeId × NodeId)) (m : Std.HashMap NodeId NodeId)
    {k v : NodeId} (found : (pairs.foldl (fun m x => m.insert x.1 x.2) m)[k]? = some v) :
    (k, v) ∈ pairs ∨ m[k]? = some v := by
  induction pairs generalizing m with
  | nil => exact Or.inr found
  | cons head tail ih =>
    rcases ih _ found with member | earlier
    · exact Or.inl (List.mem_cons_of_mem _ member)
    · rw [Std.HashMap.getElem?_insert] at earlier
      split at earlier
      · rename_i same
        obtain rfl : head.1 = k := by simpa using same
        obtain rfl : head.2 = v := Option.some.inj earlier
        exact Or.inl (by simp)
      · exact Or.inr earlier

theorem contains_foldl_insert (pairs : List (NodeId × NodeId)) (m : Std.HashMap NodeId NodeId)
    (k : NodeId) :
    (pairs.foldl (fun m x => m.insert x.1 x.2) m).contains k ↔ k ∈ pairs.map Prod.fst ∨ m.contains k := by
  induction pairs generalizing m with
  | nil => simp
  | cons head tail ih =>
    rw [List.foldl_cons, ih, Std.HashMap.contains_insert]
    simp only [List.map_cons, List.mem_cons, Bool.or_eq_true, beq_iff_eq]
    tauto

theorem mem_replacements_keys {d : NodeId} : d ∈ t.replacements.map Prod.fst ↔ t.prevailing d ≠ d := by
  simp [mem_replacements]

/-- The replacement map holds exactly the copies that do not prevail. -/
theorem contains_replacementMap (d : NodeId) : t.replacementMap.contains d ↔ t.prevailing d ≠ d := by
  rw [replacementMap, contains_foldl_insert, mem_replacements_keys]
  simp

/-- Looking a declaration up in the replacement map gives its prevailing copy. -/
theorem getD_replacementMap (d : NodeId) : t.replacementMap.getD d d = t.prevailing d := by
  rw [Std.HashMap.getD_eq_getD_getElem?]
  cases found : t.replacementMap[d]? with
  | none =>
    have : ¬ t.replacementMap.contains d := by
      simp [Std.HashMap.contains_eq_isSome_getElem?, found]
    by_contra moved
    exact this ((contains_replacementMap d).2 (Ne.symm moved))
  | some v =>
    rcases getElem?_foldl_insert _ _ found with member | empty
    · rw [Option.getD_some]
      exact (mem_replacements.1 member).2
    · simp at empty

theorem resolve_eq_prevailing : (fun d => t.replacementMap.getD d d) = t.prevailing :=
  funext getD_replacementMap

/-- Without replacements every declaration prevails over itself. -/
theorem prevailing_of_replacements_nil (none : t.replacements = []) (d : NodeId) :
    t.prevailing d = d := by
  by_contra moved
  have : (d, t.prevailing d) ∈ t.replacements := mem_replacements.2 ⟨moved, rfl⟩
  simp [none] at this

end SymbolTable

/-! ### What fixup does -/

/-- `q` is `p` with every reference renamed by `ρ` and the copies that `ρ`
moves freed: live nodes that stay have each child slot renamed and nothing
else changed, freed slots that stay are untouched, each moved copy's slot is
an error mark and marked freed, the identifier index is kept, the globals are
renamed and keep their first occurrences, moved copies lose their bodies,
every call-graph node's declaration is renamed with the edges kept, and the
decl index follows the renaming. -/
structure FixedUp (ρ : NodeId → NodeId) (p q : Program) : Prop where
  renamed : ∀ id, ρ id = id → p.arena.isFreed id = false →
    q.arena.get? id = (p.arena.get? id).map (Node.mapChildren (Option.map ρ))
  untouched : ∀ id, ρ id = id → p.arena.isFreed id = true → q.arena.get? id = p.arena.get? id
  cleared : ∀ id, ρ id ≠ id → q.arena.get? id = some (Node.fresh .errorMark)
  freed : ∀ id, q.arena.isFreed id = true ↔ p.arena.isFreed id = true ∨ ρ id ≠ id
  identifiers : q.arena.identifiers = p.arena.identifiers
  globals : q.globals = (p.globals.map ρ).eraseDups
  functions : q.functions = p.functions.filter fun e => ρ e.1 = e.1
  graphNodes : q.callgraph.nodes = p.callgraph.nodes.map (Option.map fun n => { n with decl := ρ n.decl })
  graphEdges : q.callgraph.edges = p.callgraph.edges
  /-- A moved copy has no node in the decl index. -/
  indexDropped : ∀ d, ρ d ≠ d → q.callgraph.nodeForDecl d = none
  /-- A declaration that stays keeps its node. -/
  indexKept : ∀ d i, ρ d = d → p.callgraph.nodeForDecl d = some i → q.callgraph.nodeForDecl d = some i
  /-- A declaration with a node still finds one through its renaming. -/
  indexFollows : ∀ d i, p.callgraph.nodeForDecl d = some i → (q.callgraph.nodeForDecl (ρ d)).isSome
  /-- Every node the index gives was the node of a declaration renamed to it. -/
  indexFrom : ∀ d i, q.callgraph.nodeForDecl d = some i →
    ∃ c, ρ c = d ∧ p.callgraph.nodeForDecl c = some i

/-- Nothing in the program or the tables names a declaration that `ρ` moves. -/
structure NamesOnlyPrevailing (ρ : NodeId → NodeId) (q : Program) (units : List UnitDecls) : Prop where
  nodes : ∀ id node, q.arena.isFreed id = false → q.arena.get? id = some node →
    ∀ c ∈ node.children, ∀ x ∈ c, ρ x = x
  tables : ∀ u ∈ units, ∀ table ∈ u.tables, ∀ x ∈ table, ρ x = x
  globals : ∀ g ∈ q.globals, ρ g = g
  graph : ∀ slot ∈ q.callgraph.nodes, ∀ n ∈ slot, ρ n.decl = n.decl

namespace SymbolTable

variable {p : Program} {t : SymbolTable}

/-- The sources and targets of the replacements of a coherent table: no
target is a source. -/
theorem Coherent.targets (coherent : Coherent p t) :
    ∀ x ∈ t.replacements, ∀ y ∈ t.replacements, x.2 ≠ y.1 := by
  intro x hx y hy same
  obtain ⟨-, target⟩ := mem_replacements.1 hx
  obtain ⟨moved, -⟩ := mem_replacements.1 hy
  exact moved (by rw [← same, target, coherent.prevailing_prevailing])

/-- Following the replacements from any declaration ends at its prevailing copy. -/
theorem Coherent.foldl_move (coherent : Coherent p t) (d : NodeId) :
    t.replacements.foldl (fun d x => if d = x.1 then x.2 else d) d = t.prevailing d := by
  rw [CallGraph.foldl_move coherent.targets]
  cases found : t.replacements.find? (fun x => x.1 = d) with
  | none =>
    by_contra moved
    have := List.find?_eq_none.1 found (d, t.prevailing d)
      (mem_replacements.2 ⟨fun same => moved (by simp [same]), rfl⟩)
    simp at this
  | some x =>
    have same : x.1 = d := by simpa using List.find?_some found
    simp [(mem_replacements.1 (List.mem_of_find?_eq_some found)).2, same]

theorem identity_fixedUp (same : ∀ d, t.prevailing d = d) (distinct : p.globals.Nodup) :
    FixedUp t.prevailing p p := by
  have ident : t.prevailing = id := funext same
  have keep : Option.map t.prevailing = id := funext fun slot => by cases slot <;> simp [same]
  refine ⟨fun id _ _ => ?_, fun _ _ _ => rfl, fun id moved => absurd (same id) moved,
    fun id => by simp [same], rfl, ?globals, ?functions, ?nodes, rfl,
    fun d moved => absurd (same d) moved, fun _ _ _ found => found,
    fun d i found => by simp [same, found], fun d i found => ⟨d, same d, found⟩⟩
  · cases found : p.arena.get? id with
    | none => rfl
    | some n => simp [keep, Node.mapChildren]
  case globals => simp [ident, List.eraseDups_of_nodup distinct]
  case functions => exact (List.filter_eq_self.2 fun e _ => by simp [same]).symm
  case nodes =>
    conv_lhs => rw [← Array.map_id p.callgraph.nodes]
    congr 1
    funext slot
    cases slot <;> simp [same]

/-- The pass in stages over a coherent table renames the program by its
prevailing map. -/
theorem staged_fixedUp (coherent : Coherent p t) :
    FixedUp t.prevailing p
      (t.replacements.foldl Program.dropCopy
        { p with arena := p.arena.renameLive t.replacementMap.contains (fun id => t.replacementMap.getD id id),
                 globals := renameGlobals (fun id => t.replacementMap.getD id id) p.globals }) := by
  rw [Program.foldl_dropCopy, resolve_eq_prevailing]
  have idem := coherent.prevailing_prevailing
  have sources : (t.replacements.map Prod.fst).Nodup := nodup_replacements_keys
  have targets := coherent.targets
  have keys : ∀ j, j ∈ t.replacements.map Prod.fst ↔ t.prevailing j ≠ j := fun j => mem_replacements_keys
  have skip : ∀ j, t.replacementMap.contains j = false ↔ t.prevailing j = j := fun j => by
    rw [← Bool.not_eq_true, contains_replacementMap, not_not]
  -- each moved copy is a declaration of `p`, so it is no identifier and lies in the arena
  have plain : ∀ s ∈ t.replacements.map Prod.fst,
      (p.arena.renameLive t.replacementMap.contains t.prevailing).identifierName? s = none := by
    intro s member
    obtain ⟨node, data, found, isDecl⟩ := coherent.decl_of_prevailing_ne ((keys s).1 member)
    have skipped : t.replacementMap.contains s = true := (contains_replacementMap s).2 ((keys s).1 member)
    simp [Arena.identifierName?, Arena.get?_renameLive, skipped, found, Node.identifier?, isDecl]
  obtain ⟨nodes, freed, names⟩ := Arena.foldl_free _ _ plain
  refine ⟨fun id stays live => ?_, fun id stays dead => ?_, fun id moved => ?_, fun id => ?_, ?_, ?_,
    ?_, ?_, ?_, fun d moved => ?_, fun d i stays found => ?_, fun d i found => ?_,
    fun d i found => ?_⟩
  · rw [nodes, if_neg fun member => (keys id).1 member stays, Arena.get?_renameLive,
      if_pos ⟨live, (skip id).2 stays⟩]
  · rw [nodes, if_neg fun member => (keys id).1 member stays, Arena.get?_renameLive,
      if_neg fun both => by simp [dead] at both]
  · obtain ⟨node, data, found, -⟩ := coherent.decl_of_prevailing_ne moved
    have skipped : t.replacementMap.contains id = true := (contains_replacementMap id).2 moved
    rw [nodes, if_pos ((keys id).2 moved), Arena.get?_renameLive,
      if_neg fun both => by simp [skipped] at both, found]
    rfl
  · rw [freed, Arena.isFreed_renameLive]
    simp only [Bool.or_eq_true, decide_eq_true_eq, keys]
    tauto
  · rw [names, Arena.identifiers_renameLive]
  · exact renameGlobals_eq_eraseDups _ _
  · exact List.filter_congr fun e _ => by simp [keys]
  · rw [CallGraph.nodes_foldl_replaceDecl]
    congr 1
    funext slot
    cases slot <;> simp [coherent.foldl_move]
  · simp
  · rw [CallGraph.nodeForDecl, Std.HashMap.get?_eq_getElem?,
      CallGraph.byDecl_foldl_replaceDecl sources targets, if_pos ((keys d).2 moved)]
  · simp only [CallGraph.nodeForDecl, Std.HashMap.get?_eq_getElem?] at found ⊢
    rw [CallGraph.byDecl_foldl_replaceDecl sources targets,
      if_neg fun member => (keys d).1 member stays, found, Option.some_or]
  · simp only [CallGraph.nodeForDecl, Std.HashMap.get?_eq_getElem?] at found ⊢
    rw [CallGraph.byDecl_foldl_replaceDecl sources targets,
      if_neg fun member => (keys _).1 member (idem d)]
    by_cases stays : t.prevailing d = d
    · simp [stays, found]
    · -- the move of `d` itself brings its entry along
      have move : (d, t.prevailing d) ∈ t.replacements := mem_replacements.2 ⟨stays, rfl⟩
      have : (t.replacements.findSome? fun x =>
          if x.2 = t.prevailing d then p.callgraph.byDecl[x.1]? else none).isSome :=
        List.findSome?_isSome_iff.2 ⟨(d, t.prevailing d), move, by simp [found]⟩
      cases own : p.callgraph.byDecl[t.prevailing d]? <;> simp_all
  · simp only [CallGraph.nodeForDecl, Std.HashMap.get?_eq_getElem?] at found ⊢
    rw [CallGraph.byDecl_foldl_replaceDecl sources targets] at found
    split at found
    · simp at found
    · rename_i kept
      have stays : t.prevailing d = d := by
        by_contra moved
        exact kept ((keys d).2 moved)
      cases own : p.callgraph.byDecl[d]? with
      | some j =>
        rw [own, Option.some_or] at found
        exact ⟨d, stays, by rw [own, found]⟩
      | none =>
        rw [own, Option.none_or] at found
        obtain ⟨x, member, chosen⟩ := List.exists_of_findSome?_eq_some found
        split at chosen
        · rename_i target
          exact ⟨x.1, by rw [← (mem_replacements.1 member).2, target], chosen⟩
        · simp at chosen

/-- Fixup renames the program by the table's prevailing map. -/
theorem apply_fixedUp (coherent : Coherent p t) (distinct : p.globals.Nodup) (units : List UnitDecls) :
    FixedUp t.prevailing p (t.apply p units).1 := by
  rw [apply_eq]
  split
  · rename_i none
    exact identity_fixedUp (prevailing_of_replacements_nil (List.isEmpty_iff.1 none)) distinct
  · exact staged_fixedUp coherent

theorem UnitDecls.map_of_forall_eq {u : UnitDecls} {f : NodeId → NodeId} (same : ∀ d, f d = d) :
    u.map f = u := by
  have : (fun table : Array NodeId => table.map f) = id := funext fun table => by
    simp [show f = id from funext same]
  simp [UnitDecls.map, this]

/-- Every entry of every unit table is renamed to its prevailing copy. -/
theorem apply_tables (t : SymbolTable) (p : Program) (units : List UnitDecls) :
    (t.apply p units).2.1 = units.map (·.map t.prevailing) := by
  rw [apply_eq]
  split
  · rename_i none
    have same := prevailing_of_replacements_nil (List.isEmpty_iff.1 none)
    simp [UnitDecls.map_of_forall_eq same]
  · simp [resolve_eq_prevailing]

/-- Fixup answers the number of copies it replaced: those that do not prevail. -/
theorem apply_count (t : SymbolTable) (p : Program) (units : List UnitDecls) :
    (t.apply p units).2.2 = {d | t.prevailing d ≠ d}.ncard := by
  have count : (t.apply p units).2.2 = t.replacements.length := by
    rw [apply_eq]
    split
    · rename_i none
      simp [List.isEmpty_iff.1 none]
    · rfl
  have moved : {d | t.prevailing d ≠ d} = ↑(t.replacements.map Prod.fst).toFinset := by
    ext d
    simp [mem_replacements_keys]
  rw [count, moved, Set.ncard_coe_finset, List.toFinset_card_of_nodup nodup_replacements_keys,
    List.length_map]

end SymbolTable

/-- With a renaming that has no chains, a fixed-up program and renamed tables
name only declarations the renaming keeps. -/
theorem FixedUp.namesOnlyPrevailing {ρ : NodeId → NodeId} {p q : Program}
    (fixed : FixedUp ρ p q) (idem : ∀ d, ρ (ρ d) = ρ d) (units : List UnitDecls) :
    NamesOnlyPrevailing ρ q (units.map (·.map ρ)) := by
  refine ⟨fun id node live found c member x slot => ?_, fun u member table inTable x inside => ?_,
    fun g member => ?_, fun slot member n inSlot => ?_⟩
  · have alive : p.arena.isFreed id = false ∧ ρ id = id := by
      have := fixed.freed id
      cases freedBefore : p.arena.isFreed id <;> simp_all
    rw [fixed.renamed id alive.2 alive.1] at found
    obtain ⟨old, -, rfl⟩ := Option.map_eq_some_iff.1 found
    rw [Node.children_mapChildren] at member
    obtain ⟨c', -, rfl⟩ := List.mem_map.1 member
    obtain ⟨y, -, rfl⟩ := Option.map_eq_some_iff.1 slot
    exact idem y
  · obtain ⟨u', -, rfl⟩ := List.mem_map.1 member
    simp only [UnitDecls.map, Array.mem_map] at inTable
    obtain ⟨table', -, rfl⟩ := inTable
    obtain ⟨y, -, rfl⟩ := Array.mem_map.1 inside
    exact idem y
  · rw [fixed.globals, List.mem_eraseDups] at member
    obtain ⟨y, -, rfl⟩ := List.mem_map.1 member
    exact idem y
  · rw [fixed.graphNodes] at member
    obtain ⟨old, -, rfl⟩ := Array.mem_map.1 member
    obtain ⟨n', -, rfl⟩ := Option.map_eq_some_iff.1 inSlot
    exact idem n'.decl

namespace SymbolTable

variable {p : Program} {t : SymbolTable}

/-- Fixup over a table built by merging: the program is renamed by the
prevailing map (each discarded copy freed, nothing else touched), every unit
table entry is renamed, the answer counts the discarded copies, and afterwards
nothing the program or the tables name is a discarded copy. The globals are
duplicate-free, as in every session, where each enters through
`Program.addGlobal` (`Session.AddsUnits.globals_nodup`). -/
theorem apply_rewrites_to_prevailing (merged : MergedFrom p t) (distinct : p.globals.Nodup)
    (units : List UnitDecls) :
    FixedUp t.prevailing p (t.apply p units).1 ∧
      (t.apply p units).2.1 = units.map (·.map t.prevailing) ∧
      (t.apply p units).2.2 = {d | t.prevailing d ≠ d}.ncard ∧
      NamesOnlyPrevailing t.prevailing (t.apply p units).1 (t.apply p units).2.1 := by
  have coherent := merged.coherent
  have fixed := apply_fixedUp coherent distinct units
  refine ⟨fixed, apply_tables t p units, apply_count t p units, ?_⟩
  rw [apply_tables]
  exact fixed.namesOnlyPrevailing coherent.prevailing_prevailing units

/-- Two public definitions of one function, named through one identifier. -/
def twoCopies : Program where
  arena := { nodes := #[{ code := .identifierNode, data := .identifier "main" },
    { code := .functionDecl, data := .decl { name := some ⟨0⟩ } },
    { code := .functionDecl, data := .decl { name := some ⟨0⟩ } }] }
  globals := [⟨1⟩, ⟨2⟩]

/-- The copy of the first unit is merged before the copy of the second. -/
def twoCopiesMerged : SymbolTable :=
  let copy (decl : NodeId) : SymbolInfo :=
    { name := "main", decl, kind := .function, isPublic := true, external := false, weak := false }
  ((({} : SymbolTable).merge 0 (copy ⟨1⟩) .prevailingDef).1.merge 1 (copy ⟨2⟩) .resolvedElsewhere).1

theorem twoCopies_rewrite :
    MergedFrom twoCopies twoCopiesMerged ∧ twoCopies.globals.Nodup ∧
      FixedUp twoCopiesMerged.prevailing twoCopies (twoCopiesMerged.apply twoCopies []).1 ∧
      (twoCopiesMerged.apply twoCopies []).2.1 = [] ∧
      (twoCopiesMerged.apply twoCopies []).2.2 = {d | twoCopiesMerged.prevailing d ≠ d}.ncard ∧
      NamesOnlyPrevailing twoCopiesMerged.prevailing (twoCopiesMerged.apply twoCopies []).1
        (twoCopiesMerged.apply twoCopies []).2.1 :=
  have merged : MergedFrom twoCopies twoCopiesMerged := .merge (.merge .empty rfl) rfl
  have distinct : twoCopies.globals.Nodup := by decide
  ⟨merged, distinct, apply_rewrites_to_prevailing merged distinct []⟩

end SymbolTable

end IrStream
