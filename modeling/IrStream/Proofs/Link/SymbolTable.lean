import Mathlib
import IrStream.Link.SymbolTable

/-!
The symbol table as merging builds it. A copy is merged under the link-time
name of its declaration; the table keeps one entry per name and, per copy,
the name it was merged under. Two facts carry everything fixup relies on:

* `SymbolTable.Coherent`: every copy is recorded under its declaration's
  name, and every entry names a copy recorded under the entry's own name.
  `Coherent.merge` shows that one merge keeps it, failed merges included,
  and `MergedFrom.coherent` that every table built by merges has it;
* `Coherent.prevailing_prevailing`: so the prevailing copy of a prevailing
  copy is itself, and the replacement map has no chains.

`mem_replacements` and `nodup_replacements_keys` say which pairs
`replacements` lists: each discarded copy once, with its prevailing copy.

A merge records its copy before it checks the entry of the copy's name, so a
merge that fails is not undone: `merge_failed` says where it fails, and
`failed_merge_records_only_its_copy` what it leaves, the entries and the order
as they were and the failed copy recorded, now replaced by the entry it met.
-/

namespace IrStream

namespace SymbolTable

variable {p : Program} {t : SymbolTable}

/-- A table built by merging copies, each under the link-time name its
declaration has in `p`. A merge that fails still records its copy, so the
table after a failed merge counts as built too. -/
inductive MergedFrom (p : Program) : SymbolTable → Prop
  | empty : MergedFrom p {}
  | merge {t : SymbolTable} {unit : Nat} {s : SymbolInfo} {r : Resolution} :
      MergedFrom p t → p.symbolName? s.decl = some s.name → MergedFrom p (t.merge unit s r).1

/-- Every copy is recorded under its declaration's link-time name in `p`, and
every entry's declaration is a copy recorded under that entry's name. -/
structure Coherent (p : Program) (t : SymbolTable) : Prop where
  named : ∀ {d : NodeId} {n : String} {r : Resolution},
    t.copies[d]? = some (n, r) → p.symbolName? d = some n
  chosen : ∀ {n : String} {e : SymbolEntry},
    t.entries[n]? = some e → ∃ r, t.copies[e.decl]? = some (n, r)

/-- A merge records its copy, whether it succeeds or not. -/
theorem merge_copies (t : SymbolTable) (unit : Nat) (s : SymbolInfo) (r : Resolution) :
    (t.merge unit s r).1.copies = t.copies.insert s.decl (s.name, r) := by
  simp only [merge]
  split <;> (try split_ifs) <;> rfl

/-- The entry a merge makes for its copy. -/
def candidate (unit : Nat) (s : SymbolInfo) (r : Resolution) : SymbolEntry :=
  { decl := s.decl, kind := s.kind, resolution := r, external := s.external, unit }

/-- A merge leaves the entries alone or sets its copy's entry. -/
theorem merge_entries (t : SymbolTable) (unit : Nat) (s : SymbolInfo) (r : Resolution) :
    (t.merge unit s r).1.entries = t.entries ∨
      (t.merge unit s r).1.entries = t.entries.insert s.name (candidate unit s r) := by
  simp only [merge]
  split
  · exact Or.inr rfl
  · split_ifs
    all_goals first | exact Or.inl rfl | exact Or.inr rfl

/-- A merge fails only on a name that has an entry: with a kind conflict when
the entry's kind differs, else with a clash when both the copy and the entry
prevail. It then leaves the entries and the order alone and has recorded its
copy. -/
theorem merge_failed {unit : Nat} {s : SymbolInfo} {r : Resolution} {err : StreamError}
    (failed : (t.merge unit s r).2 = some err) :
    (t.merge unit s r).1.entries = t.entries ∧ (t.merge unit s r).1.order = t.order ∧
      (t.merge unit s r).1.copies = t.copies.insert s.decl (s.name, r) ∧
      ∃ e, t.entries[s.name]? = some e ∧
        (e.kind ≠ s.kind ∧ err = .symbolKindConflict s.name ∨
          e.kind = s.kind ∧ r.isPrevailing = true ∧ e.resolution.isPrevailing = true ∧
            err = .alreadyDefined s.name) := by
  refine ⟨?_, ?_, merge_copies t unit s r, ?_⟩ <;> simp only [merge] at failed ⊢
  all_goals
    split at failed
    · simp at failed
    · rename_i e found
      rw [Std.HashMap.get?_eq_getElem?] at found
      split_ifs at failed ⊢ <;> simp_all

/-- A failed merge leaves the entries and the order as they were, and changes
the copies only at its own: every other copy keeps its record, the copy that
prevails over it and its resolution, while the failed copy is recorded with its
resolution and is now replaced by the entry its name already had. -/
theorem failed_merge_records_only_its_copy {unit : Nat} {s : SymbolInfo} {r : Resolution}
    {err : StreamError} (failed : (t.merge unit s r).2 = some err) :
    let t' := (t.merge unit s r).1
    t'.entries = t.entries ∧ t'.order = t.order ∧
      (∀ d, d ≠ s.decl → t'.copies[d]? = t.copies[d]? ∧ t'.prevailing d = t.prevailing d ∧
        t'.isPrevailing d = t.isPrevailing d ∧ t'.resolution? d = t.resolution? d) ∧
      t'.copies[s.decl]? = some (s.name, r) ∧ t'.resolution? s.decl = some r ∧
      ∃ e, t.entries[s.name]? = some e ∧ t'.prevailing s.decl = e.decl := by
  dsimp only
  obtain ⟨entries, order, copies, e, found, -⟩ := merge_failed failed
  have others : ∀ d, d ≠ s.decl → (t.merge unit s r).1.copies[d]? = t.copies[d]? := by
    intro d other
    rw [copies, Std.HashMap.getElem?_insert, if_neg (by simpa using Ne.symm other)]
  have own : (t.merge unit s r).1.copies[s.decl]? = some (s.name, r) := by
    rw [copies, Std.HashMap.getElem?_insert_self]
  refine ⟨entries, order, fun d other => ?_, own, ?_, e, found, ?_⟩
  · -- the copy's record and the entries are as before, so is all that is read from them
    have kept := others d other
    have prevails : (t.merge unit s r).1.prevailing d = t.prevailing d := by
      simp only [prevailing, Std.HashMap.get?_eq_getElem?, kept, entries]
    refine ⟨kept, prevails, by simp [isPrevailing, prevails], ?_⟩
    simp only [resolution?, Std.HashMap.get?_eq_getElem?, kept]
  · simp [resolution?, own]
  · simp [prevailing, own, entries, found]

/-- A function `f`, and a variable `f` in another copy. -/
def functionF : SymbolInfo :=
  { name := "f", decl := ⟨1⟩, kind := .function, isPublic := true, external := false, weak := false }

def variableF : SymbolInfo := { functionF with decl := ⟨2⟩, kind := .var }

/-- Merging the variable after the function is a kind conflict, and leaves the
variable's copy recorded and replaced by the function. -/
theorem kindConflict_records_copy :
    let t := (({} : SymbolTable).merge 0 functionF .prevailingDef).1
    (t.merge 1 variableF .prevailingDef).2 = some (.symbolKindConflict "f") ∧
    let t' := (t.merge 1 variableF .prevailingDef).1
    t'.entries = t.entries ∧ t'.order = t.order ∧
      (∀ d, d ≠ variableF.decl → t'.copies[d]? = t.copies[d]? ∧ t'.prevailing d = t.prevailing d ∧
        t'.isPrevailing d = t.isPrevailing d ∧ t'.resolution? d = t.resolution? d) ∧
      t'.copies[variableF.decl]? = some (variableF.name, .prevailingDef) ∧
      t'.resolution? variableF.decl = some .prevailingDef ∧
      ∃ e, t.entries[variableF.name]? = some e ∧ t'.prevailing variableF.decl = e.decl :=
  have conflict : ((({} : SymbolTable).merge 0 functionF .prevailingDef).1.merge 1 variableF
      .prevailingDef).2 = some (.symbolKindConflict "f") := by
    simp [merge, functionF, variableF]
  ⟨conflict, failed_merge_records_only_its_copy conflict⟩

theorem empty_coherent : Coherent p {} where
  named found := by simp at found
  chosen found := by simp at found

/-- Merging a copy under its declaration's own name keeps the table coherent. -/
theorem Coherent.merge (coherent : Coherent p t) {unit : Nat} {s : SymbolInfo} {r : Resolution}
    (own : p.symbolName? s.decl = some s.name) : Coherent p (t.merge unit s r).1 := by
  -- a copy that was recorded before keeps its name: it is the merged one only
  -- if it has the merged one's name
  have kept : ∀ {d : NodeId} {n : String} {r' : Resolution}, t.copies[d]? = some (n, r') →
      ∃ r'', (t.merge unit s r).1.copies[d]? = some (n, r'') := by
    intro d n r' found
    rw [merge_copies, Std.HashMap.getElem?_insert]
    by_cases same : s.decl = d
    · subst same
      have : some s.name = some n := own.symm.trans (coherent.named found)
      exact ⟨r, by simp_all⟩
    · exact ⟨r', by simp [same, found]⟩
  refine ⟨fun {d n r'} found => ?_, fun {n e} found => ?_⟩
  · rw [merge_copies, Std.HashMap.getElem?_insert] at found
    by_cases same : s.decl = d
    · subst same
      simp only [beq_self_eq_true, if_true, Option.some.injEq, Prod.mk.injEq] at found
      rw [← found.1]
      exact own
    · simp only [same, beq_iff_eq, if_false] at found
      exact coherent.named found
  · rcases merge_entries t unit s r with same | set
    · rw [same] at found
      obtain ⟨r', copy⟩ := coherent.chosen found
      exact kept copy
    · rw [set, Std.HashMap.getElem?_insert] at found
      by_cases named : s.name = n
      · subst named
        simp only [beq_self_eq_true, if_true, Option.some.injEq] at found
        subst found
        exact ⟨r, by simp [merge_copies, candidate]⟩
      · simp only [named, beq_iff_eq, if_false] at found
        obtain ⟨r', copy⟩ := coherent.chosen found
        exact kept copy

/-- Every table built by merges is coherent. -/
theorem MergedFrom.coherent (merged : MergedFrom p t) : Coherent p t := by
  induction merged with
  | empty => exact empty_coherent
  | merge _ own ih => exact ih.merge own

theorem prevailing_of_entry {d : NodeId} {n : String} {r : Resolution} {e : SymbolEntry}
    (copy : t.copies[d]? = some (n, r)) (entry : t.entries[n]? = some e) :
    t.prevailing d = e.decl := by
  simp [prevailing, copy, entry]

/-- A copy moves only if it was merged and its name has an entry. -/
theorem entry_of_prevailing_ne {d : NodeId} (moved : t.prevailing d ≠ d) :
    ∃ n r e, t.copies[d]? = some (n, r) ∧ t.entries[n]? = some e ∧ e.decl = t.prevailing d := by
  unfold prevailing at moved ⊢
  split at moved
  · rename_i e chosen
    obtain ⟨⟨n, r⟩, copy, entry⟩ := Option.bind_eq_some_iff.1 (by simpa using chosen)
    exact ⟨n, r, e, by simpa using copy, by simpa using entry, rfl⟩
  · exact absurd rfl moved

/-- The prevailing copy of a prevailing copy is itself: the replacement map
has no chains. -/
theorem Coherent.prevailing_prevailing (coherent : Coherent p t) (d : NodeId) :
    t.prevailing (t.prevailing d) = t.prevailing d := by
  by_cases moved : t.prevailing d = d
  · rw [moved, moved]
  · obtain ⟨n, r, e, copy, entry, chosen⟩ := entry_of_prevailing_ne moved
    obtain ⟨r', own⟩ := coherent.chosen entry
    rw [← chosen, prevailing_of_entry own entry]

/-- A copy that moves is a declaration of the program, and no identifier. -/
theorem Coherent.decl_of_prevailing_ne (coherent : Coherent p t) {d : NodeId}
    (moved : t.prevailing d ≠ d) :
    ∃ node data, p.arena.get? d = some node ∧ node.data = .decl data := by
  obtain ⟨n, r, -, copy, -, -⟩ := entry_of_prevailing_ne moved
  have named := coherent.named copy
  simp only [Program.symbolName?, Option.bind_eq_bind] at named
  obtain ⟨node, found, rest⟩ := Option.bind_eq_some_iff.1 named
  obtain ⟨data, isDecl, -⟩ := Option.bind_eq_some_iff.1 rest
  refine ⟨node, data, found, ?_⟩
  unfold Node.decl? at isDecl
  split at isDecl <;> simp_all

/-- `replacements` lists each copy that does not prevail, with the copy that does. -/
theorem mem_replacements {x : NodeId × NodeId} :
    x ∈ t.replacements ↔ t.prevailing x.1 ≠ x.1 ∧ x.2 = t.prevailing x.1 := by
  obtain ⟨a, b⟩ := x
  simp only [replacements, List.mem_mergeSort, List.mem_filterMap]
  constructor
  · rintro ⟨⟨d, v⟩, -, chosen⟩
    split at chosen
    · rename_i moved
      simp only [Option.some.injEq, Prod.mk.injEq] at chosen
      obtain ⟨rfl, rfl⟩ := chosen
      exact ⟨by simpa using moved, rfl⟩
    · simp at chosen
  · rintro ⟨moved, rfl⟩
    obtain ⟨n, r, -, copy, -, -⟩ := entry_of_prevailing_ne moved
    exact ⟨(a, (n, r)), Std.HashMap.mem_toList_iff_getElem?_eq_some.2 copy, by simp [moved]⟩

/-- No copy is listed twice. -/
theorem nodup_replacements_keys : (t.replacements.map Prod.fst).Nodup := by
  have distinct : t.copies.toList.Pairwise fun a b => a.1 ≠ b.1 :=
    Std.HashMap.distinct_keys_toList.imp fun different => by simpa using different
  have kept : (t.copies.toList.filterMap fun x =>
      if t.prevailing x.1 != x.1 then some (x.1, t.prevailing x.1) else none).Pairwise
        fun a b => a.1 ≠ b.1 := by
    refine distinct.filterMap _ fun a b different a' chosenA b' chosenB => ?_
    split at chosenA <;> split at chosenB <;> simp only [Option.some.injEq, reduceCtorEq] at chosenA chosenB
    subst chosenA chosenB
    exact different
  rw [List.Nodup, List.pairwise_map]
  exact ((List.mergeSort_perm _ _).pairwise_iff fun different => Ne.symm different).2 kept

end SymbolTable

end IrStream
