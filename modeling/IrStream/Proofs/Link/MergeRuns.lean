import Mathlib
import IrStream.Proofs.Link.Fixup

/-!
Runs of merges into the symbol table, failed merges included. Three facts hold
along every run:

* an entry that prevails is never replaced, and every later prevailing copy of
  its name fails to merge (`merge_of_prevailing_entry`, `mergeAll_of_prevailing_entry`);
  a successful merge of a prevailing copy makes such an entry
  (`entry_of_prevailing_merge`);
* the order lists each merged name once, in the order names were first merged,
  and exactly the listed names have an entry (`Listed`, `Listed.merge`);
* with every copy merged under its declaration's own name, each entry is a copy
  merged under that name, so the prevailing copy of a prevailing copy is itself
  (`SymbolTable.Coherent`).

`merge_runs_invariant` puts them together for every run from the empty table.
-/

namespace IrStream

namespace SymbolTable

/-- One call of `merge`: the index of the unit, the copy and its resolution. -/
structure MergeCall where
  unit : Nat
  info : SymbolInfo
  resolution : Resolution

namespace MergeCall

/-- The call run on a table: the table after it, and its error if it failed. -/
def run (c : MergeCall) (t : SymbolTable) : SymbolTable × Option StreamError :=
  t.merge c.unit c.info c.resolution

/-- The entry the call makes for its copy. -/
def entry (c : MergeCall) : SymbolEntry := candidate c.unit c.info c.resolution

end MergeCall

/-- The table after the calls, one after another, failed ones included. -/
def mergeAll (t : SymbolTable) (calls : List MergeCall) : SymbolTable :=
  calls.foldl (fun t c => (c.run t).1) t

variable {t : SymbolTable} {c : MergeCall} {n : String} {e : SymbolEntry}

@[simp] theorem mergeAll_nil : t.mergeAll [] = t := rfl

@[simp] theorem mergeAll_cons (calls : List MergeCall) :
    t.mergeAll (c :: calls) = (c.run t).1.mergeAll calls := rfl

theorem mergeAll_append (calls more : List MergeCall) :
    t.mergeAll (calls ++ more) = (t.mergeAll calls).mergeAll more :=
  List.foldl_append

/-! ### Prevailing entries -/

/-- A merge never touches an entry that prevails, and a prevailing copy of its
name fails to merge: the entry answers `alreadyDefined`, or `symbolKindConflict`
for a copy of the other kind. -/
theorem merge_of_prevailing_entry (entry : t.entries[n]? = some e)
    (prevails : e.resolution.isPrevailing) (c : MergeCall) :
    (c.run t).1.entries[n]? = some e ∧
      (c.info.name = n → c.resolution.isPrevailing → (c.run t).2 ≠ none) := by
  by_cases same : c.info.name = n
  · subst same
    have found : t.entries.get? c.info.name = some e := by rwa [Std.HashMap.get?_eq_getElem?]
    -- every branch of `merge` that reaches the prevailing entry leaves it
    simp only [MergeCall.run, merge, found, prevails, Bool.not_true, Bool.false_and, if_true]
    split_ifs <;> simp_all
  · rcases merge_entries t c.unit c.info c.resolution with kept | set
    · exact ⟨by rw [MergeCall.run, kept, entry], fun named => absurd named same⟩
    · refine ⟨?_, fun named => absurd named same⟩
      rw [MergeCall.run, set, Std.HashMap.getElem?_insert, if_neg (by simpa using same), entry]

/-- From an entry that prevails on, every run keeps it and refuses every
prevailing copy of its name. -/
theorem mergeAll_of_prevailing_entry (entry : t.entries[n]? = some e)
    (prevails : e.resolution.isPrevailing) (later : List MergeCall) :
    (t.mergeAll later).entries[n]? = some e ∧
      ∀ c : MergeCall, c.info.name = n → c.resolution.isPrevailing →
        (c.run (t.mergeAll later)).2 ≠ none := by
  induction later generalizing t with
  | nil => exact ⟨entry, fun c => (merge_of_prevailing_entry entry prevails c).2⟩
  | cons c rest ih => exact ih (merge_of_prevailing_entry entry prevails c).1

/-- A prevailing copy that merges becomes the entry of its name: there was none,
or one that did not prevail. -/
theorem entry_of_prevailing_merge (prevails : c.resolution.isPrevailing)
    (merged : (c.run t).2 = none) : (c.run t).1.entries[c.info.name]? = some c.entry := by
  simp only [MergeCall.run, merge] at merged ⊢
  split at merged
  · simp [MergeCall.entry, candidate]
  · split_ifs at merged ⊢
    simp_all [MergeCall.entry, candidate]

/-! ### The order of names -/

/-- The table's order is `names` without repeats, each where it first occurs,
and the names with an entry are exactly those of `names`. -/
structure Listed (t : SymbolTable) (names : List String) : Prop where
  order : t.order.toList = names.eraseDups
  entries : ∀ n, (t.entries[n]?).isSome ↔ n ∈ names

theorem empty_listed : ({} : SymbolTable).Listed [] := ⟨rfl, by simp⟩

/-- Appending a name already listed does not change its list without repeats. -/
theorem eraseDups_append_of_mem {names : List String} (listed : n ∈ names) :
    (names ++ [n]).eraseDups = names.eraseDups := by
  rw [List.eraseDups_append]
  simp [List.removeAll, listed]

/-- A merge appends its name to the order exactly when the name has no entry. -/
theorem merge_order (t : SymbolTable) (unit : Nat) (s : SymbolInfo) (r : Resolution) :
    (t.merge unit s r).1.order = if t.entries[s.name]? = none then t.order.push s.name else t.order := by
  simp only [merge, ← Std.HashMap.get?_eq_getElem?]
  split
  · rename_i absent
    simp [-Std.HashMap.get?_eq_getElem?, absent]
  · rename_i found
    simp only [found, reduceCtorEq, if_false]
    split_ifs <;> rfl

/-- A name merged for the first time gets its copy's entry. -/
theorem merge_entries_of_fresh {s : SymbolInfo} (unit : Nat) (r : Resolution)
    (fresh : t.entries[s.name]? = none) :
    (t.merge unit s r).1.entries = t.entries.insert s.name (candidate unit s r) := by
  simp [merge, Std.HashMap.get?_eq_getElem?, fresh, candidate]

theorem Listed.merge {names : List String} (listed : t.Listed names) (c : MergeCall) :
    (c.run t).1.Listed (names ++ [c.info.name]) := by
  have known : (t.entries[c.info.name]?).isSome ↔ c.info.name ∈ names := listed.entries _
  by_cases fresh : t.entries[c.info.name]? = none
  · -- a name merged for the first time: appended to the order and given an entry
    have absent : c.info.name ∉ names := by simp [← known, fresh]
    constructor
    · rw [MergeCall.run, merge_order, if_pos fresh, Array.toList_push, listed.order,
        List.eraseDups_append]
      simp [List.removeAll, absent, List.eraseDups_cons]
    · intro m
      rw [MergeCall.run, merge_entries_of_fresh _ _ fresh, Std.HashMap.getElem?_insert,
        List.mem_append, List.mem_singleton, ← listed.entries m]
      by_cases same : c.info.name = m
      · simp [same]
      · simp [same, Ne.symm same]
  · -- a name merged before keeps its place; its entry may change
    have member : c.info.name ∈ names := known.mp (Option.isSome_iff_ne_none.mpr fresh)
    refine ⟨by rw [MergeCall.run, merge_order, if_neg fresh, listed.order,
      eraseDups_append_of_mem member], fun m => ?_⟩
    rw [List.mem_append, List.mem_singleton]
    rcases merge_entries t c.unit c.info c.resolution with kept | set
    · rw [MergeCall.run, kept, listed.entries m]
      constructor
      · exact .inl
      · rintro (inNames | rfl)
        · exact inNames
        · exact member
    · rw [MergeCall.run, set, Std.HashMap.getElem?_insert, ← listed.entries m]
      by_cases same : c.info.name = m
      · subst same
        simp
      · simp [same, Ne.symm same]

theorem Listed.mergeAll {names : List String} (listed : t.Listed names) (calls : List MergeCall) :
    (t.mergeAll calls).Listed (names ++ calls.map (·.info.name)) := by
  induction calls generalizing t names with
  | nil => simpa using listed
  | cons c rest ih => simpa using ih (listed.merge c)

/-- `symbols` lists the entries of the names of the order. -/
theorem mem_symbols {x : String × SymbolEntry} (member : x ∈ t.symbols) :
    t.entry? x.1 = some x.2 := by
  simp only [symbols, List.mem_filterMap, Option.map_eq_some_iff] at member
  obtain ⟨name, -, entry, found, rfl⟩ := member
  exact found

/-- When every listed name has an entry, `symbols` keeps the whole order. -/
theorem Listed.symbols_names {names : List String} (listed : t.Listed names) :
    t.symbols.map Prod.fst = names.eraseDups := by
  rw [← listed.order, symbols, List.map_filterMap]
  refine ((List.filterMap_eq_map_iff_forall_eq_some (g := id)).mpr fun name member => ?_).trans
    (List.map_id _)
  have entered : (t.entries[name]?).isSome := by
    rw [listed.entries, ← List.mem_eraseDups, ← listed.order]
    exact member
  obtain ⟨e, found⟩ := Option.isSome_iff_exists.mp entered
  simp [Std.HashMap.get?_eq_getElem?, found]

/-! ### Runs from the empty table -/

/-- Merges of copies each named as its declaration is in `p` build a table
`MergedFrom p`. -/
theorem MergedFrom.mergeAll {p : Program} (merged : MergedFrom p t) (calls : List MergeCall)
    (named : ∀ c ∈ calls, p.symbolName? c.info.decl = some c.info.name) :
    MergedFrom p (t.mergeAll calls) := by
  induction calls generalizing t with
  | nil => exact merged
  | cons c rest ih =>
    exact ih (merged.merge (named c (by simp))) fun c' member => named c' (by simp [member])

/-- Along every run of merges from the empty table, each copy merged under its
declaration's name: a prevailing copy that merges stays the entry of its name
from then on, and every later prevailing copy of that name fails to merge;
each entry is a copy merged under its name, so the prevailing copy of any
prevailing copy is itself; and `symbols` lists each merged name once, in the
order names were first merged. -/
theorem merge_runs_invariant {p : Program} (calls : List MergeCall)
    (named : ∀ c ∈ calls, p.symbolName? c.info.decl = some c.info.name) :
    (∀ pre c later, calls = pre ++ c :: later → c.resolution.isPrevailing →
      (c.run (({} : SymbolTable).mergeAll pre)).2 = none →
      ∀ mid rest, later = mid ++ rest →
        SymbolTable.entry? (({} : SymbolTable).mergeAll (pre ++ c :: mid)) c.info.name = some c.entry ∧
        ∀ c' rest', rest = c' :: rest' → c'.info.name = c.info.name →
          c'.resolution.isPrevailing →
          (c'.run (({} : SymbolTable).mergeAll (pre ++ c :: mid))).2 ≠ none) ∧
    (∀ n e, SymbolTable.entry? (({} : SymbolTable).mergeAll calls) n = some e →
      ∃ r, (({} : SymbolTable).mergeAll calls).copies[e.decl]? = some (n, r)) ∧
    (∀ d, (({} : SymbolTable).mergeAll calls).prevailing
        ((({} : SymbolTable).mergeAll calls).prevailing d) =
      (({} : SymbolTable).mergeAll calls).prevailing d) ∧
    (({} : SymbolTable).mergeAll calls).symbols.map Prod.fst = (calls.map (·.info.name)).eraseDups ∧
    ∀ x ∈ (({} : SymbolTable).mergeAll calls).symbols,
      SymbolTable.entry? (({} : SymbolTable).mergeAll calls) x.1 = some x.2 := by
  have coherent := (MergedFrom.empty.mergeAll calls named).coherent
  refine ⟨fun pre c later _ prevails merged mid rest _ => ?_,
    fun n e found => coherent.chosen (by rwa [ entry?, Std.HashMap.get?_eq_getElem?] at found),
    coherent.prevailing_prevailing, by simpa using (empty_listed.mergeAll calls).symbols_names,
    fun x member => mem_symbols member⟩
  -- the merge of `c` pins its entry; everything after it keeps the pin
  obtain ⟨pinned, refuses⟩ :=
    mergeAll_of_prevailing_entry (entry_of_prevailing_merge prevails merged) prevails mid
  rw [mergeAll_append, mergeAll_cons]
  refine ⟨by rwa [ entry?, Std.HashMap.get?_eq_getElem?], fun c' _ _ named' prevails' => ?_⟩
  exact refuses c' named' prevails'

/-- A definition of `main` from `twoCopies`, merged as prevailing. -/
def mainDefinition (unit : Nat) (decl : NodeId) : MergeCall where
  unit := unit
  info := { name := "main", decl, kind := .function, isPublic := true, external := false,
            weak := false }
  resolution := .prevailingDef

/-- Both definitions of `main`, each merged as prevailing: the second clashes. -/
def twoDefinitions : List MergeCall := [mainDefinition 0 ⟨1⟩, mainDefinition 1 ⟨2⟩]

theorem twoDefinitions_merge_runs :
    (∀ c ∈ twoDefinitions, twoCopies.symbolName? c.info.decl = some c.info.name) ∧
    (∀ pre c later, twoDefinitions = pre ++ c :: later → c.resolution.isPrevailing →
      (c.run (({} : SymbolTable).mergeAll pre)).2 = none →
      ∀ mid rest, later = mid ++ rest →
        SymbolTable.entry? (({} : SymbolTable).mergeAll (pre ++ c :: mid)) c.info.name = some c.entry ∧
        ∀ c' rest', rest = c' :: rest' → c'.info.name = c.info.name →
          c'.resolution.isPrevailing →
          (c'.run (({} : SymbolTable).mergeAll (pre ++ c :: mid))).2 ≠ none) ∧
    (∀ n e, SymbolTable.entry? (({} : SymbolTable).mergeAll twoDefinitions) n = some e →
      ∃ r, (({} : SymbolTable).mergeAll twoDefinitions).copies[e.decl]? = some (n, r)) ∧
    (∀ d, (({} : SymbolTable).mergeAll twoDefinitions).prevailing
        ((({} : SymbolTable).mergeAll twoDefinitions).prevailing d) =
      (({} : SymbolTable).mergeAll twoDefinitions).prevailing d) ∧
    (({} : SymbolTable).mergeAll twoDefinitions).symbols.map Prod.fst =
      (twoDefinitions.map (·.info.name)).eraseDups ∧
    ∀ x ∈ (({} : SymbolTable).mergeAll twoDefinitions).symbols,
      SymbolTable.entry? (({} : SymbolTable).mergeAll twoDefinitions) x.1 = some x.2 :=
  have named : ∀ c ∈ twoDefinitions, twoCopies.symbolName? c.info.decl = some c.info.name := by
    decide
  ⟨named, merge_runs_invariant twoDefinitions named⟩

end SymbolTable

end IrStream
