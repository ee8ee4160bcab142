import Mathlib
import IrStream.Proofs.Link.Session
import IrStream.Proofs.Link.Fixup
import IrStream.Proofs.Link.UnitTables

/-!
# Which unit a body is read from

`Session.readFunctionBody` reads a function's body from the unit that
`Session.owner` names. For a registered copy that prevailed, that is the index
its symbol entry claims, which is the index of the unit being added when the
copy was merged. A failed `addUnit` keeps such entries under an index that the
next unit then takes (`session_failures_frame`), so the owner can be the wrong
unit. When every `addUnit` succeeded it is the right one:

* `Session.Added`: after units are added one by one, each succeeding, the
  units are the sources in order, and every symbol entry claims the index of
  a unit whose `addUnit` put it in the table (`Session.MergedBy`);
* `Session.Later`: the call graph, the fixup and body reads keep the units'
  sources and the symbol table;
* `Session.registered_bodies_read_from_merging_unit`: in such a session the
  body of a registered copy that prevailed is read from the function-body
  section of the unit whose `addUnit` merged it;
* `Session.unrecorded_bodies_read_from_first_listing_unit`: the body of a copy
  that no merge recorded, such as a static function, is read from the first
  unit whose function table, as its `addUnit` read it, lists the copy. The
  fixup renames table entries only from recorded copies to recorded ones
  (`SymbolTable.EntriesMerged.contains_map_prevailing`), so it moves no table
  towards or away from such a copy (`Session.Later.lists`);
* `Session.bodies_read_from_owning_unit`: both paths of `Session.owner`.
-/

open Std.Do

set_option mvcgen.warning false

namespace IrStream

namespace SymbolTable

variable {t : SymbolTable}

/-- Every entry names a merged copy: the half of coherence that does not
depend on the program the names are read from. -/
def EntriesMerged (t : SymbolTable) : Prop :=
  ∀ {n : String} {e : SymbolEntry}, t.entries[n]? = some e → (t.copies[e.decl]?).isSome

theorem entriesMerged_empty : EntriesMerged {} := by
  intro n e found
  simp at found

theorem EntriesMerged.merge (merged : t.EntriesMerged) (unit : Nat) (s : SymbolInfo) (r : Resolution) :
    (t.merge unit s r).1.EntriesMerged := by
  -- a merge records its copy and forgets no other
  have kept : ∀ {d : NodeId}, (t.copies[d]?).isSome → ((t.merge unit s r).1.copies[d]?).isSome := by
    intro d recorded
    rw [merge_copies, Std.HashMap.getElem?_insert]
    split <;> simp_all
  intro n e found
  rcases merge_entries t unit s r with same | set
  · rw [same] at found
    exact kept (merged found)
  · rw [set, Std.HashMap.getElem?_insert] at found
    split at found
    · obtain rfl := Option.some.inj found
      simp [merge_copies, candidate]
    · exact kept (merged found)

theorem EntriesMerged.mergesUnder {unit : Nat} {t' : SymbolTable} (merged : t.EntriesMerged)
    (under : t.MergesUnder unit t') : t'.EntriesMerged := by
  induction under with
  | refl => exact merged
  | merge _ earlier => exact earlier.merge _ _ _

/-- A copy no merge recorded prevails over itself. -/
theorem prevailing_of_resolution?_eq_none {d : NodeId} (unknown : t.resolution? d = none) :
    t.prevailing d = d := by
  have unrecorded : t.copies[d]? = none := by simpa [resolution?] using unknown
  simp [prevailing, unrecorded]

/-- Renaming a table to the prevailing copies neither adds nor removes a copy
that no merge recorded: a copy moves only to an entry's copy, which is recorded. -/
theorem EntriesMerged.contains_map_prevailing (merged : t.EntriesMerged) {decl : NodeId}
    (unknown : t.resolution? decl = none) (table : Array NodeId) :
    (table.map t.prevailing).contains decl = table.contains decl := by
  have unrecorded : t.copies[decl]? = none := by simpa [resolution?] using unknown
  apply Bool.eq_iff_iff.2
  simp only [Array.contains_iff_mem, Array.mem_map]
  constructor
  · rintro ⟨d, listed, named⟩
    by_cases moved : t.prevailing d = d
    · rwa [← named, moved]
    · obtain ⟨n, r, e, -, entry, chosen⟩ := entry_of_prevailing_ne moved
      have recorded := merged entry
      rw [chosen, named, unrecorded] at recorded
      cases recorded
  · intro listed
    exact ⟨decl, listed, prevailing_of_resolution?_eq_none unknown⟩

end SymbolTable

theorem UnitDecls.table_map (u : UnitDecls) (f : NodeId → NodeId) (c : DeclCategory) :
    (u.map f).table c = (u.table c).map f := by
  simp only [UnitDecls.table, UnitDecls.map, Array.getElem?_map]
  cases u.tables[c.index]? <;> simp

namespace Session

/-! ### One step -/

theorem addUnit_spec (source : Archive) (s₀ : Session) :
    ⦃fun s => ⌜s₀.AfterFailedAdd s⌝⦄ addUnit source
      ⦃post⟨fun index s => ⌜index = s₀.units.size ∧ (∃ decls, s.units = s₀.units.push { source, decls }) ∧
          s.stage = s₀.stage ∧ s₀.symtab.MergesUnder s₀.units.size s.symtab⌝,
        fun _ s => ⌜s₀.AfterFailedAdd s⌝⟩⦄ := by
  mvcgen [addUnit, SessionM.stage, SessionM.stream, SessionM.within, SessionM.liftPipeline,
    SessionM.setProgram]
  -- the merge loop keeps the units and merges under the index the unit takes
  case inv1 | inv2 => exact post⟨fun _ s => ⌜s₀.AfterFailedAdd s⌝, fun _ s => ⌜s₀.AfterFailedAdd s⌝⟩
  all_goals grind [AfterFailedAdd.readDecls, AfterFailedAdd.merge, AfterFailedAdd.units,
    AfterFailedAdd.stage, AfterFailedAdd.symtab]

/-- A successful `addUnit` pushes the unit under the index it answers, the
number of units before it, and merges symbols under that index only. -/
theorem addUnit_ok {source : Archive} {s s' : Session} {index : Nat}
    (ok : (addUnit source).run s = .ok index s') :
    index = s.units.size ∧ (∃ decls, s'.units = s.units.push { source, decls }) ∧
      s.symtab.MergesUnder s.units.size s'.symtab := by
  obtain ⟨answered, pushed, -, merged⟩ := (triple_run (addUnit_spec source s) (.refl s) ok).1 index s' rfl
  exact ⟨answered, pushed, merged⟩

/-- What a later step keeps: the symbol table, and every unit with its source. -/
structure KeepsUnits (s s' : Session) : Prop where
  symtab : s'.symtab = s.symtab
  size : s'.units.size = s.units.size
  sources : ∀ (i : Nat) (u : SessionUnit), s.units[i]? = some u →
    ∃ u', s'.units[i]? = some u' ∧ u'.source = u.source

theorem KeepsUnits.refl (s : Session) : KeepsUnits s s :=
  ⟨rfl, rfl, fun _ u found => ⟨u, found, rfl⟩⟩

theorem KeepsUnits.trans {s s' s'' : Session} (first : KeepsUnits s s') (second : KeepsUnits s' s'') :
    KeepsUnits s s'' where
  symtab := second.symtab.trans first.symtab
  size := second.size.trans first.size
  sources i u found := by
    obtain ⟨u', found', source'⟩ := first.sources i u found
    obtain ⟨u'', found'', source''⟩ := second.sources i u' found'
    exact ⟨u'', found'', source''.trans source'⟩

/-- A graph read that stops keeps every unit's tables. -/
theorem AfterFailedGraphRead.tables {s₀ s : Session} (after : s₀.AfterFailedGraphRead s) :
    s.units.toList.map (·.decls) = s₀.units.toList.map (·.decls) := by
  apply List.ext_getElem?
  intro i
  simp only [List.getElem?_map, Array.getElem?_toList]
  cases found : s₀.units[i]? with
  | none =>
    have beyond : s.units[i]? = none := by
      rw [Array.getElem?_eq_none_iff, after.size]
      exact Array.getElem?_eq_none_iff.1 found
    simp [beyond]
  | some u =>
    obtain ⟨u', kept, -, decls⟩ := after.units i u found
    simp [kept, decls]

theorem readCallGraph_spec (s₀ : Session) :
    ⦃fun s => ⌜s₀.AfterFailedGraphRead s⌝⦄ readCallGraph
      ⦃post⟨fun _ s => ⌜KeepsUnits s₀ s ∧ s.units.toList.map (·.decls) = s₀.units.toList.map (·.decls)⌝,
        fun _ _ => ⌜True⌝⟩⦄ := by
  mvcgen [readCallGraph, SessionM.stage, SessionM.stream, SessionM.within, SessionM.liftPipeline,
    SessionM.setProgram]
  -- every unit is kept, with its sections and tables, while the graphs are read
  case inv1 | inv2 =>
    exact post⟨fun _ s => ⌜s₀.AfterFailedGraphRead s⌝, fun _ _ => ⌜True⌝⟩
  all_goals grind [AfterFailedGraphRead.readGraph, AfterFailedGraphRead.modifyUnit, KeepsUnits.mk,
    AfterFailedGraphRead.symtab, AfterFailedGraphRead.size, AfterFailedGraphRead.units,
    AfterFailedGraphRead.tables]

theorem readCallGraph_keeps {s s' : Session} (ok : readCallGraph.run s = .ok () s') : KeepsUnits s s' :=
  ((triple_run (readCallGraph_spec s) (.refl s) ok).1 () s' rfl).1

theorem readCallGraph_tables {s s' : Session} (ok : readCallGraph.run s = .ok () s') :
    s'.units.toList.map (·.decls) = s.units.toList.map (·.decls) :=
  ((triple_run (readCallGraph_spec s) (.refl s) ok).1 () s' rfl).2

/-- What a successful fixup leaves: the symbol table, and every unit with its
tables renamed to the prevailing copies. -/
theorem fixup_ok {s s' : Session} {replaced : Nat} (ok : fixup.run s = .ok replaced s') :
    s'.symtab = s.symtab ∧
      s'.units.toList = s.units.toList.map fun u => { u with decls := u.decls.map s.symtab.prevailing } := by
  unfold fixup at ok
  by_cases staged : (s.stage != .graphRead) = true
  · simp [EStateM.run, bind, EStateM.bind, get, getThe, MonadStateOf.get, EStateM.get, staged,
      SessionM.stage, SessionM.liftPipeline, Pipeline.stage, throw, throwThe, MonadExceptOf.throw,
      EStateM.throw] at ok
  · simp only [EStateM.run, bind, EStateM.bind, get, getThe, MonadStateOf.get, EStateM.get, staged,
      Bool.false_eq_true, if_false, set, EStateM.set, pure, EStateM.pure, SymbolTable.apply_tables] at ok
    obtain ⟨-, rfl⟩ := ok
    refine ⟨rfl, ?_⟩
    -- each unit is paired with its own tables, renamed
    simp [List.zip_map_right, List.map_map, List.map_zip_eq_zipWith, List.zipWith_self]

/-- The fixup rewrites the units' tables and keeps their sources. -/
theorem fixup_keeps {s s' : Session} {replaced : Nat} (ok : fixup.run s = .ok replaced s') :
    KeepsUnits s s' := by
  obtain ⟨symtab, units⟩ := fixup_ok ok
  have size : s'.units.size = s.units.size := by
    rw [← Array.length_toList, units, List.length_map, Array.length_toList]
  refine ⟨symtab, size, fun i u found => ⟨{ u with decls := u.decls.map s.symtab.prevailing }, ?_, rfl⟩⟩
  rw [← Array.getElem?_toList, units, List.getElem?_map, Array.getElem?_toList, found]
  rfl

theorem readFunctionBody_spec (decl : NodeId) (s₀ : Session) :
    ⦃fun s => ⌜s = s₀⌝⦄ readFunctionBody decl
      ⦃post⟨fun _ s => ⌜s₀.program.hasBody decl = true ∧ s = s₀ ∨
          ∃ name index u bytes body p, s₀.program.symbolName? decl = some name ∧
            s₀.owner decl name = .ok index ∧ s₀.units[index]? = some u ∧
            u.source.acquire (SectionName.ofKind .functionBody (some name)) = .ok bytes ∧
            FunctionBody.readSection s₀.program u.decls decl bytes s₀.options.verify = (.ok body, p) ∧
            s = { s₀ with program := p.setBody decl body }⌝,
        fun _ _ => ⌜True⌝⟩⦄ := by
  mvcgen [readFunctionBody, SessionM.stage, SessionM.stream, SessionM.within, SessionM.liftPipeline,
    SessionM.setProgram]
  all_goals grind [Except.mapError_eq_ok, Pipeline.stream, Pipeline.within]

/-- A body read that succeeds either finds the body there already or reads it
from the function-body section of the unit that `owner` names. -/
theorem readFunctionBody_ok {decl : NodeId} {s s' : Session}
    (ok : (readFunctionBody decl).run s = .ok () s') :
    s.program.hasBody decl = true ∧ s' = s ∨
      ∃ name index u bytes body p, s.program.symbolName? decl = some name ∧
        s.owner decl name = .ok index ∧ s.units[index]? = some u ∧
        u.source.acquire (SectionName.ofKind .functionBody (some name)) = .ok bytes ∧
        FunctionBody.readSection s.program u.decls decl bytes s.options.verify = (.ok body, p) ∧
        s' = { s with program := p.setBody decl body } :=
  (triple_run (readFunctionBody_spec decl s) rfl ok).1 () s' rfl

/-- A body read of a function that has none reads it from the unit the owner
names, under the function's name. -/
theorem readFunctionBody_reads {decl : NodeId} {name : String} {s s' : Session}
    (named : s.program.symbolName? decl = some name) (unread : s.program.hasBody decl = false)
    (ok : (readFunctionBody decl).run s = .ok () s') :
    ∃ index u bytes body p, s.owner decl name = .ok index ∧ s.units[index]? = some u ∧
      u.source.acquire (SectionName.ofKind .functionBody (some name)) = .ok bytes ∧
      FunctionBody.readSection s.program u.decls decl bytes s.options.verify = (.ok body, p) ∧
      s' = { s with program := p.setBody decl body } := by
  rcases readFunctionBody_ok ok with ⟨read, -⟩ | ⟨name', index, u, bytes, body, p, named', owner, unit,
      acquired, decoded, rfl⟩
  · rw [read] at unread
    cases unread
  · obtain rfl : name' = name := Option.some.inj (named'.symm.trans named)
    exact ⟨index, u, bytes, body, p, owner, unit, acquired, decoded, rfl⟩

theorem readFunctionBody_keeps {decl : NodeId} {s s' : Session}
    (ok : (readFunctionBody decl).run s = .ok () s') : KeepsUnits s s' := by
  rcases readFunctionBody_ok ok with ⟨-, rfl⟩ | ⟨_, _, _, _, _, _, -, -, -, -, -, rfl⟩
  · exact KeepsUnits.refl _
  · exact ⟨rfl, rfl, fun _ u found => ⟨u, found, rfl⟩⟩

/-- A registered copy that prevailed is owned by the unit its entry claims. -/
theorem owner_of_entry {s : Session} {decl : NodeId} {name : String} {e : SymbolEntry}
    (registered : (s.symtab.resolution? decl).isSome) (prevails : s.symtab.entry? name = some e)
    (same : e.decl = decl) : s.owner decl name = .ok e.unit := by
  simp [owner, registered, prevails, same]
  rfl

/-- A copy that no merge recorded is owned by the first unit whose function
table lists it. -/
theorem owner_of_unrecorded {s : Session} {decl : NodeId} {name : String}
    (unknown : s.symtab.resolution? decl = none) :
    (s.owner decl name).toOption = s.units.toList.findIdx? fun u => (u.decls.table .function).contains decl := by
  simp only [owner, unknown, Option.isSome_none, Bool.false_eq_true, if_false]
  cases s.units.toList.findIdx? fun u => (u.decls.table .function).contains decl with
  | none => rfl
  | some u => rfl

theorem findIdx?_eq_of_map_eq {α : Type} {p : α → Bool} {l l' : List α} (same : l.map p = l'.map p) :
    l.findIdx? p = l'.findIdx? p := by
  have := congrArg (List.findIdx? fun b => b) same
  simpa [List.findIdx?_map, Function.comp_def] using this

/-! ### Runs of steps -/

/-- Adding `sources` in turn, as a link does first. -/
def addAll : List Archive → SessionM Unit
  | [] => pure ()
  | source :: rest => do
    let _ ← addUnit source
    addAll rest

/-- Session `s` is reached from `s₀` by adding `sources` in turn, each add
succeeding. -/
inductive Adds (s₀ : Session) : List Archive → Session → Prop
  | nil : Adds s₀ [] s₀
  | add {sources : List Archive} {s s' : Session} {source : Archive} {index : Nat} :
      Adds s₀ sources s → (addUnit source).run s = .ok index s' → Adds s₀ (sources ++ [source]) s'

/-- Session `s'` is reached from `s` by reading the call graphs, the fixup and
body reads, each succeeding. -/
inductive Later (s : Session) : Session → Prop
  | refl : Later s s
  | graphRead {s' s'' : Session} : Later s s' → readCallGraph.run s' = .ok () s'' → Later s s''
  | fixup {s' s'' : Session} {replaced : Nat} : Later s s' → fixup.run s' = .ok replaced s'' →
      Later s s''
  | body {s' s'' : Session} {decl : NodeId} : Later s s' →
      (readFunctionBody decl).run s' = .ok () s'' → Later s s''

theorem Later.keeps {s s' : Session} (later : Later s s') : KeepsUnits s s' := by
  induction later with
  | refl => exact KeepsUnits.refl s
  | graphRead _ ok earlier => exact earlier.trans (readCallGraph_keeps ok)
  | fixup _ ok earlier => exact earlier.trans (fixup_keeps ok)
  | body _ ok earlier => exact earlier.trans (readFunctionBody_keeps ok)

/-- A run of `addAll` that succeeds adds each unit in turn. -/
theorem Adds.addAll {s₀ s : Session} {pre : List Archive} (adds : Adds s₀ pre s) :
    ∀ {rest : List Archive} {s' : Session}, (Session.addAll rest).run s = .ok () s' →
      Adds s₀ (pre ++ rest) s' := by
  intro rest
  induction rest generalizing pre s with
  | nil =>
    intro s' ok
    simp only [Session.addAll, EStateM.run, pure, EStateM.pure, EStateM.Result.ok.injEq] at ok
    rw [List.append_nil, ← ok.2]
    exact adds
  | cons source rest more =>
    intro s' ok
    simp only [Session.addAll, EStateM.run, bind, EStateM.bind] at ok
    split at ok
    · next index s₁ added =>
      simpa using more (adds.add added) ok
    · cases ok

theorem Adds.entriesMerged {resolutions : ResolutionMap} {options : LinkOptions} {sources : List Archive}
    {s : Session} (adds : Adds (new resolutions options) sources s) : s.symtab.EntriesMerged := by
  induction adds with
  | nil => exact SymbolTable.entriesMerged_empty
  | add _ ok before => exact before.mergesUnder (addUnit_ok ok).2.2

/-- Along the later steps, a copy that no merge recorded is listed in the
function tables of the same units: the fixup renames only recorded copies, and
only to recorded ones. -/
theorem Later.lists {s s' : Session} (later : Later s s') (merged : s.symtab.EntriesMerged) {decl : NodeId}
    (unknown : s.symtab.resolution? decl = none) :
    s'.units.toList.map (fun u => (u.decls.table .function).contains decl) =
      s.units.toList.map (fun u => (u.decls.table .function).contains decl) := by
  induction later with
  | refl => rfl
  | graphRead _ ok earlier =>
    rw [← earlier]
    have := congrArg (List.map fun d : UnitDecls => (d.table .function).contains decl) (readCallGraph_tables ok)
    simpa only [List.map_map, Function.comp_def] using this
  | fixup prior ok earlier =>
    rw [← earlier]
    obtain ⟨-, units⟩ := fixup_ok ok
    rw [units, List.map_map, prior.keeps.symtab]
    refine List.map_congr_left fun u _ => ?_
    simp only [Function.comp, UnitDecls.table_map, merged.contains_map_prevailing unknown]
  | body _ ok earlier =>
    rw [← earlier]
    rcases readFunctionBody_ok ok with ⟨-, rfl⟩ | ⟨_, _, _, _, _, _, -, -, -, -, -, rfl⟩ <;> rfl

/-- Entry `e` of symbol `name` was put in the table by a successful `addUnit`
of `sources`, the one at position `e.unit`. -/
def MergedBy (s₀ : Session) (sources : List Archive) (name : String) (e : SymbolEntry) : Prop :=
  ∃ pre source post s s', sources = pre ++ source :: post ∧ pre.length = e.unit ∧ Adds s₀ pre s ∧
    (addUnit source).run s = .ok e.unit s' ∧ s.symtab.entries[name]? ≠ some e ∧
    s'.symtab.entries[name]? = some e

/-- What adding `sources` one by one to `s₀` leaves. -/
structure Added (s₀ : Session) (sources : List Archive) (s : Session) : Prop where
  size : s.units.size = sources.length
  units : ∀ i : Nat, s.units[i]?.map SessionUnit.source = sources[i]?
  entries : ∀ name e, s.symtab.entries[name]? = some e → e.unit < sources.length ∧ MergedBy s₀ sources name e

theorem MergedBy.append {s₀ : Session} {sources : List Archive} {name : String} {e : SymbolEntry}
    (merged : MergedBy s₀ sources name e) (later : List Archive) : MergedBy s₀ (sources ++ later) name e := by
  obtain ⟨pre, source, post, s, s', split, length, added, ok, before, after⟩ := merged
  exact ⟨pre, source, post ++ later, s, s', by simp [split], length, added, ok, before, after⟩

theorem added_new (resolutions : ResolutionMap) (options : LinkOptions) :
    Added (new resolutions options) [] (new resolutions options) where
  size := rfl
  units i := by simp [new]
  entries name e found := by simp [new] at found

/-- One more successful `addUnit` keeps what the adds before it left. -/
theorem Added.add {s₀ s s' : Session} {sources : List Archive} {source : Archive} {index : Nat}
    (before : Added s₀ sources s) (adds : Adds s₀ sources s) (ok : (addUnit source).run s = .ok index s') :
    Added s₀ (sources ++ [source]) s' := by
  obtain ⟨answered, ⟨decls, pushed⟩, merged⟩ := addUnit_ok ok
  refine ⟨by simp [pushed, before.size], fun i => ?_, fun name e found => ?_⟩
  · -- the pushed unit comes after the others, as its source after theirs
    have old := before.units i
    have size := before.size
    rw [pushed, Array.getElem?_push]
    rcases Nat.lt_trichotomy i sources.length with below | rfl | above
    · have notLast : i ≠ s.units.size := by omega
      simpa [notLast, List.getElem?_append_left below] using old
    · simp [size]
    · have notLast : i ≠ s.units.size := by omega
      have missing : (sources ++ [source])[i]? = none := List.getElem?_eq_none (by simp; omega)
      have beyond : s.units[i]? = none := Array.getElem?_eq_none (by omega)
      simp [notLast, missing, beyond]
  · -- an entry is old, or put in by this add under the unit's index
    rcases merged.entry found with old | claims
    · obtain ⟨below, mergedBy⟩ := before.entries name e old
      exact ⟨by simp; omega, mergedBy.append [source]⟩
    · have claimed : e.unit = sources.length := by rw [claims, before.size]
      refine ⟨by simp [claimed], sources, source, [], s, s', by simp, claimed.symm, adds, ?_, ?_, found⟩
      · rw [claimed, ← before.size, ← answered]
        exact ok
      · intro present
        have := (before.entries name e present).1
        omega

theorem Adds.added {resolutions : ResolutionMap} {options : LinkOptions} {sources : List Archive}
    {s : Session} (adds : Adds (new resolutions options) sources s) :
    Added (new resolutions options) sources s := by
  induction adds with
  | nil => exact added_new resolutions options
  | add adds ok before => exact before.add adds ok

/-- The unit at an index, after later steps, is the source added at that index. -/
theorem source_at {s₀ s₁ s₂ : Session} {sources : List Archive} (added : Added s₀ sources s₁)
    (kept : KeepsUnits s₁ s₂) {i : Nat} {u : SessionUnit} (unit : s₂.units[i]? = some u) :
    sources[i]? = some u.source := by
  have inside : i < s₁.units.size := by
    rw [← kept.size]
    exact (Array.getElem?_eq_some_iff.1 unit).1
  obtain ⟨u₁, found₁⟩ : ∃ u₁, s₁.units[i]? = some u₁ := ⟨_, Array.getElem?_eq_getElem inside⟩
  obtain ⟨u', found', source⟩ := kept.sources i u₁ found₁
  rw [unit] at found'
  cases found'
  rw [← added.units i, found₁, Option.map_some, source]

/-- When every `addUnit` succeeded, the body of a registered copy that
prevailed is read from the function-body section of the unit whose `addUnit`
merged the copy: the owner is the index the copy's entry claims, that entry
was put in the table by the `addUnit` of the source at that index, and that
source is the unit at that index. -/
theorem registered_bodies_read_from_merging_unit {resolutions : ResolutionMap} {options : LinkOptions}
    {sources : List Archive} {s₁ s₂ : Session} (adds : Adds (new resolutions options) sources s₁)
    (later : Later s₁ s₂) :
    ∀ (decl : NodeId) (name : String) (e : SymbolEntry), (s₂.symtab.resolution? decl).isSome →
      s₂.symtab.entry? name = some e → e.decl = decl →
      MergedBy (new resolutions options) sources name e ∧ s₂.owner decl name = .ok e.unit ∧
      ∀ s₃, s₂.program.symbolName? decl = some name → s₂.program.hasBody decl = false →
        (readFunctionBody decl).run s₂ = .ok () s₃ →
        ∃ u bytes body p, s₂.units[e.unit]? = some u ∧ sources[e.unit]? = some u.source ∧
          u.source.acquire (SectionName.ofKind .functionBody (some name)) = .ok bytes ∧
          FunctionBody.readSection s₂.program u.decls decl bytes s₂.options.verify = (.ok body, p) ∧
          s₃ = { s₂ with program := p.setBody decl body } := by
  intro decl name e registered prevails same
  have added := adds.added
  have kept := later.keeps
  have owned := owner_of_entry registered prevails same
  -- the entry was in the table when the last unit was added, and is still
  have found : s₁.symtab.entries[name]? = some e := by
    rw [← kept.symtab]
    exact prevails
  obtain ⟨-, mergedBy⟩ := added.entries name e found
  refine ⟨mergedBy, owned, fun s₃ named unread ok => ?_⟩
  obtain ⟨index, u, bytes, body, p, owner, unit, acquired, decoded, rfl⟩ := readFunctionBody_reads named unread ok
  -- the owner the read used is the entry's unit, whose source is the one at that index
  obtain rfl : index = e.unit := Except.ok.inj (owner.symm.trans owned)
  exact ⟨u, bytes, body, p, unit, source_at added kept unit, acquired, decoded, rfl⟩

/-- When every `addUnit` succeeded, the body of a copy that no merge
recorded, such as a static function, is read from the first unit whose
function table, as its `addUnit` read it, lists the copy: the owner is that
unit, whether or not the fixup ran in between. -/
theorem unrecorded_bodies_read_from_first_listing_unit {resolutions : ResolutionMap} {options : LinkOptions}
    {sources : List Archive} {s₁ s₂ : Session} (adds : Adds (new resolutions options) sources s₁)
    (later : Later s₁ s₂) :
    ∀ (decl : NodeId) (name : String), s₂.symtab.resolution? decl = none →
      (s₂.owner decl name).toOption = s₁.units.toList.findIdx? (fun u => (u.decls.table .function).contains decl) ∧
      ∀ s₃, s₂.program.symbolName? decl = some name → s₂.program.hasBody decl = false →
        (readFunctionBody decl).run s₂ = .ok () s₃ →
        ∃ i u bytes body p, s₁.units.toList.findIdx? (fun u => (u.decls.table .function).contains decl) = some i ∧
          s₂.units[i]? = some u ∧ sources[i]? = some u.source ∧
          u.source.acquire (SectionName.ofKind .functionBody (some name)) = .ok bytes ∧
          FunctionBody.readSection s₂.program u.decls decl bytes s₂.options.verify = (.ok body, p) ∧
          s₃ = { s₂ with program := p.setBody decl body } := by
  intro decl name unknown
  have kept := later.keeps
  have unknown₁ : s₁.symtab.resolution? decl = none := by
    rw [← kept.symtab]
    exact unknown
  -- the later steps leave the copy in the tables of the units that listed it
  have first : (s₂.owner decl name).toOption =
      s₁.units.toList.findIdx? (fun u => (u.decls.table .function).contains decl) := by
    rw [owner_of_unrecorded unknown]
    exact findIdx?_eq_of_map_eq (later.lists adds.entriesMerged unknown₁)
  refine ⟨first, fun s₃ named unread ok => ?_⟩
  obtain ⟨index, u, bytes, body, p, owner, unit, acquired, decoded, rfl⟩ := readFunctionBody_reads named unread ok
  have found : s₁.units.toList.findIdx? (fun u => (u.decls.table .function).contains decl) = some index := by
    rw [← first, owner]
    rfl
  exact ⟨index, u, bytes, body, p, found, unit, source_at adds.added kept unit, acquired, decoded, rfl⟩

/-- Bodies are read from the unit that owns the declaration, by both paths of
`owner`, when every `addUnit` succeeded: a registered copy that prevailed from
the unit whose `addUnit` merged it, and a copy that no merge recorded from the
first unit whose own function table lists it. -/
theorem bodies_read_from_owning_unit {resolutions : ResolutionMap} {options : LinkOptions}
    {sources : List Archive} {s₁ s₂ : Session} (adds : Adds (new resolutions options) sources s₁)
    (later : Later s₁ s₂) :
    (∀ (decl : NodeId) (name : String) (e : SymbolEntry), (s₂.symtab.resolution? decl).isSome →
      s₂.symtab.entry? name = some e → e.decl = decl →
      MergedBy (new resolutions options) sources name e ∧ s₂.owner decl name = .ok e.unit ∧
      ∀ s₃, s₂.program.symbolName? decl = some name → s₂.program.hasBody decl = false →
        (readFunctionBody decl).run s₂ = .ok () s₃ →
        ∃ u bytes body p, s₂.units[e.unit]? = some u ∧ sources[e.unit]? = some u.source ∧
          u.source.acquire (SectionName.ofKind .functionBody (some name)) = .ok bytes ∧
          FunctionBody.readSection s₂.program u.decls decl bytes s₂.options.verify = (.ok body, p) ∧
          s₃ = { s₂ with program := p.setBody decl body }) ∧
    ∀ (decl : NodeId) (name : String), s₂.symtab.resolution? decl = none →
      (s₂.owner decl name).toOption = s₁.units.toList.findIdx? (fun u => (u.decls.table .function).contains decl) ∧
      ∀ s₃, s₂.program.symbolName? decl = some name → s₂.program.hasBody decl = false →
        (readFunctionBody decl).run s₂ = .ok () s₃ →
        ∃ i u bytes body p, s₁.units.toList.findIdx? (fun u => (u.decls.table .function).contains decl) = some i ∧
          s₂.units[i]? = some u ∧ sources[i]? = some u.source ∧
          u.source.acquire (SectionName.ofKind .functionBody (some name)) = .ok bytes ∧
          FunctionBody.readSection s₂.program u.decls decl bytes s₂.options.verify = (.ok body, p) ∧
          s₃ = { s₂ with program := p.setBody decl body } :=
  ⟨registered_bodies_read_from_merging_unit adds later, unrecorded_bodies_read_from_first_listing_unit adds later⟩

/-- A unit's program with one function of its own, `helper`, static and with a
body: the identifier after the common nodes, then the declaration, which is
the file-scope declaration and the one call-graph node. -/
def staticHelper : Program where
  arena := { CommonNode.arena with
    nodes := (CommonNode.arena.nodes.push { code := .identifierNode, data := .identifier "helper" }).push
      { code := .functionDecl, data := .decl { name := some ⟨CommonNode.count⟩ } } }
  globals := [⟨CommonNode.count + 1⟩]
  functions := [(⟨CommonNode.count + 1⟩, { decl := ⟨CommonNode.count + 1⟩ })]
  callgraph := { nodes := #[some { decl := ⟨CommonNode.count + 1⟩, availability := .available }] }

/-- Two units written from `staticHelper`, each with its own static `helper`,
the archive left empty where writing fails. -/
def twoStatics : List Archive :=
  ["a.o", "b.o"].map fun name => (staticHelper.writeUnit {} none { name }).toOption.getD { name }

/-- Linking the two units up to the fixup: each `helper` is a copy no merge
records, and its body is read from the first unit that lists it. -/
theorem twoStatics_bodies_read_from_owning_unit :
    match (addAll twoStatics).run (new {} {}) with
    | .error _ _ => True
    | .ok () s₁ =>
      match readCallGraph.run s₁ with
      | .error _ _ => True
      | .ok () s' =>
        match fixup.run s' with
        | .error _ _ => True
        | .ok _ s₂ => Adds (new {} {}) twoStatics s₁ ∧ Later s₁ s₂ ∧
          (∀ (decl : NodeId) (name : String) (e : SymbolEntry), (s₂.symtab.resolution? decl).isSome →
            s₂.symtab.entry? name = some e → e.decl = decl →
            MergedBy (new {} {}) twoStatics name e ∧ s₂.owner decl name = .ok e.unit ∧
            ∀ s₃, s₂.program.symbolName? decl = some name → s₂.program.hasBody decl = false →
              (readFunctionBody decl).run s₂ = .ok () s₃ →
              ∃ u bytes body p, s₂.units[e.unit]? = some u ∧ twoStatics[e.unit]? = some u.source ∧
                u.source.acquire (SectionName.ofKind .functionBody (some name)) = .ok bytes ∧
                FunctionBody.readSection s₂.program u.decls decl bytes s₂.options.verify = (.ok body, p) ∧
                s₃ = { s₂ with program := p.setBody decl body }) ∧
          ∀ (decl : NodeId) (name : String), s₂.symtab.resolution? decl = none →
            (s₂.owner decl name).toOption =
              s₁.units.toList.findIdx? (fun u => (u.decls.table .function).contains decl) ∧
            ∀ s₃, s₂.program.symbolName? decl = some name → s₂.program.hasBody decl = false →
              (readFunctionBody decl).run s₂ = .ok () s₃ →
              ∃ i u bytes body p,
                s₁.units.toList.findIdx? (fun u => (u.decls.table .function).contains decl) = some i ∧
                s₂.units[i]? = some u ∧ twoStatics[i]? = some u.source ∧
                u.source.acquire (SectionName.ofKind .functionBody (some name)) = .ok bytes ∧
                FunctionBody.readSection s₂.program u.decls decl bytes s₂.options.verify = (.ok body, p) ∧
                s₃ = { s₂ with program := p.setBody decl body } := by
  split
  · trivial
  next s₁ added =>
  split
  · trivial
  next s' read =>
  split
  · trivial
  next replaced s₂ fixed =>
  have adds : Adds (new {} {}) twoStatics s₁ := by simpa using Adds.nil.addAll added
  have later : Later s₁ s₂ := .fixup (.graphRead .refl read) fixed
  exact ⟨adds, later, bodies_read_from_owning_unit adds later⟩

end Session

end IrStream
