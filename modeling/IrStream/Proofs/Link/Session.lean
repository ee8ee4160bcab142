import Mathlib
import IrStream.Proofs.Codec.GraphFrame
import IrStream.Link.Session

/-!
A failed session step keeps what it did before it failed. `addUnit` merges a
unit's symbols one at a time under the index the unit is about to take, and the
unit is pushed only once every symbol has merged; when a later symbol clashes,
the merges before it stay. `readCallGraph` merges unit after unit, each into
the program's graph and the unit's node list, and a failing unit leaves the
units before it merged.

What does hold is stated exactly:

* `Session.addUnit_failed`: a failed `addUnit` keeps the units, the stage and
  the globals; its program only has nodes appended, and its symbol table is the
  old one after merges made under the index of the unit that was not added
  (`SymbolTable.MergesUnder`), so each entry is old or claims that index;
* `Session.readCallGraph_failed`: a failed `readCallGraph` keeps the symbol
  table, the stage and every unit's sections and tables, and changes the
  program only in its call graph.
-/

open Std.Do

set_option mvcgen.warning false

namespace IrStream

namespace SymbolTable

/-- `t'` is `t` after merges made under the unit index `unit`. -/
inductive MergesUnder (unit : Nat) (t : SymbolTable) : SymbolTable → Prop
  | refl : MergesUnder unit t t
  | merge {t' : SymbolTable} {s : SymbolInfo} {r : Resolution} :
      MergesUnder unit t t' → MergesUnder unit t (t'.merge unit s r).1

theorem entry_insert {entries : Std.HashMap String SymbolEntry} {key name : String}
    {candidate e : SymbolEntry} (found : (entries.insert key candidate)[name]? = some e) :
    entries[name]? = some e ∨ e = candidate := by
  rw [Std.HashMap.getElem?_insert] at found
  split at found
  · exact .inr (Option.some.inj found).symm
  · exact .inl found

/-- A merge adds or replaces entries only with the copy it merges, under its
unit. -/
theorem entry_merge {t : SymbolTable} {unit : Nat} {s : SymbolInfo} {r : Resolution}
    {name : String} {e : SymbolEntry} (found : (t.merge unit s r).1.entries[name]? = some e) :
    t.entries[name]? = some e ∨ e.unit = unit := by
  unfold merge at found
  cases prior : t.entries.get? s.name with
  | none =>
    simp only [prior] at found
    rcases entry_insert found with old | rfl
    · exact .inl old
    · exact .inr rfl
  | some _ =>
    simp only [prior] at found
    -- each branch keeps the entries or puts the candidate in
    split_ifs at found
    all_goals first
      | exact .inl found
      | rcases entry_insert found with old | rfl
        · exact .inl old
        · exact .inr rfl

/-- After merges under `unit`, every entry is an old one or claims `unit`. -/
theorem MergesUnder.entry {unit : Nat} {t t' : SymbolTable} (merged : t.MergesUnder unit t')
    {name : String} {e : SymbolEntry} (found : t'.entries[name]? = some e) :
    t.entries[name]? = some e ∨ e.unit = unit := by
  induction merged generalizing e with
  | refl => exact .inl found
  | merge _ earlier =>
    rcases entry_merge found with old | claims
    · exact earlier old
    · exact .inr claims

end SymbolTable

namespace Session

/-- What a failed `addUnit` may leave of `s`: the same units and stage, a
program with nodes appended, and the symbol table after merges under the index
`s.units.size` that the unit would have taken. -/
structure AfterFailedAdd (s s' : Session) : Prop where
  units : s'.units = s.units
  stage : s'.stage = s.stage
  program : s.program.Extends s'.program
  symtab : s.symtab.MergesUnder s.units.size s'.symtab

theorem AfterFailedAdd.refl (s : Session) : s.AfterFailedAdd s :=
  ⟨rfl, rfl, .refl s.program, .refl⟩

variable {s₀ s : Session}

/-- Reading the unit's declarations into the program. -/
theorem AfterFailedAdd.readDecls (after : s₀.AfterFailedAdd s) (data : ByteArray) :
    s₀.AfterFailedAdd { s with program := (DeclsSection.read s.program data).2 } :=
  ⟨after.units, after.stage, after.program.trans (DeclsSection.read_extends s.program data),
    after.symtab⟩

/-- Merging one symbol under the index the unit would take. -/
theorem AfterFailedAdd.merge (after : s₀.AfterFailedAdd s) {index : Nat}
    (unit : index = s₀.units.size) (info : SymbolInfo) (r : Resolution) :
    s₀.AfterFailedAdd { s with symtab := (s.symtab.merge index info r).1 } := by
  subst unit
  exact ⟨after.units, after.stage, after.program, after.symtab.merge⟩

/-- `addUnit` run from a state that a failed `addUnit` may have left of `s₀`
fails, if it does, in another such state. -/
theorem addUnit_frame (source : Archive) (s₀ : Session) :
    ⦃fun s => ⌜s₀.AfterFailedAdd s⌝⦄ addUnit source
      ⦃post⟨fun _ _ => ⌜True⌝, fun _ s => ⌜s₀.AfterFailedAdd s⌝⟩⦄ := by
  mvcgen [addUnit, SessionM.stage, SessionM.stream, SessionM.within, SessionM.liftPipeline,
    SessionM.setProgram]
  -- the merge loop may fail at any symbol, keeping the merges before it
  case inv1 | inv2 => exact post⟨fun _ s => ⌜s₀.AfterFailedAdd s⌝, fun _ s => ⌜s₀.AfterFailedAdd s⌝⟩
  all_goals grind [AfterFailedAdd.readDecls, AfterFailedAdd.merge, AfterFailedAdd.units]

/-- A failed `addUnit` keeps the units, the stage and the globals; its program
only has nodes appended, and its symbol table is the old one after merges made
under the index the unit would have taken. -/
theorem addUnit_failed {source : Archive} {s s' : Session} {e : PipelineError}
    (failed : (addUnit source).run s = .error e s') : s.AfterFailedAdd s' :=
  (triple_run (addUnit_frame source s) (.refl s) failed).2 e s' rfl

/-- What a failed `readCallGraph` may leave of `s`: the same symbol table and
stage, every unit with its sections and tables (its node list filled in if its
graph was read), and a program changed only in its call graph. -/
structure AfterFailedGraphRead (s s' : Session) : Prop where
  symtab : s'.symtab = s.symtab
  stage : s'.stage = s.stage
  size : s'.units.size = s.units.size
  units : ∀ (i : Nat) (u : SessionUnit), s.units[i]? = some u →
    ∃ u', s'.units[i]? = some u' ∧ u'.source = u.source ∧ u'.decls = u.decls
  program : s.program.OnlyGraphChanged s'.program

theorem AfterFailedGraphRead.refl (s : Session) : s.AfterFailedGraphRead s :=
  ⟨rfl, rfl, rfl, fun _ u found => ⟨u, found, rfl, rfl⟩, .refl s.program⟩

/-- Reading one unit's call graph into the program. -/
theorem AfterFailedGraphRead.readGraph (after : s₀.AfterFailedGraphRead s) (decls : UnitDecls)
    (data : ByteArray) (symtab : SymbolTable) :
    s₀.AfterFailedGraphRead
      { s with program := (CallGraph.readSection s.program decls data symtab).2 } :=
  { after with
    program := after.program.trans (CallGraph.readSection_onlyGraphChanged _ decls data symtab) }

/-- Changing a unit in a way that keeps its sections and tables, such as
recording the nodes its records became. -/
theorem AfterFailedGraphRead.modifyUnit (after : s₀.AfterFailedGraphRead s) (i : Nat)
    {f : SessionUnit → SessionUnit} (keeps : ∀ u, (f u).source = u.source ∧ (f u).decls = u.decls) :
    s₀.AfterFailedGraphRead { s with units := s.units.modify i f } where
  symtab := after.symtab
  stage := after.stage
  size := by simpa using after.size
  units j u found := by
    obtain ⟨old, kept, source, decls⟩ := after.units j u found
    by_cases same : i = j
    · refine ⟨f old, by simp [Array.getElem?_modify, same, kept], ?_, ?_⟩
      · rw [(keeps old).1, source]
      · rw [(keeps old).2, decls]
    · exact ⟨old, by simp [Array.getElem?_modify, same, kept], source, decls⟩
  program := after.program

theorem readCallGraph_frame (s₀ : Session) :
    ⦃fun s => ⌜s₀.AfterFailedGraphRead s⌝⦄ readCallGraph
      ⦃post⟨fun _ _ => ⌜True⌝, fun _ s => ⌜s₀.AfterFailedGraphRead s⌝⟩⦄ := by
  mvcgen [readCallGraph, SessionM.stage, SessionM.stream, SessionM.within, SessionM.liftPipeline,
    SessionM.setProgram]
  -- each unit's graph is merged and its node list filled before the next is read
  case inv1 | inv2 =>
    exact post⟨fun _ s => ⌜s₀.AfterFailedGraphRead s⌝, fun _ s => ⌜s₀.AfterFailedGraphRead s⌝⟩
  all_goals grind [AfterFailedGraphRead.readGraph, AfterFailedGraphRead.modifyUnit]

/-- A failed `readCallGraph` keeps the symbol table, the stage and every
unit's sections and tables, and changes the program only in its call graph;
the units read before the failing one keep their merged graphs and node lists. -/
theorem readCallGraph_failed {s s' : Session} {e : PipelineError}
    (failed : readCallGraph.run s = .error e s') : s.AfterFailedGraphRead s' :=
  (triple_run (readCallGraph_frame s) (.refl s) failed).2 e s' rfl

end Session

/-- What a failed session step leaves behind. A failed `addUnit` keeps the
units, the stage and the globals, appends nodes only, and leaves the symbol
table after the merges it made before failing, each under the index of the unit
that was not added; so every entry is an old one or claims that index. A failed
`readCallGraph` keeps the symbol table, the stage and every unit's tables, and
changes only the call graph, keeping what the units before the failing one
merged. -/
theorem session_failures_frame (source : Archive) (s : Session) :
    (match (Session.addUnit source).run s with
      | .ok _ _ => True
      | .error _ s' => s.AfterFailedAdd s' ∧
          ∀ (name : String) (e : SymbolEntry), s'.symtab.entries[name]? = some e →
            s.symtab.entries[name]? = some e ∨ e.unit = s.units.size) ∧
    (match Session.readCallGraph.run s with
      | .ok _ _ => True
      | .error _ s' => s.AfterFailedGraphRead s') := by
  constructor
  · cases added : (Session.addUnit source).run s with
    | ok => trivial
    | error e s' =>
      have after := Session.addUnit_failed added
      exact ⟨after, fun name e found => after.symtab.entry found⟩
  · cases read : Session.readCallGraph.run s with
    | ok => trivial
    | error e s' => exact Session.readCallGraph_failed read

end IrStream
