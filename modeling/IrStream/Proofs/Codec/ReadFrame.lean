import Mathlib
import IrStream.Proofs.Codec.Arena
import IrStream.Codec.Decls
import IrStream.Codec.Body

/-!
Reading a section only adds to the program it reads into. `Program.Extends p q`
says that `q` is `p` with nodes added: every slot of `p` keeps its node, every
spelling keeps its identifier, and the globals, bodies and call graph are
those of `p`.

The tree and body readers touch the program in four ways only: they append a
node (`ReadM.alloc`, new labels), look a spelling up or add it
(`Program.identifier`), and fill a placeholder they appended themselves
(`ReadM.replace`). The primitive specs below say so for a fixed origin `P₀`,
and `mvcgen` carries them through every reader (`ReadM.OnlyAdds`), on success
and on failure alike, since a failing reader keeps the state it reached.

* `DeclsSection.read_extends`: reading a declarations section, whatever it
  answers, leaves a program that extends the one it was given;
* `FunctionBody.readSection_extends`: the same for a function body.
-/

open Std.Do

set_option mvcgen.warning false

namespace IrStream

/-- `q` is `p` with nodes added: every slot of `p` keeps its node, every
spelling keeps its identifier, nothing more is freed, and the globals, bodies
and call graph are those of `p`. -/
structure Program.Extends (p q : Program) : Prop where
  size : p.arena.size ≤ q.arena.size
  nodes : ∀ id : NodeId, id.val < p.arena.size → q.arena.get? id = p.arena.get? id
  identifiers : ∀ (s : String) (id : NodeId),
    p.arena.identifiers[s]? = some id → q.arena.identifiers[s]? = some id
  freed : q.arena.freed = p.arena.freed
  globals : q.globals = p.globals
  functions : q.functions = p.functions
  callgraph : q.callgraph = p.callgraph

namespace Program.Extends

variable {P₀ p q r : Program}

theorem refl (p : Program) : p.Extends p :=
  ⟨le_rfl, fun _ _ => rfl, fun _ _ found => found, rfl, rfl, rfl, rfl⟩

theorem trans (first : p.Extends q) (second : q.Extends r) : p.Extends r where
  size := first.size.trans second.size
  nodes id inside :=
    (second.nodes id (lt_of_lt_of_le inside first.size)).trans (first.nodes id inside)
  identifiers s id found := second.identifiers s id (first.identifiers s id found)
  freed := second.freed.trans first.freed
  globals := second.globals.trans first.globals
  functions := second.functions.trans first.functions
  callgraph := second.callgraph.trans first.callgraph

/-- Appending a node keeps every slot. -/
theorem of_alloc (p : Program) (n : Node) : p.Extends (p.alloc n).2 where
  size := by simp
  nodes id inside := by
    have different : id.val ≠ p.arena.nodes.size := Nat.ne_of_lt inside
    simp [Program.alloc, Arena.alloc, Arena.get?, Array.getElem?_push, different]
  identifiers _ _ found := found
  freed := rfl
  globals := rfl
  functions := rfl
  callgraph := rfl

/-- Looking a spelling up, or adding it, keeps every slot and spelling. -/
theorem of_identifier (p : Program) (s : String) : p.Extends (p.identifier s).2 := by
  cases found : p.arena.identifiers.get? s with
  | some id =>
    rw [identifier_of_found found]
    exact refl p
  | none =>
    rw [identifier_of_absent found]
    refine ⟨(of_alloc p _).size, (of_alloc p _).nodes, fun t id old => ?_, rfl, rfl, rfl, rfl⟩
    have different : s ≠ t := by
      rintro rfl
      simp [Std.HashMap.get?_eq_getElem?, old] at found
    simp [Std.HashMap.getElem?_insert, different, old]

/-- Filling a slot that `P₀` does not have keeps every slot of `P₀`. -/
theorem replace (ext : P₀.Extends p) {id : NodeId} (fresh : P₀.arena.size ≤ id.val)
    (n : Node) :
    P₀.Extends { p with arena := p.arena.replace id n } where
  size := by simpa [Arena.replace, Arena.size] using ext.size
  nodes other inside := by
    have different : id.val ≠ other.val := by omega
    simp only [Arena.replace, Arena.get?, Array.set!_eq_setIfInBounds,
      Array.getElem?_setIfInBounds, different, if_false]
    exact ext.nodes other inside
  identifiers := ext.identifiers
  freed := ext.freed
  globals := ext.globals
  functions := ext.functions
  callgraph := ext.callgraph

theorem alloc (ext : P₀.Extends p) (n : Node) : P₀.Extends (p.alloc n).2 :=
  ext.trans (of_alloc p n)

theorem identifier (ext : P₀.Extends p) (s : String) : P₀.Extends (p.identifier s).2 :=
  ext.trans (of_identifier p s)

theorem labelDecl (ext : P₀.Extends p) (function : NodeId) (name : Option NodeId) :
    P₀.Extends (p.labelDecl function name).2 :=
  ext.alloc _

/-- A node appended to an extension is not a slot of `P₀`. -/
theorem le_alloc (ext : P₀.Extends p) (n : Node) : P₀.arena.size ≤ (p.alloc n).1.val :=
  ext.size

end Program.Extends

/-- A triple over a state-and-error monad, read off its run: from a state
with `P`, the step succeeds in a state with `Q` of its answer, or fails in a
state with `E`. -/
theorem triple_iff_run {ε σ α : Type} {x : EStateM ε σ α} {P : σ → Prop}
    {Q : α → σ → Prop} {E : ε → σ → Prop} :
    ⦃fun s => ⌜P s⌝⦄ x ⦃post⟨fun a s => ⌜Q a s⌝, fun e s => ⌜E e s⌝⟩⦄ ↔
      ∀ s, P s → match x s with
        | .ok a s' => Q a s'
        | .error e s' => E e s' := by
  constructor
  · intro triple s holds
    have run := triple s holds
    simp only [wp, PredTrans.apply, EStateM.run] at run
    split at run <;> simp_all
  · intro run s holds
    have step := run s holds
    simp only [wp, PredTrans.apply, EStateM.run]
    split <;> simp_all

/-- The state a run ends in, read off a triple over the step. -/
theorem triple_run {ε σ α : Type} {x : EStateM ε σ α} {P : σ → Prop} {Q : α → σ → Prop}
    {E : ε → σ → Prop}
    (triple : ⦃fun s => ⌜P s⌝⦄ x ⦃post⟨fun a s => ⌜Q a s⌝, fun e s => ⌜E e s⌝⟩⦄)
    {s : σ} (start : P s) {result : EStateM.Result ε σ α} (run : x.run s = result) :
    (∀ a s', result = .ok a s' → Q a s') ∧ (∀ e s', result = .error e s' → E e s') := by
  have ends := triple_iff_run.mp triple s start
  simp only [EStateM.run] at run
  rw [run] at ends
  constructor
  · rintro a s' rfl
    exact ends
  · rintro e s' rfl
    exact ends

namespace ReadM

/-- The program still extends `P₀`, whether the step succeeded or failed: the
postcondition of every reader below and the invariant of each of their loops. -/
abbrev stillExtends (P₀ : Program) {β : Type} :
    PostCond β (.except StreamError (.arg TreeReader .pure)) :=
  post⟨fun _ R => ⌜P₀.Extends R.program⌝, fun _ R => ⌜P₀.Extends R.program⌝⟩

/-- Started on a program that extends `P₀`, `x` ends on one that still does,
whether it succeeds or fails. A reader that does so for every `P₀` only adds
to the program. -/
abbrev OnlyAdds (P₀ : Program) (x : ReadM α) : Prop :=
  ⦃fun R => ⌜P₀.Extends R.program⌝⦄ x ⦃stillExtends P₀⦄

/-- Run from a program that extends `P₀`, a reader that only adds ends in a
state whose program still does, whichever way it ends. -/
theorem OnlyAdds.ends {P₀ : Program} {α : Type} {x : ReadM α} (adds : OnlyAdds P₀ x)
    {R : TreeReader} (start : P₀.Extends R.program)
    {result : EStateM.Result StreamError TreeReader α} (run : x.run R = result) :
    (∀ a R', result = .ok a R' → P₀.Extends R'.program) ∧
      (∀ e R', result = .error e R' → P₀.Extends R'.program) :=
  triple_run adds start run

section Primitives

theorem onCursor_onlyAdds (P₀ : Program) {α : Type} (m : CursorM α) :
    OnlyAdds P₀ (onCursor m) := by
  rw [OnlyAdds, triple_iff_run]
  intro R ext
  simp only [onCursor, EStateM.run]
  cases m R.cursor <;> exact ext

theorem withCursor_onlyAdds (P₀ : Program) {α : Type} (c : Cursor) {m : ReadM α}
    (inner : OnlyAdds P₀ m) : OnlyAdds P₀ (withCursor c m) := by
  rw [OnlyAdds, triple_iff_run] at *
  intro R ext
  have run := inner { R with cursor := c } ext
  simp only [withCursor]
  cases result : m { R with cursor := c } <;> simp_all

theorem inRecord_onlyAdds (P₀ : Program) {α : Type} {m : ReadM α} (inner : OnlyAdds P₀ m) :
    OnlyAdds P₀ (inRecord m) := by
  rw [OnlyAdds, triple_iff_run] at *
  intro R ext
  have run := inner { R with pickles := {}, last := {} } ext
  simp only [inRecord]
  cases result : m { R with pickles := {}, last := {} } <;> simp_all

/-- A node is appended past every slot of `P₀`. -/
theorem alloc_onlyAdds (P₀ : Program) (n : Node) :
    ⦃fun R => ⌜P₀.Extends R.program⌝⦄ alloc n
      ⦃post⟨fun id R => ⌜P₀.arena.size ≤ id.val ∧ P₀.Extends R.program⌝,
        fun _ R => ⌜P₀.Extends R.program⌝⟩⦄ := by
  mvcgen [alloc]
  rename_i R ext _
  exact ⟨ext.le_alloc n, ext.alloc n⟩

theorem replace_onlyAdds (P₀ : Program) (id : NodeId) (fresh : P₀.arena.size ≤ id.val)
    (n : Node) :
    ⦃fun R => ⌜P₀.Extends R.program⌝⦄ replace id n ⦃stillExtends P₀⦄ := by
  mvcgen [replace]
  rename_i R ext _
  exact ext.replace fresh n

end Primitives

/-! Each reader below is taken apart by `mvcgen` against the specs of what it
calls, all taken at the one origin `P₀`; what is left are the frame conditions
`Extends` passes along by `refl` and `trans`. -/

section Trees

variable (P₀ : Program)

theorem scope_onlyAdds (what : String) : OnlyAdds P₀ (scope what) := by
  mvcgen [scope, fail]

theorem setScope_onlyAdds (sc : ScopeInput) : OnlyAdds P₀ (setScope sc) := by
  mvcgen [setScope]

theorem readStr_onlyAdds : OnlyAdds P₀ readStr := by
  have cursor := @onCursor_onlyAdds P₀
  mvcgen [readStr, cursor]

theorem readRef_onlyAdds : OnlyAdds P₀ readRef := by
  have cursor := @onCursor_onlyAdds P₀
  mvcgen [readRef, cursor]

theorem flagWord_onlyAdds : OnlyAdds P₀ flagWord := by
  have cursor := @onCursor_onlyAdds P₀
  mvcgen [flagWord, cursor]

theorem readCount_onlyAdds {α : Type} (count : Nat) {item : ReadM α} (each : OnlyAdds P₀ item) :
    OnlyAdds P₀ (readCount count item) := by
  mvcgen [readCount, each]
  case inv1 => exact stillExtends P₀
  all_goals grind

theorem bind_onlyAdds {α β : Type} {x : ReadM α} {f : α → ReadM β} (first : OnlyAdds P₀ x)
    (rest : ∀ a, OnlyAdds P₀ (f a)) : OnlyAdds P₀ (x >>= f) :=
  Triple.bind _ _ first rest

theorem discard_onlyAdds {α : Type} {x : ReadM α} (inner : OnlyAdds P₀ x) :
    OnlyAdds P₀ (discard x) := by
  have mapped : discard x = (fun _ => ()) <$> x := rfl
  rw [mapped]
  mvcgen [inner]

/-- A loop over a list only adds when each round does. -/
theorem forIn_onlyAdds {β γ : Type} (xs : List γ) (init : β)
    {f : γ → β → ReadM (ForInStep β)} (each : ∀ x b, OnlyAdds P₀ (f x b)) :
    OnlyAdds P₀ (forIn xs init f) := by
  mvcgen [each]
  case inv1 => exact stillExtends P₀
  all_goals grind

theorem readAll_onlyAdds {child : ReadM (Option NodeId)} (each : OnlyAdds P₀ child) :
    OnlyAdds P₀ (readAll child) := by
  have cursor := @onCursor_onlyAdds P₀
  have counted := @readCount_onlyAdds P₀
  mvcgen [readAll, cursor, counted, each]

theorem readPairs_onlyAdds {child : ReadM (Option NodeId)} (each : OnlyAdds P₀ child) :
    OnlyAdds P₀ (readPairs child) := by
  have cursor := @onCursor_onlyAdds P₀
  have counted := @readCount_onlyAdds P₀
  mvcgen [readPairs, cursor, counted, each]

theorem readFields_onlyAdds {ρ : Type} {child : ReadM (Option NodeId)} (each : OnlyAdds P₀ child)
    (fields : List (RecordField ρ)) (base : ρ) :
    OnlyAdds P₀ (readFields child fields base) := by
  -- one field, then the rest from the record read so far
  induction fields generalizing base with
  | nil =>
    simp only [readFields, List.foldlM_nil]
    mvcgen
  | cons f rest more =>
    simp only [readFields, List.foldlM_cons] at more ⊢
    refine Triple.bind _ _ (Q := fun _ R => ⌜P₀.Extends R.program⌝) ?_ more
    have cursor := @onCursor_onlyAdds P₀
    have all := readAll_onlyAdds P₀ each
    cases f <;> mvcgen [each, cursor, all]

theorem requiredRef_onlyAdds : OnlyAdds P₀ requiredRef := by
  have reads := readRef_onlyAdds P₀
  mvcgen [requiredRef, fail, reads]

theorem requiredStr_onlyAdds : OnlyAdds P₀ requiredStr := by
  have reads := readStr_onlyAdds P₀
  mvcgen [requiredStr, fail, reads]

theorem readPayload_onlyAdds {child : ReadM (Option NodeId)} (each : OnlyAdds P₀ child)
    (code : TreeCode) : OnlyAdds P₀ (readPayload child code) := by
  have cursor := @onCursor_onlyAdds P₀
  have counted := @readCount_onlyAdds P₀
  have str := requiredStr_onlyAdds P₀
  have ref := requiredRef_onlyAdds P₀
  have all := readAll_onlyAdds P₀ each
  have pairs := readPairs_onlyAdds P₀ each
  have fields := @readFields_onlyAdds P₀
  mvcgen [readPayload, fail, each, cursor, counted, str, ref, all, pairs, fields]

theorem readNode_onlyAdds {child : ReadM (Option NodeId)} (each : OnlyAdds P₀ child)
    (code : TreeCode) : OnlyAdds P₀ (readNode child code) := by
  -- the placeholder is filled against the origin `P₀`, which it lies past
  have str := requiredStr_onlyAdds P₀
  have flags := flagWord_onlyAdds P₀
  have payload := readPayload_onlyAdds P₀ each code
  have allocates := alloc_onlyAdds P₀
  have fills := replace_onlyAdds P₀
  mvcgen [readNode, each, str, flags, payload, allocates, fills]
  all_goals grind [Program.Extends.identifier]

theorem readLocalFields_onlyAdds {child : ReadM (Option NodeId)} (each : OnlyAdds P₀ child)
    (code : TreeCode) (variant : Nat) : OnlyAdds P₀ (readLocalFields child code variant) := by
  have cursor := @onCursor_onlyAdds P₀
  have flags := flagWord_onlyAdds P₀
  mvcgen [readLocalFields, each, cursor, flags]

theorem localRef_onlyAdds {child : ReadM (Option NodeId)} (each : OnlyAdds P₀ child)
    (index : UInt64) : OnlyAdds P₀ (localRef child index) := by
  have cursor := @onCursor_onlyAdds P₀
  have inScope := scope_onlyAdds P₀
  have setsScope := setScope_onlyAdds P₀
  have allocates := alloc_onlyAdds P₀
  have fills := replace_onlyAdds P₀
  have record := @inRecord_onlyAdds P₀
  have moved := @withCursor_onlyAdds P₀
  have fields := readLocalFields_onlyAdds P₀ each
  mvcgen [localRef, fail, cursor, inScope, setsScope, allocates, fills, record, moved, fields]
  all_goals grind

theorem labelRef_onlyAdds (index : Int64) : OnlyAdds P₀ (labelRef index) := by
  have inScope := scope_onlyAdds P₀
  have setsScope := setScope_onlyAdds P₀
  mvcgen [labelRef, fail, inScope, setsScope]
  all_goals grind [Program.Extends.labelDecl]

theorem ssaRef_onlyAdds (version : UInt64) : OnlyAdds P₀ (ssaRef version) := by
  have inScope := scope_onlyAdds P₀
  mvcgen [ssaRef, fail, inScope]

/-- Every tree reader only adds: by induction on the nesting fuel, each
level's children being read by the level below. -/
theorem readTreeWith_onlyAdds (fuel : Nat) : OnlyAdds P₀ (readTreeWith fuel) := by
  induction fuel with
  | zero => mvcgen [readTreeWith, fail]
  | succ fuel below =>
    have cursor := @onCursor_onlyAdds P₀
    have local_ := localRef_onlyAdds P₀ below
    have label := labelRef_onlyAdds P₀
    have ssa := ssaRef_onlyAdds P₀
    have node := readNode_onlyAdds P₀ below
    mvcgen [readTreeWith, fail, cursor, local_, label, ssa, node]

theorem readTree_onlyAdds : OnlyAdds P₀ readTree := by
  have levels := readTreeWith_onlyAdds P₀
  mvcgen [readTree, levels]

theorem readTreeRequired_onlyAdds (what : String) : OnlyAdds P₀ (readTreeRequired what) := by
  have tree := readTree_onlyAdds P₀
  mvcgen [readTreeRequired, fail, tree]

end Trees

section Bodies

variable (P₀ : Program)

theorem deferLink_onlyAdds (id : RegionId) (link : RegionLink) (pending : PendingLinks) :
    OnlyAdds P₀ (deferLink id link pending) := by
  have cursor := @onCursor_onlyAdds P₀
  mvcgen [deferLink, cursor]

theorem readRegion_onlyAdds (variant : Nat) (id : RegionId) (pending : PendingLinks) :
    OnlyAdds P₀ (readRegion variant id pending) := by
  have cursor := @onCursor_onlyAdds P₀
  have counted := @readCount_onlyAdds P₀
  have links := deferLink_onlyAdds P₀
  have tree := readTree_onlyAdds P₀
  mvcgen [readRegion, cursor, counted, links, tree]

theorem readSlots_onlyAdds (count k : Nat) (acc : EhSlots) :
    OnlyAdds P₀ (readSlots count k acc) := by
  -- one slot record per round, the rest read from the slots so far
  induction k generalizing acc with
  | zero => mvcgen [readSlots]
  | succ k rest =>
    have cursor := @onCursor_onlyAdds P₀
    have region := readRegion_onlyAdds P₀
    mvcgen [readSlots, fail, cursor, region, rest]

theorem readEhTable_onlyAdds : OnlyAdds P₀ readEhTable := by
  have cursor := @onCursor_onlyAdds P₀
  have slots := readSlots_onlyAdds P₀
  mvcgen [readEhTable, fail, cursor, slots]
  -- the alias, shared-slot and link loops only fail or rebuild the table
  case inv1 | inv2 | inv3 | inv4 => exact stillExtends P₀
  all_goals grind

theorem readLocalPreamble_onlyAdds (fuel : Nat) : OnlyAdds P₀ (readLocalPreamble fuel) := by
  induction fuel with
  | zero => mvcgen [readLocalPreamble]
  | succ fuel rest =>
    have cursor := @onCursor_onlyAdds P₀
    have tree := readTree_onlyAdds P₀
    have inScope := scope_onlyAdds P₀
    have setsScope := setScope_onlyAdds P₀
    mvcgen [readLocalPreamble, cursor, tree, inScope, setsScope, rest]

theorem readStmt_onlyAdds (tag : Nat) (prevRegion : Int32) :
    OnlyAdds P₀ (readStmt tag prevRegion) := by
  have cursor := @onCursor_onlyAdds P₀
  have flags := flagWord_onlyAdds P₀
  have counted := @readCount_onlyAdds P₀
  have tree := readTree_onlyAdds P₀
  mvcgen [readStmt, fail, cursor, flags, counted, tree]

theorem readPhi_onlyAdds : OnlyAdds P₀ readPhi := by
  have cursor := @onCursor_onlyAdds P₀
  have counted := @readCount_onlyAdds P₀
  have tree := readTree_onlyAdds P₀
  mvcgen [readPhi, cursor, counted, tree]

theorem readStmts_onlyAdds (fuel : Nat) (prev : Int32) (acc : Array Stmt) :
    OnlyAdds P₀ (readStmts fuel prev acc) := by
  induction fuel generalizing prev acc with
  | zero => mvcgen [readStmts]
  | succ fuel rest =>
    have cursor := @onCursor_onlyAdds P₀
    have stmt := readStmt_onlyAdds P₀
    mvcgen [readStmts, cursor, stmt, rest]

theorem readPhis_onlyAdds (fuel : Nat) (acc : Array Phi) :
    OnlyAdds P₀ (readPhis fuel acc) := by
  induction fuel generalizing acc with
  | zero => mvcgen [readPhis]
  | succ fuel rest =>
    have cursor := @onCursor_onlyAdds P₀
    have phi := readPhi_onlyAdds P₀
    mvcgen [readPhis, fail, cursor, phi, rest]

theorem readBlocks_onlyAdds (fuel : Nat) (g : Cfg) : OnlyAdds P₀ (readBlocks fuel g) := by
  induction fuel generalizing g with
  | zero => mvcgen [readBlocks]
  | succ fuel rest =>
    have cursor := @onCursor_onlyAdds P₀
    have stmts := readStmts_onlyAdds P₀
    have phis := readPhis_onlyAdds P₀
    mvcgen [readBlocks, remainingFuel, fail, cursor, stmts, phis, rest]

/-- The SSA names are appended, each past every slot of `P₀`. -/
theorem readSsaNames_onlyAdds : OnlyAdds P₀ readSsaNames := by
  have cursor := @onCursor_onlyAdds P₀
  have tree := readTree_onlyAdds P₀
  have allocates := alloc_onlyAdds P₀
  mvcgen [readSsaNames, fail, cursor, tree, allocates]
  case inv1 => exact stillExtends P₀
  all_goals grind

theorem readMain_onlyAdds (function : NodeId) (cfg : Cfg) :
    OnlyAdds P₀ (readMain function cfg) := by
  have cursor := @onCursor_onlyAdds P₀
  have tree := readTree_onlyAdds P₀
  have eh := readEhTable_onlyAdds P₀
  have blocks := readBlocks_onlyAdds P₀
  mvcgen [readMain, remainingFuel, fail, cursor, tree, eh, blocks]

end Bodies

end ReadM

theorem SectionData.cursorM_onlyAdds (P₀ : Program) (s : SectionData) (id : StreamId) :
    ReadM.OnlyAdds P₀ (s.cursorM id) := by
  mvcgen [SectionData.cursorM, ReadM.fail]

/-- Reading a declarations section, whether it succeeds or fails, leaves a
program that extends the one it was given. -/
theorem DeclsSection.read_extends (program : Program) (data : ByteArray) :
    program.Extends (DeclsSection.read program data).2 := by
  unfold DeclsSection.read
  split
  case h_1 => exact .refl program
  case h_2 sec _ =>
    split
    case h_1 | h_2 => exact .refl program
    case h_3 strings main _ _ =>
      dsimp only
      generalize run : EStateM.run _ ({ program, strings, cursor := main } : TreeReader) = result
      have ends := ReadM.OnlyAdds.ends ?adds (.refl program) run
      case adds =>
        have cursor := @ReadM.onCursor_onlyAdds program
        have required := ReadM.readTreeRequired_onlyAdds program
        mvcgen [ReadM.fail, cursor, required]
        -- the category, table and globals loops only read trees
        case inv1 | inv2 | inv3 => exact ReadM.stillExtends program
        all_goals grind
      cases result with
      | ok _ R => exact ends.1 _ R rfl
      | error _ R => exact ends.2 _ R rfl

/-- Reading a function body, whether it succeeds or fails, leaves a program
that extends the one it was given. -/
theorem FunctionBody.readSection_extends (program : Program) (decls : UnitDecls)
    (function : NodeId) (data : ByteArray) (verify : Bool) :
    program.Extends (FunctionBody.readSection program decls function data verify).2 := by
  unfold FunctionBody.readSection
  split
  case h_1 => exact .refl program
  case h_2 sec _ =>
    dsimp only
    generalize run :
      EStateM.run _ ({ program, decls, strings := _, cursor := default } : TreeReader) = result
    have ends := ReadM.OnlyAdds.ends ?adds (.refl program) run
    case adds =>
      have cursor := @ReadM.onCursor_onlyAdds program
      have moved := @ReadM.withCursor_onlyAdds program
      have sections := SectionData.cursorM_onlyAdds program sec
      have counted := @ReadM.readCount_onlyAdds program
      have inScope := ReadM.scope_onlyAdds program
      have setsScope := ReadM.setScope_onlyAdds program
      have preamble := ReadM.readLocalPreamble_onlyAdds program
      have ssa := ReadM.readSsaNames_onlyAdds program
      have main := ReadM.readMain_onlyAdds program
      have locals := ReadM.localRef_onlyAdds program (ReadM.readTree_onlyAdds program)
      -- `mvcgen` cannot split the match on the label loop's variable, so the
      -- steps up to and through that loop are taken by hand
      refine ReadM.bind_onlyAdds program (sections .namedLabels) fun labelCursor => ?_
      refine ReadM.bind_onlyAdds program (by mvcgen) fun R => ?_
      refine ReadM.bind_onlyAdds program (moved _ (by mvcgen [counted, cursor]))
        fun ⟨labelNames, _⟩ => ?_
      refine ReadM.bind_onlyAdds program
        (ReadM.forIn_onlyAdds program _ _ fun name named => ?_) fun named => ?_
      · cases name <;> mvcgen
        all_goals grind [Program.Extends.identifier, Program.Extends.labelDecl]
      have discards := @ReadM.discard_onlyAdds program
      mvcgen [ReadM.fail, ReadM.remainingFuel, cursor, moved, sections, counted, inScope,
        setsScope, preamble, ssa, main, locals, discards]
      case inv1 => exact ReadM.stillExtends program
      all_goals grind
    cases result with
    | ok _ R => exact ends.1 _ R rfl
    | error _ R => exact ends.2 _ R rfl

end IrStream
