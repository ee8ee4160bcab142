import Mathlib
import IrStream.Proofs.Codec.ReadFrame

/-!
Readers only move forward. A cursor read that succeeds leaves the cursor on
the same bytes at a position no earlier than before (`CursorM.Advances`), and
the reads that take a tag or a varint take at least one byte
(`CursorM.Consumes`). A tree reader moves its cursor the same way and, inside a
function body, never makes a local unread again (`TreeReader.Moves`), so the
reader's `TreeReader.measure`, the bytes left in its cursor plus room for every
local record still to read, never grows (`TreeReader.Moves.measure_le`).

Reading a local's record switches to a cursor of its own, which may have more
bytes left than the caller's, but only after the local has been marked read;
`ReadM.withCursor` puts the caller's cursor back, so the measure of the caller
still never grows.

* `ReadM.readTreeWith_advances`: every tree reader moves forward;
* `ReadM.readTreeWith_consumes`: a tree read that succeeds has taken at least
  one byte of the cursor it was given, its tag.
-/

open Std.Do

set_option mvcgen.warning false

namespace IrStream

namespace Cursor

/-- `c'` reads the same bytes as `c`, from no earlier a position. -/
structure Behind (c c' : Cursor) : Prop where
  data : c'.data = c.data
  pos : c.pos ≤ c'.pos

/-- `c'` reads the same bytes as `c`, past at least one more of them, so
fewer of them are left. -/
structure Past (c c' : Cursor) : Prop where
  data : c'.data = c.data
  pos : c.pos < c'.pos
  remaining : c'.remaining < c.remaining

namespace Behind

variable {c₁ c₂ c₃ : Cursor}

theorem refl (c : Cursor) : c.Behind c := ⟨rfl, le_rfl⟩

theorem trans (first : c₁.Behind c₂) (second : c₂.Behind c₃) : c₁.Behind c₃ :=
  ⟨second.data.trans first.data, first.pos.trans second.pos⟩

theorem remaining_le (behind : c₁.Behind c₂) : c₂.remaining ≤ c₁.remaining := by
  have later := behind.pos
  simp only [remaining, behind.data]
  omega

theorem past (first : c₁.Behind c₂) (second : c₂.Past c₃) : c₁.Past c₃ :=
  ⟨second.data.trans first.data, lt_of_le_of_lt first.pos second.pos,
    lt_of_lt_of_le second.remaining first.remaining_le⟩

end Behind

namespace Past

variable {c₁ c₂ c₃ : Cursor}

theorem behind (past : c₁.Past c₂) : c₁.Behind c₂ := ⟨past.data, past.pos.le⟩

theorem behind_trans (first : c₁.Past c₂) (second : c₂.Behind c₃) : c₁.Past c₃ :=
  ⟨second.data.trans first.data, lt_of_lt_of_le first.pos second.pos,
    lt_of_le_of_lt second.remaining_le first.remaining⟩

end Past

end Cursor

namespace CursorM

/-- A read that, when it succeeds, leaves the cursor on the same bytes, no
earlier than any position `c₀` it started from or after. -/
abbrev Advances {α : Type} (c₀ : Cursor) (m : CursorM α) : Prop :=
  ⦃fun c => ⌜c₀.Behind c⌝⦄ m ⦃post⟨fun _ c => ⌜c₀.Behind c⌝, fun _ _ => ⌜True⌝⟩⦄

/-- A read that, when it succeeds, has taken at least one byte. -/
abbrev Consumes {α : Type} (c₀ : Cursor) (m : CursorM α) : Prop :=
  ⦃fun c => ⌜c₀.Behind c⌝⦄ m ⦃post⟨fun _ c => ⌜c₀.Past c⌝, fun _ _ => ⌜True⌝⟩⦄

theorem Consumes.advances {α : Type} {c₀ : Cursor} {m : CursorM α} (consumes : Consumes c₀ m) :
    Advances c₀ m := by
  mvcgen [consumes]
  exact Cursor.Past.behind

theorem Advances.run {α : Type} {m : CursorM α} (advances : ∀ c₀, Advances c₀ m) {c c' : Cursor}
    {a : α} (run : m.run c = .ok a c') : c.Behind c' :=
  (triple_run (advances c) (Cursor.Behind.refl c) run).1 a c' rfl

theorem Consumes.run {α : Type} {m : CursorM α} (consumes : ∀ c₀, Consumes c₀ m) {c c' : Cursor}
    {a : α} (run : m.run c = .ok a c') : c.Past c' :=
  (triple_run (consumes c) (Cursor.Behind.refl c) run).1 a c' rfl

variable (c₀ : Cursor)

theorem readU8_consumes : Consumes c₀ readU8 := by
  mvcgen [readU8]
  rename_i c behind inside
  have later := behind.pos
  have left : c.remaining ≤ c₀.remaining := behind.remaining_le
  exact ⟨behind.data, by simp; omega, by simp only [Cursor.remaining] at left ⊢; omega⟩

theorem ulebFrom_consumes (start i : Nat) (acc : UInt64) : Consumes c₀ (ulebFrom start i acc) := by
  -- a group is read before the last one is known, so every round takes a byte
  fun_induction ulebFrom start i acc with
  | case1 i acc below more =>
    have first := readU8_consumes c₀
    mvcgen [ulebFrom, first, more]
    exact Cursor.Past.behind ‹_›
  | case2 => mvcgen [ulebFrom]

theorem slebFrom_consumes (start i : Nat) (acc : UInt64) : Consumes c₀ (slebFrom start i acc) := by
  fun_induction slebFrom start i acc with
  | case1 i acc below more =>
    have first := readU8_consumes c₀
    mvcgen [slebFrom, first, more]
    exact Cursor.Past.behind ‹_›
  | case2 => mvcgen [slebFrom]

theorem readUleb_consumes : Consumes c₀ readUleb := by
  have groups := ulebFrom_consumes c₀
  mvcgen [readUleb, position, groups]

theorem readSleb_consumes : Consumes c₀ readSleb := by
  have groups := slebFrom_consumes c₀
  mvcgen [readSleb, position, groups]

theorem readU32_consumes : Consumes c₀ readU32 := by
  have uleb := readUleb_consumes c₀
  mvcgen [readU32, uleb]

theorem readI32_consumes : Consumes c₀ readI32 := by
  have sleb := readSleb_consumes c₀
  mvcgen [readI32, sleb]

theorem readBytes_advances (len : Nat) : Advances c₀ (readBytes len) := by
  mvcgen [readBytes]
  rename_i c behind h
  exact ⟨behind.data, by have := behind.pos; simp; omega⟩

theorem checkCount_advances (what : String) (count : UInt64) (unwritten : Nat) :
    Advances c₀ (checkCount what count unwritten) := by
  mvcgen [checkCount]

end CursorM

theorem StringReader.readStr_consumes (c₀ : Cursor) (data : ByteArray) :
    CursorM.Consumes c₀ (StringReader.readStr data) := by
  have uleb := CursorM.readUleb_consumes c₀
  mvcgen [StringReader.readStr, StringReader.lift, uleb]

theorem StringReader.readRef_consumes (c₀ : Cursor) (data : ByteArray) :
    CursorM.Consumes c₀ (StringReader.readRef data) := by
  have uleb := CursorM.readUleb_consumes c₀
  mvcgen [StringReader.readRef, StringReader.lift, uleb]

theorem PositionReader.read_consumes (c₀ : Cursor) (last : Position.Last) (strings : ByteArray) :
    CursorM.Consumes c₀ (PositionReader.read last strings) := by
  have uleb := CursorM.readUleb_consumes c₀
  have u32 := CursorM.readU32_consumes c₀
  have str := StringReader.readStr_consumes c₀ strings
  mvcgen [PositionReader.read, uleb, u32, str]
  all_goals exact Cursor.Past.behind ‹_›

namespace ScopeInput

/-- The local slots whose record has not been read yet. -/
def unread (sc : ScopeInput) : Finset Nat :=
  (Finset.range sc.locals.size).filter fun i => sc.locals[i]? = some none

/-- How the scope of a body may change while trees are read: the local
records stay the same, and no local read so far becomes unread again. -/
structure Keeps (sc sc' : ScopeInput) : Prop where
  localData : sc'.localData = sc.localData
  size : sc'.locals.size = sc.locals.size
  unread : sc'.unread ⊆ sc.unread

namespace Keeps

variable {sc₁ sc₂ sc₃ : ScopeInput}

theorem refl (sc : ScopeInput) : sc.Keeps sc := ⟨rfl, rfl, subset_rfl⟩

theorem trans (first : sc₁.Keeps sc₂) (second : sc₂.Keeps sc₃) : sc₁.Keeps sc₃ :=
  ⟨second.localData.trans first.localData, second.size.trans first.size,
    second.unread.trans first.unread⟩

theorem rel_refl (o : Option ScopeInput) : Option.Rel Keeps o o := by
  cases o with
  | none => exact .none
  | some sc => exact .some (refl sc)

theorem rel_trans {o₁ o₂ o₃ : Option ScopeInput} (first : Option.Rel Keeps o₁ o₂)
    (second : Option.Rel Keeps o₂ o₃) : Option.Rel Keeps o₁ o₃ := by
  cases first with
  | none => exact second
  | some keeps₁ =>
    cases second with
    | some keeps₂ => exact .some (keeps₁.trans keeps₂)

/-- Marking a slot read keeps the scope. -/
theorem set (sc : ScopeInput) (slot : Nat) (id : NodeId) :
    sc.Keeps { sc with locals := sc.locals.set! slot (some id) } := by
  refine ⟨rfl, by simp, fun i member => ?_⟩
  simp only [ScopeInput.unread, Finset.mem_filter, Finset.mem_range, Array.set!_eq_setIfInBounds,
    Array.size_setIfInBounds, Array.getElem?_setIfInBounds] at member ⊢
  obtain ⟨inside, unreadNow⟩ := member
  split at unreadNow
  · split at unreadNow <;> simp at unreadNow
  · exact ⟨inside, unreadNow⟩

/-- Any change that leaves the locals alone keeps the scope. -/
theorem of_locals {sc sc' : ScopeInput} (localData : sc'.localData = sc.localData)
    (locals : sc'.locals = sc.locals) : sc.Keeps sc' :=
  ⟨localData, by rw [locals], by simp [ScopeInput.unread, locals]⟩

end Keeps

end ScopeInput

namespace TreeReader

/-- `s'` is as far along as `s`: its cursor reads the same bytes from no
earlier, and its body scope, if any, keeps `s`'s. -/
structure Moves (s s' : TreeReader) : Prop where
  cursor : s.cursor.Behind s'.cursor
  scope : Option.Rel ScopeInput.Keeps s.scope s'.scope

/-- What bounds the nesting of trees from a reader: the bytes left in its
cursor, and for every local record not read yet, room for a whole record and
two more levels. -/
def measure (s : TreeReader) : Nat :=
  s.cursor.remaining + (s.scope.map fun sc => sc.unread.card * (sc.localData.size + 2)).getD 0

namespace Moves

variable {s₁ s₂ s₃ : TreeReader}

theorem refl (s : TreeReader) : s.Moves s :=
  ⟨Cursor.Behind.refl _, ScopeInput.Keeps.rel_refl _⟩

theorem trans (first : s₁.Moves s₂) (second : s₂.Moves s₃) : s₁.Moves s₃ :=
  ⟨first.cursor.trans second.cursor, ScopeInput.Keeps.rel_trans first.scope second.scope⟩

/-- A reader whose scope stands still moves with its cursor. -/
theorem of_cursor {s s' : TreeReader} (cursor : s.cursor.Behind s'.cursor)
    (scope : s'.scope = s.scope) : s.Moves s' :=
  ⟨cursor, scope ▸ ScopeInput.Keeps.rel_refl _⟩

theorem measure_le (moves : s₁.Moves s₂) : s₂.measure ≤ s₁.measure := by
  unfold measure
  have bytes := moves.cursor.remaining_le
  have scope := moves.scope
  generalize s₁.scope = o₁ at scope ⊢
  generalize s₂.scope = o₂ at scope ⊢
  cases scope with
  | none => simpa using bytes
  | @some sc sc' keeps =>
    have fewer := Finset.card_le_card keeps.unread
    simp only [Option.map_some, Option.getD_some, keeps.localData]
    have more := Nat.mul_le_mul_right (sc.localData.size + 2) fewer
    omega

end Moves

/-- A property that every reader further along than one that has it has too. -/
def Forward (P : TreeReader → Prop) : Prop := ∀ ⦃s t : TreeReader⦄, P s → s.Moves t → P t

namespace Forward

variable {P : TreeReader → Prop}

theorem moves (s₀ : TreeReader) : Forward (s₀.Moves ·) := fun _ _ reached moves =>
  reached.trans moves

theorem measure_lt (n : Nat) : Forward (·.measure < n) := fun _ _ below moves =>
  lt_of_le_of_lt moves.measure_le below

theorem past (s₀ : TreeReader) : Forward fun s => s₀.cursor.Past s.cursor := fun _ _ past moves =>
  past.behind_trans moves.cursor

theorem remaining_lt (n : Nat) : Forward (·.cursor.remaining < n) := fun _ _ below moves =>
  lt_of_le_of_lt moves.cursor.remaining_le below

theorem scope (s₀ : TreeReader) : Forward fun s => Option.Rel ScopeInput.Keeps s₀.scope s.scope :=
  fun _ _ keeps moves => ScopeInput.Keeps.rel_trans keeps moves.scope

theorem and {Q : TreeReader → Prop} (first : Forward P) (second : Forward Q) :
    Forward fun s => P s ∧ Q s := fun _ _ both moves => ⟨first both.1 moves, second both.2 moves⟩

/-- A reader whose cursor and scope are those of one with a forward
property has it too. -/
theorem same (forward : Forward P) {s t : TreeReader} (holds : P s) (cursor : t.cursor = s.cursor)
    (scope : t.scope = s.scope) : P t :=
  forward holds (.of_cursor (cursor ▸ Cursor.Behind.refl _) scope)

end Forward

end TreeReader

namespace ReadM

/-- `P` holds after a success: the postcondition of a reader that keeps `P`,
and the invariant of its loops. -/
abbrev kept (P : TreeReader → Prop) {β : Type} :
    PostCond β (.except StreamError (.arg TreeReader .pure)) :=
  post⟨fun _ s => ⌜P s⌝, fun _ _ => ⌜True⌝⟩

/-- `x` keeps `P`: started where `P` holds, it succeeds only where `P` holds. -/
abbrev Keeps {α : Type} (P : TreeReader → Prop) (x : ReadM α) : Prop :=
  ⦃fun s => ⌜P s⌝⦄ x ⦃kept P⦄

/-- `x` only moves the reader forward: it keeps every forward property. -/
def Advances {α : Type} (x : ReadM α) : Prop :=
  ∀ P, TreeReader.Forward P → Keeps P x

theorem Keeps.run {α : Type} {P : TreeReader → Prop} {x : ReadM α} (keeps : Keeps P x)
    {s s' : TreeReader} {a : α} (start : P s) (run : x.run s = .ok a s') : P s' :=
  (triple_run keeps start run).1 a s' rfl

theorem Advances.run {α : Type} {x : ReadM α} (advances : Advances x) {s s' : TreeReader} {a : α}
    (run : x.run s = .ok a s') : s.Moves s' :=
  (advances _ (TreeReader.Forward.moves s)).run (TreeReader.Moves.refl s) run

/-- The scope fetched is the reader's own. -/
theorem scope_keeps {P : TreeReader → Prop} (what : String) :
    ⦃fun s => ⌜P s⌝⦄ scope what
    ⦃post⟨fun sc s => ⌜P s ∧ s.scope = some sc⌝, fun _ _ => ⌜True⌝⟩⦄ := by
  mvcgen [scope, fail]

section Primitives

variable {P : TreeReader → Prop} (forward : TreeReader.Forward P)
include forward

theorem onCursor_keeps {α : Type} {m : CursorM α} (advances : ∀ c₀, CursorM.Advances c₀ m) :
    Keeps P (onCursor m) := by
  rw [Keeps, triple_iff_run]
  intro s holds
  simp only [onCursor, EStateM.run]
  cases run : m s.cursor with
  | ok a c' => exact forward holds (.of_cursor (CursorM.Advances.run advances run) rfl)
  | error => trivial

theorem withCursor_keeps {α : Type} (c : Cursor) {m : ReadM α} (inner : Advances m) :
    Keeps P (withCursor c m) := by
  -- the inner reader keeps the scope moving forward, and the caller's cursor comes back
  rw [Keeps, triple_iff_run]
  intro s holds
  simp only [withCursor]
  cases run : m { s with cursor := c } with
  | ok a t =>
    have scope := (inner _ (TreeReader.Forward.scope s)).run (s := { s with cursor := c })
      (ScopeInput.Keeps.rel_refl s.scope) run
    exact forward holds ⟨Cursor.Behind.refl _, scope⟩
  | error => trivial

theorem inRecord_keeps {α : Type} {m : ReadM α} (inner : Keeps P m) : Keeps P (inRecord m) := by
  rw [Keeps, triple_iff_run] at *
  intro s holds
  have run := inner { s with pickles := {}, last := {} } (forward.same holds rfl rfl)
  simp only [inRecord]
  cases result : m { s with pickles := {}, last := {} } with
  | ok a t =>
    rw [result] at run
    exact forward.same run rfl rfl
  | error => trivial

theorem alloc_keeps (n : Node) : Keeps P (alloc n) := by
  mvcgen [alloc]
  rename_i s holds _
  exact forward.same holds rfl rfl

theorem replace_keeps (id : NodeId) (n : Node) : Keeps P (replace id n) := by
  mvcgen [replace]
  rename_i s holds _
  exact forward.same holds rfl rfl

/-- Setting a scope that keeps the current one. -/
theorem setScope_keeps (sc : ScopeInput) :
    ⦃fun s => ⌜P s ∧ ∃ old, s.scope = some old ∧ old.Keeps sc⌝⦄ setScope sc
    ⦃post⟨fun _ s => ⌜P s⌝, fun _ _ => ⌜True⌝⟩⦄ := by
  mvcgen [setScope]
  rename_i s before _
  obtain ⟨holds, old, current, keeps⟩ := before
  exact forward holds ⟨Cursor.Behind.refl _, current ▸ .some keeps⟩

end Primitives

theorem onCursor_advances {α : Type} {m : CursorM α} (advances : ∀ c₀, CursorM.Advances c₀ m) :
    Advances (onCursor m) := fun _ forward => onCursor_keeps forward advances

theorem readU8_advances : Advances (onCursor CursorM.readU8) :=
  onCursor_advances fun c₀ => (CursorM.readU8_consumes c₀).advances

theorem readUleb_advances : Advances (onCursor CursorM.readUleb) :=
  onCursor_advances fun c₀ => (CursorM.readUleb_consumes c₀).advances

theorem readSleb_advances : Advances (onCursor CursorM.readSleb) :=
  onCursor_advances fun c₀ => (CursorM.readSleb_consumes c₀).advances

theorem readU32_advances : Advances (onCursor CursorM.readU32) :=
  onCursor_advances fun c₀ => (CursorM.readU32_consumes c₀).advances

theorem readStr_advances : Advances readStr := by
  intro P forward
  have cursor := @onCursor_keeps _ forward
  mvcgen [readStr, cursor]
  exact (StringReader.readStr_consumes _ _).advances

theorem readRef_advances : Advances readRef := by
  intro P forward
  have cursor := @onCursor_keeps _ forward
  mvcgen [readRef, cursor]
  exact (StringReader.readRef_consumes _ _).advances

theorem flagWord_advances : Advances flagWord := by
  intro P forward
  have cursor := @onCursor_keeps _ forward
  mvcgen [flagWord, cursor]
  · exact (PositionReader.read_consumes _ _ _).advances
  · rename_i holds _
    exact forward.same holds rfl rfl

theorem readCount_keeps {P : TreeReader → Prop} {α : Type} (count : Nat) {item : ReadM α}
    (each : Keeps P item) : Keeps P (readCount count item) := by
  mvcgen [readCount, each]
  case inv1 => exact kept P
  all_goals grind

section Trees

variable {child : ReadM (Option NodeId)}

theorem readAll_advances (each : Advances child) : Advances (readAll child) := by
  intro P forward
  have uleb := readUleb_advances P forward
  have counted := fun count => readCount_keeps count (each P forward)
  mvcgen [readAll, uleb, counted]

theorem readPairs_advances (each : Advances child) : Advances (readPairs child) := by
  intro P forward
  have uleb := readUleb_advances P forward
  have child := each P forward
  have counted := @readCount_keeps P
  mvcgen [readPairs, uleb, counted, child]

theorem readFields_advances {ρ : Type} (each : Advances child) (fields : List (RecordField ρ))
    (base : ρ) : Advances (readFields child fields base) := by
  intro P forward
  -- one field, then the rest from the record read so far
  induction fields generalizing base with
  | nil =>
    simp only [readFields, List.foldlM_nil]
    mvcgen
  | cons f rest more =>
    simp only [readFields, List.foldlM_cons] at more ⊢
    refine Triple.bind _ _ (Q := fun _ s => ⌜P s⌝) ?_ more
    have u32 := readU32_advances P forward
    have all := readAll_advances each P forward
    have child := each P forward
    cases f <;> mvcgen [child, u32, all]

theorem requiredRef_advances : Advances requiredRef := by
  intro P forward
  have reads := readRef_advances P forward
  mvcgen [requiredRef, fail, reads]

theorem requiredStr_advances : Advances requiredStr := by
  intro P forward
  have reads := readStr_advances P forward
  mvcgen [requiredStr, fail, reads]

theorem readPayload_advances (each : Advances child) (code : TreeCode) :
    Advances (readPayload child code) := by
  intro P forward
  have uleb := readUleb_advances P forward
  have sleb := readSleb_advances P forward
  have u32 := readU32_advances P forward
  have counted := @readCount_keeps P
  have str := requiredStr_advances P forward
  have ref := requiredRef_advances P forward
  have all := readAll_advances each P forward
  have pairs := readPairs_advances each P forward
  have fields := fun {ρ : Type} (fs : List (RecordField ρ)) (base : ρ) =>
    readFields_advances (ρ := ρ) each fs base P forward
  have child := each P forward
  mvcgen [readPayload, fail, child, uleb, sleb, u32, counted, str, ref, all, pairs, fields]

theorem readNode_advances (each : Advances child) (code : TreeCode) :
    Advances (readNode child code) := by
  intro P forward
  have str := requiredStr_advances P forward
  have flags := flagWord_advances P forward
  have payload := readPayload_advances each code P forward
  have allocates := alloc_keeps forward
  have fills := replace_keeps forward
  have child := each P forward
  mvcgen [readNode, child, str, flags, payload, allocates, fills]
  -- what is left are the identifier table and the back-references, which move nothing
  all_goals exact forward.same (by assumption) (by rfl) (by rfl)

theorem readLocalFields_advances (each : Advances child) (code : TreeCode) (variant : Nat) :
    Advances (readLocalFields child code variant) := by
  intro P forward
  have sleb := readSleb_advances P forward
  have u32 := readU32_advances P forward
  have flags := flagWord_advances P forward
  have child := each P forward
  mvcgen [readLocalFields, child, sleb, u32, flags]

theorem localRef_advances (each : Advances child) (index : UInt64) :
    Advances (localRef child index) := by
  intro P forward
  have inScope := @scope_keeps P
  have setsScope := setScope_keeps forward
  have moved := @withCursor_keeps P forward
  mvcgen [localRef, fail, inScope, setsScope, moved]
  case inner =>
    -- the record is read on a cursor of its own, once its slot is marked read
    intro Q forward
    have u8 := readU8_advances Q forward
    have inScope := @scope_keeps Q
    have setsScope := setScope_keeps forward
    have allocates := alloc_keeps forward
    have fills := replace_keeps forward
    have record := @inRecord_keeps Q forward
    have fields := fun code variant => readLocalFields_advances each code variant Q forward
    mvcgen [fail, u8, inScope, setsScope, allocates, fills, record, fields]
    -- the slot is marked read, then the local's position is recorded
    all_goals
      obtain ⟨holds, current⟩ := ‹Q _ ∧ _›
      refine ⟨holds, _, current, ?_⟩
      first
        | exact ScopeInput.Keeps.set _ _ _
        | exact ScopeInput.Keeps.of_locals rfl rfl
  all_goals exact ‹P _ ∧ _›.1

end Trees

theorem labelRef_advances (index : Int64) : Advances (labelRef index) := by
  intro P forward
  have inScope := @scope_keeps P
  have setsScope := setScope_keeps forward
  mvcgen [labelRef, fail, inScope, setsScope]
  -- an unnamed label is made on first use and entered in the scope
  all_goals
    obtain ⟨holds, current⟩ := ‹P _ ∧ _›
    first
      | exact holds
      | exact forward.same holds (by rfl) (by rfl)
      | exact ⟨holds, _, current, .of_locals rfl rfl⟩

theorem ssaRef_advances (version : UInt64) : Advances (ssaRef version) := by
  intro P forward
  have inScope := @scope_keeps P
  mvcgen [ssaRef, fail, inScope]
  exact ‹P _ ∧ _›.1

/-- Every tree reader moves forward: by induction on the nesting fuel, each
level's children being read by the level below. -/
theorem readTreeWith_advances (fuel : Nat) : Advances (readTreeWith fuel) := by
  induction fuel with
  | zero =>
    intro P forward
    mvcgen [readTreeWith, fail]
  | succ fuel below =>
    intro P forward
    have u8 := readU8_advances P forward
    have uleb := readUleb_advances P forward
    have sleb := readSleb_advances P forward
    have local_ := fun index => localRef_advances below index P forward
    have label := fun index => labelRef_advances index P forward
    have ssa := fun version => ssaRef_advances version P forward
    have node := fun code => readNode_advances below code P forward
    mvcgen [readTreeWith, fail, u8, uleb, sleb, local_, label, ssa, node]

theorem readTree_advances : Advances readTree := by
  intro P forward
  have levels := fun fuel => readTreeWith_advances fuel P forward
  mvcgen [readTree, levels]

theorem readTreeRequired_advances (what : String) : Advances (readTreeRequired what) := by
  intro P forward
  have tree := readTree_advances P forward
  mvcgen [readTreeRequired, fail, tree]

/-- A cursor read that takes a byte, run on the reader's cursor anywhere
`s₀` has moved to, leaves it past `s₀`'s. -/
theorem onCursor_past {α : Type} {m : CursorM α} (consumes : ∀ c₀, CursorM.Consumes c₀ m)
    (s₀ : TreeReader) :
    ⦃fun s => ⌜s₀.Moves s⌝⦄ onCursor m ⦃kept fun s => s₀.cursor.Past s.cursor⦄ := by
  rw [triple_iff_run]
  intro s moves
  simp only [onCursor, EStateM.run]
  cases run : m s.cursor with
  | ok a c' => exact moves.cursor.past (CursorM.Consumes.run consumes run)
  | error => trivial

/-- A tree read that succeeds has taken at least one byte of its cursor, its
tag: the cursor it leaves is past the one it was given. -/
theorem readTreeWith_past (fuel : Nat) (s₀ : TreeReader) :
    ⦃fun s => ⌜s₀.Moves s⌝⦄ readTreeWith fuel ⦃kept fun s => s₀.cursor.Past s.cursor⦄ := by
  cases fuel with
  | zero => mvcgen [readTreeWith, fail]
  | succ fuel =>
    have past := TreeReader.Forward.past s₀
    unfold readTreeWith
    refine Triple.bind _ _ (onCursor_past (fun c₀ => CursorM.readU8_consumes c₀) s₀) fun tag => ?_
    have uleb := readUleb_advances _ past
    have sleb := readSleb_advances _ past
    have local_ := fun index => localRef_advances (readTreeWith_advances fuel) index _ past
    have label := fun index => labelRef_advances index _ past
    have ssa := fun version => ssaRef_advances version _ past
    have node := fun code => readNode_advances (readTreeWith_advances fuel) code _ past
    mvcgen [fail, uleb, sleb, local_, label, ssa, node]

theorem readTreeWith_consumes {fuel : Nat} {s s' : TreeReader} {a : Option NodeId}
    (run : (readTreeWith fuel).run s = .ok a s') : s.cursor.Past s'.cursor :=
  (triple_run (readTreeWith_past fuel s) (TreeReader.Moves.refl s) run).1 a s' rfl

theorem readTree_past (s₀ : TreeReader) :
    ⦃fun s => ⌜s₀.Moves s⌝⦄ readTree ⦃kept fun s => s₀.cursor.Past s.cursor⦄ := by
  have levels := fun fuel => readTreeWith_past fuel s₀
  mvcgen [readTree, levels]

theorem readTree_consumes {s s' : TreeReader} {a : Option NodeId} (run : readTree.run s = .ok a s') :
    s.cursor.Past s'.cursor :=
  (triple_run (readTree_past s) (TreeReader.Moves.refl s) run).1 a s' rfl

section Bodies

theorem readStmt_advances (tag : Nat) (prevRegion : Int32) : Advances (readStmt tag prevRegion) := by
  intro P forward
  have uleb := readUleb_advances P forward
  have sleb := readSleb_advances P forward
  have u32 := readU32_advances P forward
  have flags := flagWord_advances P forward
  have counted := @readCount_keeps P
  have tree := readTree_advances P forward
  mvcgen [readStmt, fail, uleb, sleb, u32, flags, counted, tree]

theorem readPhi_advances : Advances readPhi := by
  intro P forward
  have uleb := readUleb_advances P forward
  have u32 := readU32_advances P forward
  have counted := @readCount_keeps P
  have tree := readTree_advances P forward
  mvcgen [readPhi, uleb, u32, counted, tree]

theorem readStmts_advances (fuel : Nat) (prev : Int32) (acc : Array Stmt) :
    Advances (readStmts fuel prev acc) := by
  intro P forward
  induction fuel generalizing prev acc with
  | zero => mvcgen [readStmts]
  | succ fuel rest =>
    have u8 := readU8_advances P forward
    have stmt := fun tag prev => readStmt_advances tag prev P forward
    mvcgen [readStmts, u8, stmt, rest]

theorem readPhis_advances (fuel : Nat) (acc : Array Phi) : Advances (readPhis fuel acc) := by
  intro P forward
  induction fuel generalizing acc with
  | zero => mvcgen [readPhis]
  | succ fuel rest =>
    have u8 := readU8_advances P forward
    have phi := readPhi_advances P forward
    mvcgen [readPhis, fail, u8, phi, rest]

theorem readBlocks_advances (fuel : Nat) (g : Cfg) : Advances (readBlocks fuel g) := by
  intro P forward
  induction fuel generalizing g with
  | zero => mvcgen [readBlocks]
  | succ fuel rest =>
    have u8 := readU8_advances P forward
    have u32 := readU32_advances P forward
    have sleb := readSleb_advances P forward
    have i32 := onCursor_advances (fun c₀ => (CursorM.readI32_consumes c₀).advances) P forward
    have stmts := fun fuel prev acc => readStmts_advances fuel prev acc P forward
    have phis := fun fuel acc => readPhis_advances fuel acc P forward
    mvcgen [readBlocks, remainingFuel, fail, u8, u32, sleb, i32, stmts, phis, rest]

theorem readLocalPreamble_advances (fuel : Nat) : Advances (readLocalPreamble fuel) := by
  intro P forward
  induction fuel with
  | zero => mvcgen [readLocalPreamble]
  | succ fuel rest =>
    have uleb := readUleb_advances P forward
    have tree := readTree_advances P forward
    have inScope := @scope_keeps P
    have setsScope := setScope_keeps forward
    mvcgen [readLocalPreamble, uleb, tree, inScope, setsScope, rest]
    obtain ⟨holds, current⟩ := ‹P _ ∧ _›
    exact ⟨holds, _, current, .of_locals rfl rfl⟩

end Bodies

end ReadM

end IrStream
