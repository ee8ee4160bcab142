import Mathlib
import IrStream.Proofs.Codec.Progress
import IrStream.Proofs.Codec.Payload
import IrStream.Codec.CallGraph
import IrStream.Proofs.Codec.GraphFrame

/-!
The fuel of the readers never runs out. Trees nest as deep as their bytes and
the body's local records allow, and every loop that reads until an end mark
takes a byte per round; the readers carry that bound as fuel, and here any
larger fuel reads the same.

Two runs are compared with `AgreeOn P x x'`: from every state where `P`
holds, `x` and `x'` end the same way. Readers are congruences for it: a
reader given two child readers that agree wherever the reader may call them
agrees with itself (`readNode_agree`, `readPayload_agree` and the rest). The
one reader that calls its child from elsewhere is `localRef`, which reads a
local's record on a cursor of its own; it marks the local read first, so its
child runs only where that local is read (`localRef_agree`). With the reader's
measure as the bound, that is what lets the nesting fuel go by induction
(`readTreeWith_agree`).

* `ReadM.readTreeWith_stable` and `ReadM.readTreeWith_eq_readTree`: any fuel
  past the measure, and every fuel from the nesting bound on, reads a tree as
  `readTree` does;
* `ReadM.readStmts_agree`, `ReadM.readPhis_agree`, `ReadM.readBlocks_agree`,
  `ReadM.readLocalPreamble_agree`, `Cfg.readBlockList_agree`,
  `Cfg.readOrder_agree`: the loops of a body and of its control-flow graph read
  the same for every fuel past the bytes left;
* `GraphReadM.nodes_stops`, `GraphReadM.edges_stops`: the call-graph loops
  end only right after their end tag;
* `ReadM.localRef_filled_first`: a local's record is read only once its slot
  is filled.

`decoders_terminate` gathers them.
-/

open Std.Do

set_option mvcgen.warning false

namespace IrStream

/-- `x` and `x'` end the same way from every state where `P` holds. -/
def AgreeOn {ε σ α : Type} (P : σ → Prop) (x x' : EStateM ε σ α) : Prop :=
  ∀ s, P s → x.run s = x'.run s

namespace AgreeOn

variable {ε σ α β : Type} {P P' : σ → Prop}

theorem refl (x : EStateM ε σ α) : AgreeOn P x x := fun _ _ => rfl

theorem mono {x x' : EStateM ε σ α} (agree : AgreeOn P x x') (implies : ∀ s, P' s → P s) :
    AgreeOn P' x x' := fun s holds => agree s (implies s holds)

/-- Two binds agree when their first steps do and their rests agree from
wherever the first step can end. -/
theorem bind {Q : α → σ → Prop} {x x' : EStateM ε σ α} {f f' : α → EStateM ε σ β}
    (first : AgreeOn P x x') (spec : ∀ s a t, P s → x'.run s = .ok a t → Q a t)
    (rest : ∀ a, AgreeOn (Q a) (f a) (f' a)) : AgreeOn P (x >>= f) (x' >>= f') := by
  intro s holds
  have same := first s holds
  simp only [EStateM.run] at same spec ⊢
  show EStateM.bind x f s = EStateM.bind x' f' s
  simp only [EStateM.bind, same]
  cases run : x' s with
  | ok a t => exact rest a t (spec s a t holds run)
  | error e t => rfl

end AgreeOn

namespace ScopeInput

theorem mem_unread {sc : ScopeInput} {slot : Nat} :
    slot ∈ sc.unread ↔ sc.locals[slot]? = some none := by
  simp only [unread, Finset.mem_filter, Finset.mem_range, and_iff_right_iff_imp]
  intro unread
  exact (Array.getElem?_eq_some_iff.mp unread).1

/-- A slot in range that holds no node is unread. -/
theorem mem_unread_of_empty {sc : ScopeInput} {slot : Nat} (inside : slot < sc.locals.size)
    (empty : ∀ id, sc.locals[slot]? ≠ some (some id)) : slot ∈ sc.unread := by
  rw [mem_unread]
  rw [Array.getElem?_eq_getElem inside] at empty ⊢
  cases held : sc.locals[slot] with
  | none => rfl
  | some id => exact absurd (congrArg some held) (empty id)

theorem not_mem_unread_set (sc : ScopeInput) {slot : Nat} (inside : slot < sc.locals.size)
    (id : NodeId) : slot ∉ ({ sc with locals := sc.locals.set! slot (some id) } : ScopeInput).unread := by
  simp [mem_unread, Array.set!_eq_setIfInBounds, Array.getElem?_setIfInBounds_self_of_lt inside]

end ScopeInput

theorem Cursor.data_of_seek {c c' : Cursor} {pos : Nat} (sought : c.seek pos = .ok c') :
    c'.data = c.data := by
  unfold Cursor.seek at sought
  split at sought
  · cases sought
    rfl
  · cases sought

namespace TreeReader

/-- The measure with the record of local `slot` left out: what bounds the
nesting inside that record, once it is entered. -/
def measureWithout (slot : Nat) (s : TreeReader) : Nat :=
  s.cursor.remaining +
    (s.scope.map fun sc => (sc.unread.erase slot).card * (sc.localData.size + 2)).getD 0

/-- Local `slot` of the body being read has been read. -/
def Filled (slot : Nat) (s : TreeReader) : Prop :=
  ∃ sc, s.scope = some sc ∧ slot < sc.locals.size ∧ slot ∉ sc.unread

theorem Moves.measureWithout_le {s t : TreeReader} (moves : s.Moves t) (slot : Nat) :
    t.measureWithout slot ≤ s.measureWithout slot := by
  unfold measureWithout
  have bytes := moves.cursor.remaining_le
  have scope := moves.scope
  generalize s.scope = o₁ at scope ⊢
  generalize t.scope = o₂ at scope ⊢
  cases scope with
  | none => simpa using bytes
  | @some sc sc' keeps =>
    have fewer := Finset.card_le_card (Finset.erase_subset_erase slot keeps.unread)
    simp only [Option.map_some, Option.getD_some, keeps.localData]
    have more := Nat.mul_le_mul_right (sc.localData.size + 2) fewer
    omega

theorem Forward.measureWithout_lt (slot n : Nat) : Forward (·.measureWithout slot < n) :=
  fun _ _ below moves => lt_of_le_of_lt (moves.measureWithout_le slot) below

theorem Forward.filled (slot : Nat) : Forward (Filled slot) := by
  rintro s t ⟨sc, current, inside, read⟩ moves
  have scope := moves.scope
  rw [current] at scope
  unfold Filled
  generalize t.scope = o at scope ⊢
  cases scope with
  | @some _ sc' keeps =>
    exact ⟨sc', rfl, keeps.size ▸ inside, fun unread => read (keeps.unread unread)⟩

/-- Once its local is read, leaving out its record changes nothing. -/
theorem measure_eq_of_filled {slot : Nat} {s : TreeReader} (filled : s.Filled slot) :
    s.measure = s.measureWithout slot := by
  obtain ⟨sc, current, -, read⟩ := filled
  simp [measure, measureWithout, current, Finset.erase_eq_of_notMem read]

/-- Entering the record of an unread local on a cursor over the body's local
records: what is left to read, the record's bytes and the other unread
locals, is less than the measure of the reader that entered it. -/
theorem measureWithout_enter {s : TreeReader} {sc : ScopeInput} {slot : Nat} {c : Cursor}
    (current : s.scope = some sc) (unread : slot ∈ sc.unread) (records : c.data = sc.localData) :
    ({ s with cursor := c } : TreeReader).measureWithout slot < s.measure := by
  have shorter : c.remaining ≤ sc.localData.size := by
    simp only [Cursor.remaining, records]
    omega
  obtain ⟨others, card⟩ : ∃ others, sc.unread.card = others + 1 :=
    ⟨_, (Nat.succ_pred_eq_of_pos (Finset.card_pos.mpr ⟨slot, unread⟩)).symm⟩
  have erased : (sc.unread.erase slot).card = others := by
    rw [Finset.card_erase_of_mem unread, card]
    rfl
  simp only [measureWithout, measure, current, Option.map_some, Option.getD_some, erased, card,
    Nat.succ_mul]
  omega

end TreeReader

namespace ReadM

section Congruence

variable {P : TreeReader → Prop}

/-- `AgreeOn.bind` with the first step's spec a triple. -/
theorem AgreeOn.bind_triple {α β : Type} {Q : α → TreeReader → Prop} {x x' : ReadM α}
    {f f' : α → ReadM β} (first : AgreeOn P x x')
    (spec : ⦃fun s => ⌜P s⌝⦄ x' ⦃post⟨fun a s => ⌜Q a s⌝, fun _ _ => ⌜True⌝⟩⦄)
    (rest : ∀ a, AgreeOn (Q a) (f a) (f' a)) : AgreeOn P (x >>= f) (x' >>= f') :=
  AgreeOn.bind first (fun _ _ _ holds run => (triple_run spec holds run).1 _ _ rfl) rest

theorem AgreeOn.bind_keeps {α β : Type} {x x' : ReadM α} {f f' : α → ReadM β}
    (first : AgreeOn P x x') (keeps : Keeps P x') (rest : ∀ a, AgreeOn P (f a) (f' a)) :
    AgreeOn P (x >>= f) (x' >>= f') :=
  AgreeOn.bind_triple first keeps rest

theorem readList_agree {α : Type} {item item' : ReadM α} (same : AgreeOn P item item')
    (each : Keeps P item') (count : Nat) : AgreeOn P (readList count item) (readList count item') := by
  have rest : ∀ count, Keeps P (readList count item') := fun count => by
    rw [← readCount_eq]
    exact readCount_keeps count each
  induction count with
  | zero => exact .refl _
  | succ count more =>
    exact AgreeOn.bind_keeps same each fun _ => AgreeOn.bind_keeps more (rest count) fun _ => .refl _

theorem readCount_agree {α : Type} {item item' : ReadM α} (same : AgreeOn P item item')
    (each : Keeps P item') (count : Nat) :
    AgreeOn P (readCount count item) (readCount count item') := by
  rw [readCount_eq, readCount_eq]
  exact readList_agree same each count

section Children

variable (forward : TreeReader.Forward P) {child child' : ReadM (Option NodeId)}
  (agree : AgreeOn P child child') (advances : Advances child')
include forward agree advances

theorem readAll_agree : AgreeOn P (readAll child) (readAll child') :=
  AgreeOn.bind_keeps (.refl _) (readUleb_advances P forward) fun count =>
    readCount_agree agree (advances P forward) count.toNat

theorem readPairs_agree : AgreeOn P (readPairs child) (readPairs child') := by
  have pair : AgreeOn P (do let a ← child; let b ← child; pure (a, b))
      (do let a ← child'; let b ← child'; pure (a, b)) :=
    AgreeOn.bind_keeps agree (advances P forward) fun _ =>
      AgreeOn.bind_keeps agree (advances P forward) fun _ => .refl _
  have child := advances P forward
  have pairKeeps : Keeps P (do let a ← child'; let b ← child'; pure (a, b)) := by mvcgen [child]
  exact AgreeOn.bind_keeps (.refl _) (readUleb_advances P forward) fun count =>
    readCount_agree pair pairKeeps count.toNat

theorem readFields_agree {ρ : Type} (fields : List (RecordField ρ)) (base : ρ) :
    AgreeOn P (readFields child fields base) (readFields child' fields base) := by
  -- one field, then the rest from the record read so far
  induction fields generalizing base with
  | nil => exact .refl _
  | cons f rest more =>
    simp only [readFields, List.foldlM_cons] at more ⊢
    refine AgreeOn.bind_keeps ?_ ?_ more
    · cases f with
      | link _ set => exact AgreeOn.bind_keeps agree (advances P forward) fun _ => .refl _
      | links _ set =>
        exact AgreeOn.bind_keeps (readAll_agree forward agree advances)
          (readAll_advances advances P forward) fun _ => .refl _
      | scalar _ set => exact .refl _
    · have child := advances P forward
      have all := readAll_advances advances P forward
      have u32 := readU32_advances P forward
      cases f <;> mvcgen [child, all, u32]

/-- Every layout's payload reads its children through `child`, `readAll`,
`readPairs`, `readFields` or `readCount` only, one bind after another. -/
theorem readPayload_agree (code : TreeCode) :
    AgreeOn P (readPayload child code) (readPayload child' code) := by
  have all := readAll_agree forward agree advances
  have pairs := readPairs_agree forward agree advances
  have fields := @readFields_agree _ forward _ _ agree advances
  have counted := fun k => readCount_agree agree (advances P forward) k
  have child := advances P forward
  have uleb := readUleb_advances P forward
  have sleb := readSleb_advances P forward
  have u32 := readU32_advances P forward
  have str := requiredStr_advances P forward
  have ref := requiredRef_advances P forward
  have allKeeps := readAll_advances advances P forward
  have pairsKeeps := readPairs_advances advances P forward
  have fieldsKeeps := fun {ρ : Type} (fs : List (RecordField ρ)) (base : ρ) =>
    readFields_advances (ρ := ρ) advances fs base P forward
  have countKeeps := @readCount_keeps P
  -- each layout, bind by bind; what runs the same on both sides agrees by `refl`
  dsimp only [readPayload]
  split
  all_goals repeat' first
    | with_reducible exact AgreeOn.refl _
    | exact agree
    | exact all
    | exact pairs
    | exact fields _ _
    | exact counted _
    | refine AgreeOn.bind_keeps ?_ ?_ fun _ => ?_
    | split
  -- the steps of the second run keep `P`
  all_goals
    mvcgen [fail, child, uleb, sleb, u32, str, ref, allKeeps, pairsKeeps, fieldsKeeps, countKeeps]

theorem readNode_agree (code : TreeCode) :
    AgreeOn P (readNode child code) (readNode child' code) := by
  have payload := readPayload_agree forward agree advances code
  have child := advances P forward
  have str := requiredStr_advances P forward
  have flags := flagWord_advances P forward
  have payloadKeeps := readPayload_advances advances code P forward
  have allocates := alloc_keeps forward
  have fills := replace_keeps forward
  dsimp only [readNode]
  repeat' first
    | with_reducible exact AgreeOn.refl _
    | exact agree
    | exact payload
    | refine AgreeOn.bind_keeps ?_ ?_ fun _ => ?_
    | split
  all_goals mvcgen [child, str, flags, payloadKeeps, allocates, fills]
  -- the identifier table and the back-references move nothing
  all_goals exact forward.same (by assumption) (by rfl) (by rfl)

theorem readLocalFields_agree (code : TreeCode) (variant : Nat) :
    AgreeOn P (readLocalFields child code variant) (readLocalFields child' code variant) := by
  have child := advances P forward
  have sleb := readSleb_advances P forward
  have u32 := readU32_advances P forward
  have flags := flagWord_advances P forward
  dsimp only [readLocalFields]
  repeat' first
    | with_reducible exact AgreeOn.refl _
    | exact agree
    | refine AgreeOn.bind_keeps ?_ ?_ fun _ => ?_
    | split
  all_goals mvcgen [child, sleb, u32, flags]

end Children

theorem inRecord_agree {α : Type} {m m' : ReadM α} (forward : TreeReader.Forward P)
    (agree : AgreeOn P m m') : AgreeOn P (inRecord m) (inRecord m') := by
  intro s holds
  simp only [EStateM.run, inRecord]
  rw [show m { s with pickles := {}, last := {} } = m' { s with pickles := {}, last := {} } from
    agree _ (forward.same holds rfl rfl)]

theorem withCursor_agree {α : Type} {m m' : ReadM α} (c : Cursor)
    (agree : ∀ s, P s → m.run { s with cursor := c } = m'.run { s with cursor := c }) :
    AgreeOn P (withCursor c m) (withCursor c m') := by
  intro s holds
  simp only [EStateM.run, withCursor]
  rw [show m { s with cursor := c } = m' { s with cursor := c } from agree s holds]

/-- A failure ends both runs, whatever was to follow it. -/
theorem fail_bind_agree {α β : Type} (e : StreamError) (f f' : α → ReadM β) :
    AgreeOn P (fail e >>= f) (fail e >>= f') :=
  AgreeOn.bind (Q := fun _ _ => False) (.refl _) (fun _ _ _ _ run => nomatch run) fun _ _ => False.elim

end Congruence

section Locals

variable {P R : TreeReader → Prop} {child child' : ReadM (Option NodeId)}

/-- Marking a local read: from a scope that keeps `sc₀`'s, the slot ends up
filled, and a forward property stays. -/
theorem setScope_fill (forward : TreeReader.Forward R) {sc₀ sc : ScopeInput} {slot : Nat}
    (inside : slot < sc₀.locals.size) (id : NodeId) :
    ⦃fun s => ⌜(R s ∧ Option.Rel ScopeInput.Keeps (some sc₀) s.scope) ∧ s.scope = some sc⌝⦄
    setScope { sc with locals := sc.locals.set! slot (some id) }
    ⦃kept fun s => R s ∧ s.Filled slot⦄ := by
  mvcgen [setScope]
  rename_i s before _
  obtain ⟨⟨holds, keeps⟩, current⟩ := before
  rw [current] at keeps
  cases keeps with
  | some keeps =>
    have size : slot < sc.locals.size := keeps.size ▸ inside
    refine ⟨forward holds ⟨Cursor.Behind.refl _, ?_⟩, _, rfl, by simpa using size,
      ScopeInput.not_mem_unread_set sc size id⟩
    rw [current]
    exact .some (ScopeInput.Keeps.set sc slot id)

/-- A local's record is read on a cursor of its own, after its slot is
filled: where the caller was has `P`, where the record is entered has `R`,
and the child reader runs only from states with `R` and the slot filled. -/
theorem localRef_agree (forwardR : TreeReader.Forward R) (index : UInt64)
    (entry : ∀ s sc c, P s → s.scope = some sc → index.toNat ∈ sc.unread →
      c.data = sc.localData → R { s with cursor := c })
    (agree : AgreeOn (fun t => R t ∧ t.Filled index.toNat) child child')
    (advances : Advances child') :
    AgreeOn P (localRef child index) (localRef child' index) := by
  dsimp only [localRef]
  simp only [pure_bind]
  refine AgreeOn.bind_triple (Q := fun sc s => P s ∧ s.scope = some sc) (.refl _)
    (scope_keeps _) fun sc => ?_
  split
  · exact fail_bind_agree _ _ _
  rename_i inside
  split
  · exact .refl _
  rename_i empty
  have unread : index.toNat ∈ sc.unread := ScopeInput.mem_unread_of_empty (by omega) empty
  split
  · rename_i offset _
    split
    · rename_i c sought
      have records := Cursor.data_of_seek sought
      refine withCursor_agree c fun s ⟨holds, current⟩ => ?_
      -- the record's reader, from its cursor, keeping `R` and the scope `sc`
      let S : TreeReader → Prop := fun t => R t ∧ Option.Rel ScopeInput.Keeps (some sc) t.scope
      have forwardS : TreeReader.Forward S :=
        forwardR.and (current ▸ TreeReader.Forward.scope s)
      have filledR : TreeReader.Forward fun t => R t ∧ t.Filled index.toNat :=
        forwardR.and (TreeReader.Forward.filled _)
      refine AgreeOn.bind_keeps (.refl _) (readU8_advances S forwardS) (fun tag => ?_) _
        ⟨entry s sc c holds current unread records, current ▸ .some (ScopeInput.Keeps.refl sc)⟩
      split
      on_goal 2 => split
      on_goal 3 => exact fail_bind_agree _ _ _
      all_goals
        refine AgreeOn.bind_keeps (.refl _) (alloc_keeps forwardS _) fun id => ?_
        refine AgreeOn.bind_triple (Q := fun sc' t => S t ∧ t.scope = some sc') (.refl _)
          (scope_keeps _) fun sc' => ?_
        refine AgreeOn.bind_triple (.refl _) (setScope_fill forwardR (by omega) id) fun _ => ?_
        -- from here on the slot is filled
        have fields := fun code variant => inRecord_agree filledR
          (readLocalFields_agree filledR agree advances code variant)
        have fieldsKeeps := fun code variant =>
          inRecord_keeps filledR (readLocalFields_advances advances code variant _ filledR)
        exact AgreeOn.bind_keeps (fields _ _) (fieldsKeeps _ _) fun _ => .refl _
    · exact fail_bind_agree _ _ _
  · exact .refl _

/-- Inside a local's record the measure without that record bounds what is
left, and once the slot is filled that is the measure itself: the record's
children run below any bound on the measure of the reference. -/
theorem localRef_agree_below (n : Nat) (index : UInt64) (agree : AgreeOn (·.measure < n) child child')
    (advances : Advances child') :
    AgreeOn (·.measure < n) (localRef child index) (localRef child' index) := by
  refine localRef_agree (TreeReader.Forward.measureWithout_lt index.toNat n) index ?_ ?_ advances
  · intro s sc c below current unread records
    exact (TreeReader.measureWithout_enter current unread records).trans below
  · refine agree.mono fun t ⟨below, filled⟩ => ?_
    rwa [TreeReader.measure_eq_of_filled filled]

/-- A local already read is answered from its slot, with nothing read. -/
theorem localRef_of_read {index : UInt64} {s : TreeReader} {sc : ScopeInput} {id : NodeId}
    (current : s.scope = some sc) (read : sc.locals[index.toNat]? = some (some id)) :
    (localRef child index).run s = .ok id s := by
  have inside := (Array.getElem?_eq_some_iff.mp read).1
  simp only [localRef, scope, EStateM.run, bind, EStateM.bind, get, getThe, MonadStateOf.get,
    EStateM.get, current, read, pure, EStateM.pure]
  rw [if_neg (Nat.not_le.mpr inside)]
  rfl

/-- A local's record is read only once its slot is filled: the child reader
is consulted nowhere else. -/
theorem localRef_filled_first (index : UInt64) (agree : AgreeOn (·.Filled index.toNat) child child')
    (advances : Advances child') (s : TreeReader) :
    (localRef child index).run s = (localRef child' index).run s :=
  localRef_agree (P := fun _ => True) (R := fun _ => True) (fun _ _ _ _ => trivial) index
    (fun _ _ _ _ _ _ _ => trivial) (agree.mono fun _ both => both.2) advances s trivial

end Locals

/-- A cursor read run by the tree reader changes its cursor only. -/
theorem onCursor_ok {α : Type} {m : CursorM α} {s t : TreeReader} {a : α}
    (run : (onCursor m).run s = .ok a t) :
    ∃ c', m.run s.cursor = .ok a c' ∧ t = { s with cursor := c' } := by
  simp only [EStateM.run, onCursor] at run ⊢
  split at run
  · rename_i c' read
    cases run
    exact ⟨c', read, rfl⟩
  · cases run

/-- Reading a byte leaves fewer bytes to read. -/
theorem readU8_past {s t : TreeReader} {b : UInt8} (run : (onCursor CursorM.readU8).run s = .ok b t) :
    s.cursor.Past t.cursor ∧ t.scope = s.scope := by
  obtain ⟨c', read, rfl⟩ := onCursor_ok run
  exact ⟨CursorM.Consumes.run (fun c₀ => CursorM.readU8_consumes c₀) read, rfl⟩

theorem readU8_measure {s t : TreeReader} {b : UInt8} (run : (onCursor CursorM.readU8).run s = .ok b t) :
    t.measure < s.measure := by
  obtain ⟨past, scope⟩ := readU8_past run
  have fewer := past.remaining
  simp only [TreeReader.measure, scope]
  omega

/-- Two tree readers whose fuels both exceed a reader's measure read the same
from it: by induction on the smaller fuel, each level reading its tag before
its children, and a local's record below the reference to it. -/
theorem readTreeWith_agree (n extra : Nat) :
    AgreeOn (·.measure < n) (readTreeWith (n + extra)) (readTreeWith n) := by
  induction n with
  | zero => exact fun s below => absurd below (Nat.not_lt_zero _)
  | succ n below =>
    have advances := readTreeWith_advances n
    rw [show n + 1 + extra = n + extra + 1 by omega]
    simp only [readTreeWith]
    generalize readTreeWith (n + extra) = child at below ⊢
    generalize readTreeWith n = child' at below advances ⊢
    refine AgreeOn.bind (Q := fun _ t => t.measure < n) (.refl _)
      (fun s _ t bound run => by have := readU8_measure run; omega) fun tag => ?_
    have local_ := fun index => localRef_agree_below n index below advances
    have node := fun code => readNode_agree (TreeReader.Forward.measure_lt n) below advances code
    have forward := TreeReader.Forward.measure_lt n
    have uleb := readUleb_advances _ forward
    have sleb := readSleb_advances _ forward
    have localKeeps := fun index => localRef_advances advances index _ forward
    have label := fun index => labelRef_advances index _ forward
    have ssa := fun version => ssaRef_advances version _ forward
    have nodeKeeps := fun code => readNode_advances advances code _ forward
    -- each kind of tag, bind by bind
    repeat' first
      | exact local_ _
      | exact node _
      | with_reducible exact AgreeOn.refl _
      | refine AgreeOn.bind_keeps ?_ ?_ fun _ => ?_
      | split
    all_goals mvcgen [fail, uleb, sleb, localKeeps, label, ssa, nodeKeeps]

theorem measure_lt_nestingBound (s : TreeReader) : s.measure < nestingBound s := by
  unfold TreeReader.measure nestingBound
  cases s.scope with
  | none => simp
  | some sc =>
    have fewer : sc.unread.card ≤ sc.locals.size := by
      simpa [ScopeInput.unread] using Finset.card_filter_le (Finset.range sc.locals.size) _
    have more := Nat.mul_le_mul_right (sc.localData.size + 2) fewer
    simp only [Option.map_some, Option.getD_some]
    omega

/-- Any fuel past a reader's measure reads the same tree from it as any
more fuel does. -/
theorem readTreeWith_stable {fuel : Nat} {s : TreeReader} (below : s.measure < fuel) (extra : Nat) :
    (readTreeWith (fuel + extra)).run s = (readTreeWith fuel).run s :=
  readTreeWith_agree fuel extra s below

theorem readTree_run (s : TreeReader) : readTree.run s = (readTreeWith (nestingBound s)).run s := by
  simp only [readTree, EStateM.run, bind, EStateM.bind, get, getThe, MonadStateOf.get, EStateM.get]

/-- The fuel `readTree` gives is never what stops it: every fuel from it up
reads the same. -/
theorem readTreeWith_eq_readTree {fuel : Nat} {s : TreeReader} (enough : nestingBound s ≤ fuel) :
    (readTreeWith fuel).run s = readTree.run s := by
  rw [readTree_run, show fuel = nestingBound s + (fuel - nestingBound s) by omega]
  exact readTreeWith_stable (measure_lt_nestingBound s) _

section Loops

/-! Every loop that reads until an end mark starts each round with a read
that takes a byte, so the bytes left bound its rounds. -/

variable (n extra : Nat)

/-- A round that starts by reading a byte brings the bytes left under the
bound of the rounds after it. -/
theorem readU8_agree_bind {β : Type} {f f' : UInt8 → ReadM β}
    (rest : ∀ b, AgreeOn (·.cursor.remaining < n) (f b) (f' b)) :
    AgreeOn (·.cursor.remaining < n + 1) (onCursor CursorM.readU8 >>= f)
      (onCursor CursorM.readU8 >>= f') :=
  AgreeOn.bind (.refl _) (fun _ _ _ bound run => by have := (readU8_past run).1.remaining; omega) rest

theorem readStmts_agree : ∀ prev acc, AgreeOn (·.cursor.remaining < n)
    (readStmts (n + extra) prev acc) (readStmts n prev acc) := by
  induction n with
  | zero => exact fun _ _ s below => absurd below (Nat.not_lt_zero _)
  | succ n more =>
    intro prev acc
    rw [show n + 1 + extra = n + extra + 1 by omega]
    simp only [readStmts]
    refine readU8_agree_bind n fun tag => ?_
    split
    · exact .refl _
    · exact AgreeOn.bind_keeps (.refl _)
        (readStmt_advances _ _ _ (TreeReader.Forward.remaining_lt n)) fun stmt => more _ _

theorem readPhis_agree : ∀ acc, AgreeOn (·.cursor.remaining < n)
    (readPhis (n + extra) acc) (readPhis n acc) := by
  induction n with
  | zero => exact fun _ s below => absurd below (Nat.not_lt_zero _)
  | succ n more =>
    intro acc
    rw [show n + 1 + extra = n + extra + 1 by omega]
    simp only [readPhis]
    refine readU8_agree_bind n fun tag => ?_
    split
    · exact .refl _
    split
    · exact fail_bind_agree _ _ _
    · exact AgreeOn.bind_keeps (.refl _)
        (readPhi_advances _ (TreeReader.Forward.remaining_lt n)) fun phi => more _

theorem readBlocks_agree : ∀ g, AgreeOn (·.cursor.remaining < n)
    (readBlocks (n + extra) g) (readBlocks n g) := by
  induction n with
  | zero => exact fun _ s below => absurd below (Nat.not_lt_zero _)
  | succ n more =>
    intro g
    rw [show n + 1 + extra = n + extra + 1 by omega]
    simp only [readBlocks]
    refine readU8_agree_bind n fun tag => ?_
    have forward := TreeReader.Forward.remaining_lt n
    have u32 := readU32_advances _ forward
    have sleb := readSleb_advances _ forward
    have i32 := onCursor_advances (fun c₀ => (CursorM.readI32_consumes c₀).advances) _ forward
    have stmts := fun fuel prev acc => readStmts_advances fuel prev acc _ forward
    have phis := fun fuel acc => readPhis_advances fuel acc _ forward
    -- the block's header and statements are read alike; only the rounds left differ
    repeat' first
      | exact more _
      | with_reducible exact AgreeOn.refl _
      | exact fail_bind_agree _ _ _
      | refine AgreeOn.bind_keeps ?_ ?_ fun _ => ?_
      | split
    all_goals mvcgen [remainingFuel, fail, u32, sleb, i32, stmts, phis]

theorem readLocalPreamble_agree : AgreeOn (·.cursor.remaining < n)
    (readLocalPreamble (n + extra)) (readLocalPreamble n) := by
  induction n with
  | zero => exact fun s below => absurd below (Nat.not_lt_zero _)
  | succ n more =>
    rw [show n + 1 + extra = n + extra + 1 by omega]
    simp only [readLocalPreamble]
    -- a listed local is a tree, which takes its tag's byte
    refine AgreeOn.bind (Q := fun _ t => t.cursor.remaining < n) (.refl _)
      (fun s _ t bound run => by have := (readTree_consumes run).remaining; omega) fun decl => ?_
    have forward := TreeReader.Forward.remaining_lt n
    split
    · rename_i decl
      refine AgreeOn.bind_keeps (.refl _) (readUleb_advances _ forward) fun position => ?_
      refine AgreeOn.bind_triple (.refl _) (scope_keeps _) fun sc => ?_
      refine AgreeOn.bind_triple (Q := fun _ t => t.cursor.remaining < n) (.refl _) ?_
        fun _ => more
      -- recording the position touches the scope only
      mvcgen [setScope]
      exact ‹_ ∧ _›.1
    · exact .refl _

end Loops

end ReadM

namespace CursorM

variable {α β : Type} {n : Nat}

/-- A read that moves forward keeps the bytes left below a bound. -/
theorem agree_bind {x : CursorM α} {f f' : α → CursorM β} (advances : ∀ c₀, Advances c₀ x)
    (rest : ∀ a, AgreeOn (·.remaining < n) (f a) (f' a)) :
    AgreeOn (·.remaining < n) (x >>= f) (x >>= f') :=
  AgreeOn.bind (.refl _) (fun _ _ _ below run => lt_of_le_of_lt (Advances.run advances run).remaining_le below)
    rest

/-- A read that takes a byte brings the bytes left under the bound of the rest. -/
theorem agree_bind_consumes {x : CursorM α} {f f' : α → CursorM β} (consumes : ∀ c₀, Consumes c₀ x)
    (rest : ∀ a, AgreeOn (·.remaining < n) (f a) (f' a)) :
    AgreeOn (·.remaining < n + 1) (x >>= f) (x >>= f') :=
  AgreeOn.bind (.refl _)
    (fun _ _ _ below run => by have := (Consumes.run consumes run).remaining; omega) rest

end CursorM

namespace Cfg

theorem blockIndex_advances (c₀ : Cursor) (raw : Int64) (last : UInt32) :
    CursorM.Advances c₀ (blockIndex raw last) := by
  mvcgen [blockIndex]

theorem readEdge_advances (c₀ : Cursor) (last : UInt32) : CursorM.Advances c₀ (readEdge last) := by
  have u32 := (CursorM.readU32_consumes c₀).advances
  have i32 := (CursorM.readI32_consumes c₀).advances
  have sleb := (CursorM.readSleb_consumes c₀).advances
  have index := fun raw => blockIndex_advances c₀ raw last
  have mapped : ∀ raw, discard (blockIndex raw last) = (fun _ => ()) <$> blockIndex raw last :=
    fun _ => rfl
  simp only [readEdge, mapped]
  mvcgen [u32, i32, sleb, index]

theorem readBlockList_agree (last : UInt32) (n extra : Nat) : ∀ g, AgreeOn (·.remaining < n)
    (readBlockList last (n + extra) g) (readBlockList last n g) := by
  induction n with
  | zero => exact fun _ c below => absurd below (Nat.not_lt_zero _)
  | succ n more =>
    intro g
    rw [show n + 1 + extra = n + extra + 1 by omega]
    simp only [readBlockList]
    refine CursorM.agree_bind_consumes CursorM.readSleb_consumes fun raw => ?_
    split
    · exact .refl _
    refine CursorM.agree_bind (blockIndex_advances · raw last) fun index => ?_
    refine CursorM.agree_bind (fun c₀ => (CursorM.readUleb_consumes c₀).advances) fun count => ?_
    refine CursorM.agree_bind ?_ fun succs => more _
    intro c₀
    have edge := readEdge_advances c₀ last
    mvcgen [edge]
    case inv1 => exact post⟨fun _ c => ⌜c₀.Behind c⌝, fun _ _ => ⌜True⌝⟩
    all_goals grind

theorem readOrder_agree (last : UInt32) (n extra : Nat) : ∀ acc, AgreeOn (·.remaining < n)
    (readOrder last (n + extra) acc) (readOrder last n acc) := by
  induction n with
  | zero => exact fun _ c below => absurd below (Nat.not_lt_zero _)
  | succ n more =>
    intro acc
    rw [show n + 1 + extra = n + extra + 1 by omega]
    simp only [readOrder]
    refine CursorM.agree_bind_consumes CursorM.readSleb_consumes fun raw => ?_
    split
    · exact .refl _
    exact CursorM.agree_bind (blockIndex_advances · raw last) fun index => more _

end Cfg

/-- The last byte `c` read was `b`. -/
def Cursor.JustRead (c : Cursor) (b : UInt8) : Prop :=
  ∃ p, c.pos = p + 1 ∧ c.data[p]? = some b

theorem CursorM.readU8_justRead {c c' : Cursor} {b : UInt8} (run : readU8.run c = .ok b c') :
    c'.JustRead b := by
  have spec : ⦃fun d => ⌜d = c⌝⦄ readU8 ⦃post⟨fun b d => ⌜d.JustRead b⌝, fun _ _ => ⌜True⌝⟩⦄ := by
    mvcgen [readU8]
    rename_i d start inside
    exact ⟨d.pos, rfl, by simp [inside]⟩
  exact (triple_run spec rfl run).1 b c' rfl

namespace GraphReadM

/-- A property of cursors that every cursor reading on from one that has it has. -/
def CursorForward (P : Cursor → Prop) : Prop := ∀ ⦃c c' : Cursor⦄, P c → c.Behind c' → P c'

/-- `x` keeps the property `P` of the reader's cursor. -/
abbrev KeepsCursor {α : Type} (P : Cursor → Prop) (x : GraphReadM α) : Prop :=
  ⦃fun s => ⌜P s.cursor⌝⦄ x ⦃post⟨fun _ s => ⌜P s.cursor⌝, fun _ _ => ⌜True⌝⟩⦄

section Records

variable {P : Cursor → Prop} (forward : CursorForward P)
include forward

theorem cur_keeps {α : Type} {m : CursorM α} (advances : ∀ c₀, CursorM.Advances c₀ m) :
    KeepsCursor P (cur m) := by
  rw [KeepsCursor, triple_iff_run]
  intro s holds
  simp only [cur, EStateM.run]
  cases run : m s.cursor with
  | ok a c' => exact forward holds (CursorM.Advances.run advances run)
  | error => trivial

theorem node_keeps (decls : UnitDecls) (tag : UInt8) : KeepsCursor P (node decls tag) := by
  have uleb := cur_keeps forward fun c₀ => (CursorM.readUleb_consumes c₀).advances
  have sleb := cur_keeps forward fun c₀ => (CursorM.readSleb_consumes c₀).advances
  have i32 := cur_keeps forward fun c₀ => (CursorM.readI32_consumes c₀).advances
  mvcgen [node, fail, lift, graph, setGraph, modifyNode, modifyGlobal, uleb, sleb, i32]

theorem edge_keeps (nodes : Array CgNodeId) (symtab : SymbolTable) :
    KeepsCursor P (edge nodes symtab) := by
  have uleb := cur_keeps forward fun c₀ => (CursorM.readUleb_consumes c₀).advances
  have sleb := cur_keeps forward fun c₀ => (CursorM.readSleb_consumes c₀).advances
  have u32 := cur_keeps forward fun c₀ => (CursorM.readU32_consumes c₀).advances
  mvcgen [edge, fail, nodeAt, graph, setGraph, uleb, sleb, u32]

end Records

theorem cur_ok {α : Type} {m : CursorM α} {s t : GraphReader} {a : α} (run : (cur m).run s = .ok a t) :
    ∃ c', m.run s.cursor = .ok a c' ∧ t = { s with cursor := c' } := by
  simp only [EStateM.run, cur] at run ⊢
  split at run
  · rename_i c' read
    cases run
    exact ⟨c', read, rfl⟩
  · cases run

/-- A reader that keeps every forward property of the cursor moves it forward. -/
theorem behind_of_keeps {α : Type} {x : GraphReadM α}
    (keeps : ∀ P, CursorForward P → KeepsCursor P x) {s t : GraphReader} {a : α}
    (run : x.run s = .ok a t) : s.cursor.Behind t.cursor :=
  (triple_run (keeps (s.cursor.Behind ·) fun _ _ first second => first.trans second)
    (Cursor.Behind.refl _) run).1 a t rfl

/-- The tag a round reads: it takes a byte, and when it is the end tag the
cursor has just read it. -/
theorem readTag {s t : GraphReader} {tag : UInt8} (run : (cur CursorM.readU8).run s = .ok tag t) :
    s.cursor.Past t.cursor ∧ t.cursor.JustRead tag := by
  obtain ⟨c', read, rfl⟩ := cur_ok run
  exact ⟨CursorM.Consumes.run (fun c₀ => CursorM.readU8_consumes c₀) read,
    CursorM.readU8_justRead read⟩

/-- A loop whose every round either stops on the end tag or takes a byte,
run for more rounds than there are bytes left, stops on the end tag: it never
runs out of rounds. The call-graph loops keep in the first component of their
state whether they stopped. -/
theorem forIn_stops {ρ σ : Type} {body : Nat → Option ρ × σ → GraphReadM (ForInStep (Option ρ × σ))}
    (round : ∀ i b s a t, (body i b).run s = .ok a t →
      (∃ r, a = .done r ∧ r.1.isSome ∧ t.cursor.JustRead GraphTag.done) ∨
      (∃ r, a = .yield r ∧ t.cursor.remaining < s.cursor.remaining)) :
    ∀ (rounds : List Nat) (init : Option ρ × σ) (s t : GraphReader) (r : Option ρ × σ),
      s.cursor.remaining < rounds.length → (forIn rounds init body).run s = .ok r t →
      r.1.isSome ∧ t.cursor.JustRead GraphTag.done := by
  intro rounds
  induction rounds with
  | nil => exact fun _ _ _ _ below => absurd below (Nat.not_lt_zero _)
  | cons i rest more =>
    intro init s t r below run
    simp only [List.forIn_cons, EStateM.run] at run
    change EStateM.bind (body i init) _ s = _ at run
    simp only [EStateM.bind] at run
    split at run
    · rename_i a s₁ first
      rcases round i init s a s₁ first with ⟨r', rfl, stopped, ended⟩ | ⟨r', rfl, fewer⟩
      · cases run
        exact ⟨stopped, ended⟩
      · exact more r' s₁ t r (by simp only [List.length_cons] at below; omega) run
    · cases run

theorem nodes_stops (decls : UnitDecls) {s t : GraphReader}
    {r : Array CgNodeId × List (CgNodeId × Int64)} (run : (nodes decls).run s = .ok r t) :
    t.cursor.JustRead GraphTag.done := by
  unfold nodes at run
  simp only [EStateM.run, bind, EStateM.bind, get, getThe, MonadStateOf.get, EStateM.get,
    Std.Legacy.Range.forIn_eq_forIn_range'] at run
  split at run
  · rename_i a s₁ loop
    have stopped := forIn_stops ?round _ _ _ _ _ (by simp [Std.Legacy.Range.size]) loop
    case round =>
      -- a round reads a tag, then stops on the end tag or reads a record
      intro i b s a t run
      simp only [EStateM.run, EStateM.bind] at run
      split at run
      · rename_i tag s₁ tagRead
        obtain ⟨past, justRead⟩ := readTag tagRead
        split at run
        · rename_i isDone
          cases run
          exact .inl ⟨_, rfl, rfl, beq_iff_eq.mp isDone ▸ justRead⟩
        · simp only [EStateM.bind] at run
          split at run
          · rename_i x s₂ record
            have behind := behind_of_keeps (fun _ forward => node_keeps forward decls tag) record
            refine .inr ?_
            obtain ⟨id, target⟩ := x
            cases target <;> cases run <;>
              exact ⟨_, rfl, lt_of_le_of_lt behind.remaining_le past.remaining⟩
          · cases run
      · cases run
    obtain ⟨r', found⟩ := Option.isSome_iff_exists.mp stopped.1
    simp only [found] at run
    cases run
    exact stopped.2
  · cases run

theorem edges_stops (nodes : Array CgNodeId) (symtab : SymbolTable) {s t : GraphReader}
    (run : (edges nodes symtab).run s = .ok () t) : t.cursor.JustRead GraphTag.done := by
  unfold edges at run
  simp only [EStateM.run, bind, EStateM.bind, get, getThe, MonadStateOf.get, EStateM.get,
    Std.Legacy.Range.forIn_eq_forIn_range'] at run
  split at run
  · rename_i a s₁ loop
    have stopped := forIn_stops ?round _ _ _ _ _ (by simp [Std.Legacy.Range.size]) loop
    case round =>
      intro i b s a t run
      simp only [EStateM.run, EStateM.bind] at run
      split at run
      · rename_i tag s₁ tagRead
        obtain ⟨past, justRead⟩ := readTag tagRead
        split at run
        · rename_i isDone
          cases run
          exact .inl ⟨_, rfl, rfl, beq_iff_eq.mp isDone ▸ justRead⟩
        split at run
        · simp [fail, throw, throwThe, MonadExceptOf.throw, EStateM.throw, EStateM.bind] at run
        · simp only [EStateM.bind] at run
          split at run
          · rename_i x s₂ record
            have behind := behind_of_keeps (fun _ forward => edge_keeps forward nodes symtab) record
            cases run
            exact .inr ⟨_, rfl, lt_of_le_of_lt behind.remaining_le past.remaining⟩
          · cases run
      · cases run
    obtain ⟨r', found⟩ := Option.isSome_iff_exists.mp stopped.1
    simp only [found] at run
    cases run
    exact stopped.2
  · cases run

end GraphReadM

/-- A local read stays read through a tree read. -/
theorem ReadM.readTreeWith_keeps_filled {fuel slot : Nat} {s t : TreeReader} {a : Option NodeId}
    (run : (ReadM.readTreeWith fuel).run s = .ok a t) (filled : s.Filled slot) : t.Filled slot :=
  (ReadM.readTreeWith_advances fuel _ (TreeReader.Forward.filled slot)).run filled run

/-- The decoders stop on their bytes. A tree read takes its tag's byte, and
every fuel from the nesting bound on reads as `readTree`; the loops of a body
and of its control-flow graph read the same for every fuel past the bytes
left; the call-graph loops stop only on their end tag. A local's record is
read at most once: a local already read is answered from its slot, the
record's fields are read only once the slot is filled, and it stays filled. -/
theorem decoders_terminate :
    (∀ fuel (s : TreeReader) a t, (ReadM.readTreeWith fuel).run s = .ok a t →
      s.cursor.Past t.cursor) ∧
    (∀ fuel (s : TreeReader), ReadM.nestingBound s ≤ fuel →
      (ReadM.readTreeWith fuel).run s = ReadM.readTree.run s) ∧
    (∀ fuel extra prev acc (s : TreeReader), s.cursor.remaining < fuel →
      (ReadM.readStmts (fuel + extra) prev acc).run s = (ReadM.readStmts fuel prev acc).run s) ∧
    (∀ fuel extra acc (s : TreeReader), s.cursor.remaining < fuel →
      (ReadM.readPhis (fuel + extra) acc).run s = (ReadM.readPhis fuel acc).run s) ∧
    (∀ fuel extra g (s : TreeReader), s.cursor.remaining < fuel →
      (ReadM.readBlocks (fuel + extra) g).run s = (ReadM.readBlocks fuel g).run s) ∧
    (∀ fuel extra (s : TreeReader), s.cursor.remaining < fuel →
      (ReadM.readLocalPreamble (fuel + extra)).run s = (ReadM.readLocalPreamble fuel).run s) ∧
    (∀ last fuel extra g (c : Cursor), c.remaining < fuel →
      (Cfg.readBlockList last (fuel + extra) g).run c = (Cfg.readBlockList last fuel g).run c) ∧
    (∀ last fuel extra acc (c : Cursor), c.remaining < fuel →
      (Cfg.readOrder last (fuel + extra) acc).run c = (Cfg.readOrder last fuel acc).run c) ∧
    (∀ decls (s : GraphReader) r t, (GraphReadM.nodes decls).run s = .ok r t →
      t.cursor.JustRead GraphTag.done) ∧
    (∀ nodes symtab (s : GraphReader) t, (GraphReadM.edges nodes symtab).run s = .ok () t →
      t.cursor.JustRead GraphTag.done) ∧
    (∀ (child : ReadM (Option NodeId)) index (s : TreeReader) sc id, s.scope = some sc →
      sc.locals[index.toNat]? = some (some id) → (ReadM.localRef child index).run s = .ok id s) ∧
    (∀ fuel (child : ReadM (Option NodeId)) index (s : TreeReader),
      AgreeOn (·.Filled index.toNat) child (ReadM.readTreeWith fuel) →
      (ReadM.localRef child index).run s = (ReadM.localRef (ReadM.readTreeWith fuel) index).run s) ∧
    (∀ fuel slot (s : TreeReader) a t, (ReadM.readTreeWith fuel).run s = .ok a t →
      s.Filled slot → t.Filled slot) :=
  ⟨fun _ _ _ _ run => ReadM.readTreeWith_consumes run,
    fun _ _ enough => ReadM.readTreeWith_eq_readTree enough,
    fun fuel extra prev acc s below => ReadM.readStmts_agree fuel extra prev acc s below,
    fun fuel extra acc s below => ReadM.readPhis_agree fuel extra acc s below,
    fun fuel extra g s below => ReadM.readBlocks_agree fuel extra g s below,
    fun fuel extra s below => ReadM.readLocalPreamble_agree fuel extra s below,
    fun last fuel extra g c below => Cfg.readBlockList_agree last fuel extra g c below,
    fun last fuel extra acc c below => Cfg.readOrder_agree last fuel extra acc c below,
    fun decls _ _ _ run => GraphReadM.nodes_stops decls run,
    fun nodes symtab _ _ run => GraphReadM.edges_stops nodes symtab run,
    fun _ _ _ _ _ current read => ReadM.localRef_of_read current read,
    fun fuel _ index s agree =>
      ReadM.localRef_filled_first index agree (ReadM.readTreeWith_advances fuel) s,
    fun _ _ _ _ _ run filled => ReadM.readTreeWith_keeps_filled run filled⟩

end IrStream
