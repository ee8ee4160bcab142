import Mathlib
import IrStream.Tree.Arena
import IrStream.Proofs.Link.Fixup

/-!
Identifiers in an arena are hash-consed: beside its nodes the arena keeps an
index from spellings to identifier nodes, and `Arena.identifier` trusts it,
answering the indexed node without looking at it. The index stays exact under
the calls a program image is built with (`Arena.Call`): allocating a node that
is no identifier, asking for an identifier, freeing a slot, and writing a node
that is no identifier over a slot that holds none. `Arena.HashConsed` says what
exact means: every entry names a live identifier node of its spelling, every
identifier node is the entry of its spelling, and every freed id is a slot
already allocated.

* `HashConsed.run`: each allowed call keeps the index exact, and so does every
  run of them (`Runs.hashConsed`);
* `Runs.keeps_entry`: a run that does not free an indexed node keeps its entry;
* `reachable_hashConsed`: in every arena built from the empty one, the index
  names live identifiers of their spellings, `identifier` answers a live
  identifier of the spelling asked for, the same spelling is answered with the
  same id until that id is freed, and no call hands out a freed id again.
-/

namespace IrStream

namespace Arena

/-- A slot that has been allocated and not freed. -/
def Live (a : Arena) (id : NodeId) : Prop := id.val < a.size ∧ a.isFreed id = false

/-- One call on an arena. -/
inductive Call where
  | alloc (node : Node)
  | identifier (name : String)
  | free (id : NodeId)
  | replace (id : NodeId) (node : Node)

namespace Call

/-- The arena a call leaves. -/
def run (a : Arena) : Call → Arena
  | alloc n => (a.alloc n).2
  | identifier s => (a.identifier s).2
  | free id => a.free id
  | replace id n => a.replace id n

/-- The calls that leave identifiers to `identifier`: a node allocated or
written over a slot carries no identifier, and only a slot that holds no
identifier is written over. Freeing and replacing index the slot they are
given, which fails unless it is allocated, so only allocated ids reach them. -/
def Allowed (a : Arena) : Call → Prop
  | alloc n => n.identifier? = none
  | identifier _ => True
  | free id => id.val < a.size
  | replace id n => id.val < a.size ∧ n.identifier? = none ∧ (a.node id).identifier? = none

end Call

/-- A run of allowed calls from one arena to another. -/
inductive Runs : Arena → List Call → Arena → Prop
  | nil (a : Arena) : Runs a [] a
  | cons {a b : Arena} {call : Call} {calls : List Call} (allowed : call.Allowed a)
      (rest : Runs (call.run a) calls b) : Runs a (call :: calls) b

/-- The arenas that allowed calls build from the empty one. -/
def Reachable (a : Arena) : Prop := ∃ calls, Runs {} calls a

/-- The identifier index is exact: every entry names a live identifier node of
its spelling, every identifier node is the entry of its spelling, and only
allocated ids are freed. -/
structure HashConsed (a : Arena) : Prop where
  entry_live : ∀ (s : String) (id : NodeId), a.identifiers[s]? = some id → a.Live id
  entry_spelled : ∀ (s : String) (id : NodeId), a.identifiers[s]? = some id →
    a.identifierName? id = some s
  indexed : ∀ (id : NodeId) (s : String), a.identifierName? id = some s →
    a.identifiers[s]? = some id
  freed_lt : ∀ id : NodeId, a.isFreed id = true → id.val < a.size

section Calls

variable {a : Arena} {id j : NodeId}

@[simp] theorem size_alloc (n : Node) : (a.alloc n).2.size = a.size + 1 := by
  simp [alloc, size]

@[simp] theorem alloc_id (n : Node) : (a.alloc n).1 = ⟨a.size⟩ := rfl

@[simp] theorem identifiers_alloc (n : Node) : (a.alloc n).2.identifiers = a.identifiers := rfl

@[simp] theorem isFreed_alloc (n : Node) : (a.alloc n).2.isFreed j = a.isFreed j := rfl

theorem identifierName?_alloc (n : Node) :
    (a.alloc n).2.identifierName? j =
      if j.val = a.size then n.identifier? else a.identifierName? j := by
  by_cases fresh : j.val = a.size <;>
    simp_all [identifierName?, get?, alloc, size, Array.getElem?_push]

@[simp] theorem size_free : (a.free id).size = a.size := by
  simp [free, size]

theorem identifiers_free :
    (a.free id).identifiers =
      match a.identifierName? id with
      | some s => a.identifiers.erase s
      | none => a.identifiers := rfl

@[simp] theorem size_replace (n : Node) : (a.replace id n).size = a.size := by
  simp [replace, size]

@[simp] theorem identifiers_replace (n : Node) :
    (a.replace id n).identifiers = a.identifiers := rfl

@[simp] theorem isFreed_replace (n : Node) : (a.replace id n).isFreed j = a.isFreed j := rfl

theorem identifierName?_replace {n : Node} (inside : id.val < a.size) :
    (a.replace id n).identifierName? j =
      if id = j then n.identifier? else a.identifierName? j := by
  by_cases same : id = j
  · subst same
    simp_all [identifierName?, get?, replace, size]
  · have differ : id.val ≠ j.val := fun equal => same (by cases id; cases j; simp_all)
    simp [identifierName?, get?, replace, differ, same]

/-- The identifier of a known spelling is the indexed one, and nothing changes. -/
theorem identifier_of_indexed {s : String} (found : a.identifiers[s]? = some id) :
    a.identifier s = (id, a) := by
  simp [identifier, Std.HashMap.get?_eq_getElem?, found]

@[simp] theorem isFreed_identifier (s : String) : (a.identifier s).2.isFreed j = a.isFreed j := by
  unfold identifier
  split <;> rfl

section Unindexed

/-! A new spelling gets a new identifier node in the next slot, indexed under it. -/

variable {s : String} (absent : a.identifiers[s]? = none)
include absent

theorem identifier_id_of_unindexed : (a.identifier s).1 = ⟨a.size⟩ := by
  simp [identifier, Std.HashMap.get?_eq_getElem?, absent, alloc, size]

theorem size_identifier_of_unindexed : (a.identifier s).2.size = a.size + 1 := by
  simp [identifier, Std.HashMap.get?_eq_getElem?, absent, alloc, size]

theorem identifiers_identifier_of_unindexed :
    (a.identifier s).2.identifiers = a.identifiers.insert s ⟨a.size⟩ := by
  simp [identifier, Std.HashMap.get?_eq_getElem?, absent, alloc, size]

theorem identifierName?_identifier_of_unindexed :
    (a.identifier s).2.identifierName? j =
      if j.val = a.size then some s else a.identifierName? j := by
  have named := identifierName?_alloc (a := a) (j := j)
    { Node.fresh .identifierNode with data := .identifier s }
  simp only [Node.identifier?] at named
  rw [← named]
  simp [identifier, Std.HashMap.get?_eq_getElem?, absent, identifierName?, get?]

end Unindexed

end Calls

namespace HashConsed

variable {a : Arena} {id : NodeId}

theorem empty : HashConsed {} where
  entry_live s id entry := by simp at entry
  entry_spelled s id entry := by simp at entry
  indexed id s named := by simp [identifierName?, get?] at named
  freed_lt id freed := by simp [isFreed] at freed

/-- No freed id is the next slot. -/
theorem next_live (h : a.HashConsed) : a.isFreed ⟨a.size⟩ = false := by
  cases freed : a.isFreed ⟨a.size⟩
  · rfl
  · exact absurd (h.freed_lt _ freed) (Nat.lt_irrefl _)

/-- An index entry and an identifier node of the same spelling are one slot. -/
theorem entry_eq (h : a.HashConsed) {s : String} {j : NodeId}
    (entry : a.identifiers[s]? = some id) (named : a.identifierName? j = some s) : j = id := by
  have other := h.indexed j s named
  rw [entry] at other
  exact (Option.some.inj other).symm

theorem alloc (h : a.HashConsed) {n : Node} (plain : n.identifier? = none) :
    (a.alloc n).2.HashConsed where
  entry_live s id entry := by
    obtain ⟨inside, live⟩ := h.entry_live s id entry
    exact ⟨by simp; omega, by simpa using live⟩
  entry_spelled s id entry := by
    have inside := (h.entry_live s id entry).1
    rw [identifierName?_alloc, if_neg (Nat.ne_of_lt inside)]
    exact h.entry_spelled s id entry
  indexed j s named := by
    rw [identifierName?_alloc] at named
    split at named
    · simp [plain] at named
    · exact h.indexed j s named
  freed_lt j freed := by
    have below := h.freed_lt j (by simpa using freed)
    simp; omega

theorem identifier (h : a.HashConsed) (s : String) : (a.identifier s).2.HashConsed := by
  cases found : a.identifiers[s]? with
  | some id =>
    rw [identifier_of_indexed found]
    exact h
  | none =>
    -- the new node is the only one spelled `s`, and its slot was never freed
    have grown := size_identifier_of_unindexed found
    have named := fun j => identifierName?_identifier_of_unindexed (j := j) found
    refine ⟨fun t j entry => ?_, fun t j entry => ?_, fun j t spelled => ?_, fun j freed => ?_⟩
    · rw [identifiers_identifier_of_unindexed found, Std.HashMap.getElem?_insert] at entry
      split at entry
      · cases entry
        exact ⟨by dsimp only; omega, by simpa using h.next_live⟩
      · obtain ⟨below, live⟩ := h.entry_live t j entry
        exact ⟨by omega, by simpa using live⟩
    · rw [identifiers_identifier_of_unindexed found, Std.HashMap.getElem?_insert] at entry
      rw [named]
      split at entry
      · next same =>
        cases entry
        simpa using same
      · have below := (h.entry_live t j entry).1
        rw [if_neg (Nat.ne_of_lt below)]
        exact h.entry_spelled t j entry
    · rw [named] at spelled
      rw [identifiers_identifier_of_unindexed found, Std.HashMap.getElem?_insert]
      split at spelled
      · next new =>
        cases spelled
        cases j
        simp_all
      · have entry := h.indexed j t spelled
        have differ : s ≠ t := by
          rintro rfl
          rw [found] at entry
          cases entry
        simp [differ, entry]
    · have below := h.freed_lt j (by simpa using freed)
      omega

theorem free (h : a.HashConsed) (inside : id.val < a.size) : (a.free id).HashConsed := by
  -- the freed slot's spelling, if any, leaves the index with it
  have erased : ∀ (s : String) (j : NodeId), (a.free id).identifiers[s]? = some j →
      a.identifiers[s]? = some j ∧ j ≠ id := by
    intro s j entry
    rw [identifiers_free] at entry
    split at entry
    · next t named =>
      rw [Std.HashMap.getElem?_erase] at entry
      split at entry
      · cases entry
      · next differ =>
        refine ⟨entry, fun same => ?_⟩
        subst same
        have spelled := h.entry_spelled s j entry
        rw [named] at spelled
        simp_all
    · next plain =>
      refine ⟨entry, fun same => ?_⟩
      subst same
      have spelled := h.entry_spelled s j entry
      simp_all
  refine ⟨fun s j entry => ?_, fun s j entry => ?_, fun j s named => ?_, fun j freed => ?_⟩
  · obtain ⟨old, differ⟩ := erased s j entry
    obtain ⟨below, live⟩ := h.entry_live s j old
    exact ⟨by simpa using below, by simp [isFreed_free, live, Ne.symm differ]⟩
  · obtain ⟨old, differ⟩ := erased s j entry
    rw [identifierName?_free, if_neg (Ne.symm differ)]
    exact h.entry_spelled s j old
  · rw [identifierName?_free] at named
    split at named
    · cases named
    · next differ =>
      have entry := h.indexed j s named
      rw [identifiers_free]
      split
      · next t spelled =>
        have differ' : t ≠ s := by
          rintro rfl
          exact differ (h.entry_eq (h.indexed id t spelled) named).symm
        simp [Std.HashMap.getElem?_erase, differ', entry]
      · exact entry
  · simp only [isFreed_free, Bool.or_eq_true, beq_iff_eq] at freed
    rcases freed with rfl | old
    · simpa using inside
    · simpa using h.freed_lt j old

theorem replace (h : a.HashConsed) {n : Node} (inside : id.val < a.size)
    (plain : n.identifier? = none) (overPlain : (a.node id).identifier? = none) :
    (a.replace id n).HashConsed := by
  -- the slot written over is no identifier, before and after
  have unnamed : a.identifierName? id = none := by
    have present : a.get? id = some (a.node id) := by
      simp only [size] at inside
      simp [node, get?, inside]
    simp [identifierName?, present, overPlain]
  refine ⟨fun s j entry => ?_, fun s j entry => ?_, fun j s named => ?_, fun j freed => ?_⟩
  · obtain ⟨below, live⟩ := h.entry_live s j entry
    exact ⟨by simpa using below, by simpa using live⟩
  · have spelled := h.entry_spelled s j entry
    rw [identifierName?_replace inside]
    split
    · next same => subst same; simp_all
    · exact spelled
  · rw [identifierName?_replace inside] at named
    split at named
    · simp [plain] at named
    · simpa using h.indexed j s named
  · simpa using h.freed_lt j (by simpa using freed)

/-- Every allowed call keeps the index exact. -/
theorem run (h : a.HashConsed) {call : Call} (allowed : call.Allowed a) :
    (call.run a).HashConsed := by
  cases call with
  | alloc n => exact h.alloc allowed
  | identifier s => exact h.identifier s
  | free id => exact h.free allowed
  | replace id n => exact h.replace allowed.1 allowed.2.1 allowed.2.2

end HashConsed

/-- Every run of allowed calls keeps the index exact. -/
theorem Runs.hashConsed {a b : Arena} {calls : List Call} (runs : Runs a calls b)
    (h : a.HashConsed) : b.HashConsed := by
  induction runs with
  | nil => exact h
  | cons allowed _ more => exact more (h.run allowed)

theorem Reachable.hashConsed {a : Arena} (reach : a.Reachable) : a.HashConsed := by
  obtain ⟨calls, runs⟩ := reach
  exact runs.hashConsed HashConsed.empty

/-- An allowed call other than freeing `id` keeps the entry of `id`. -/
theorem HashConsed.keeps_entry {a : Arena} (h : a.HashConsed) {call : Call}
    (allowed : call.Allowed a) {s : String} {id : NodeId}
    (entry : a.identifiers[s]? = some id) (kept : call ≠ .free id) :
    (call.run a).identifiers[s]? = some id := by
  cases call with
  | alloc n => exact entry
  | identifier t =>
    cases found : a.identifiers[t]? with
    | some _ => simpa [Call.run, identifier_of_indexed found] using entry
    | none =>
      have differ : t ≠ s := by
        rintro rfl
        rw [found] at entry
        cases entry
      simp [Call.run, identifiers_identifier_of_unindexed found, Std.HashMap.getElem?_insert, differ,
        entry]
  | free j =>
    have differ : j ≠ id := fun same => kept (by rw [same])
    simp only [Call.run, identifiers_free]
    split
    · next t named =>
      -- the freed slot is spelled `t`, so `t`'s entry is that slot and not `id`
      have other : t ≠ s := by
        rintro rfl
        exact differ (h.entry_eq entry named)
      simp [Std.HashMap.getElem?_erase, other, entry]
    · exact entry
  | replace j n => exact entry

/-- A run that never frees `id` keeps the entry of `id`. -/
theorem Runs.keeps_entry {a b : Arena} {calls : List Call} (runs : Runs a calls b)
    (h : a.HashConsed) {s : String} {id : NodeId} (entry : a.identifiers[s]? = some id)
    (kept : Call.free id ∉ calls) : b.identifiers[s]? = some id := by
  induction runs with
  | nil => exact entry
  | cons allowed _ more =>
    rw [List.mem_cons, not_or] at kept
    exact more (h.run allowed) (h.keeps_entry allowed entry (Ne.symm kept.1)) kept.2

/-- What `identifier` answers in an arena whose index is exact: a live node
spelled as asked, indexed under that spelling. -/
theorem HashConsed.identifier_live {a : Arena} (h : a.HashConsed) (s : String) :
    (a.identifier s).2.Live (a.identifier s).1 ∧
      (a.identifier s).2.identifierName? (a.identifier s).1 = some s ∧
      (a.identifier s).2.identifiers[s]? = some (a.identifier s).1 := by
  have entry : (a.identifier s).2.identifiers[s]? = some (a.identifier s).1 := by
    cases found : a.identifiers[s]? with
    | some id => simpa [identifier_of_indexed found] using found
    | none => simp [identifiers_identifier_of_unindexed found, identifier_id_of_unindexed found]
  have after := h.identifier s
  exact ⟨after.entry_live s _ entry, after.entry_spelled s _ entry, entry⟩

/-- In every arena built by allowed calls from the empty one, the identifier
index names live identifier nodes of their spellings; `identifier` answers a
live identifier of the spelling asked for; after any run of calls that does not
free it, the same spelling is answered with the same id; and neither `alloc`
nor `identifier` ever answers a freed id. -/
theorem reachable_hashConsed {a : Arena} (reach : a.Reachable) :
    (∀ s id, a.identifiers[s]? = some id → a.Live id ∧ a.identifierName? id = some s) ∧
    (∀ s, (a.identifier s).2.Live (a.identifier s).1 ∧
      (a.identifier s).2.identifierName? (a.identifier s).1 = some s) ∧
    (∀ s calls b, Runs (a.identifier s).2 calls b → Call.free (a.identifier s).1 ∉ calls →
      (b.identifier s).1 = (a.identifier s).1) ∧
    (∀ id, a.isFreed id = true → ∀ n s, (a.alloc n).1 ≠ id ∧ (a.identifier s).1 ≠ id) := by
  have h := reach.hashConsed
  refine ⟨fun s id entry => ⟨h.entry_live s id entry, h.entry_spelled s id entry⟩,
    fun s => ⟨(h.identifier_live s).1, (h.identifier_live s).2.1⟩, ?_, ?_⟩
  · intro s calls b runs kept
    have entry := runs.keeps_entry (h.identifier s) (h.identifier_live s).2.2 kept
    rw [identifier_of_indexed entry]
  · intro id freed n s
    have fresh : (a.alloc n).1 ≠ id := by
      rintro rfl
      rw [alloc_id, h.next_live] at freed
      cases freed
    refine ⟨fresh, fun same => ?_⟩
    -- an answer of `identifier` is live afterwards, and freed ids stay freed
    cases found : a.identifiers[s]? with
    | some j =>
      rw [identifier_of_indexed found] at same
      subst same
      rw [(h.entry_live s _ found).2] at freed
      cases freed
    | none =>
      rw [identifier_id_of_unindexed found] at same
      subst same
      rw [h.next_live] at freed
      cases freed


/-- An identifier asked for, a declaration allocated after it, and the
identifier freed. -/
def freedIdentifier : Arena :=
  ((({} : Arena).identifier "x").2.alloc (Node.fresh .varDecl)).2.free ⟨0⟩

theorem freedIdentifier_hashConsed :
    freedIdentifier.Reachable ∧
    (∀ s id, freedIdentifier.identifiers[s]? = some id →
      freedIdentifier.Live id ∧ freedIdentifier.identifierName? id = some s) ∧
    (∀ s, (freedIdentifier.identifier s).2.Live (freedIdentifier.identifier s).1 ∧
      (freedIdentifier.identifier s).2.identifierName? (freedIdentifier.identifier s).1 = some s) ∧
    (∀ s calls b, Runs (freedIdentifier.identifier s).2 calls b →
      Call.free (freedIdentifier.identifier s).1 ∉ calls →
      (b.identifier s).1 = (freedIdentifier.identifier s).1) ∧
    (∀ id, freedIdentifier.isFreed id = true → ∀ n s,
      (freedIdentifier.alloc n).1 ≠ id ∧ (freedIdentifier.identifier s).1 ≠ id) :=
  have unindexed : ({} : Arena).identifiers["x"]? = none := Std.HashMap.getElem?_empty
  have reach : freedIdentifier.Reachable :=
    ⟨[.identifier "x", .alloc (Node.fresh .varDecl), .free ⟨0⟩],
      .cons trivial (.cons rfl (.cons (by simp [Call.Allowed, Call.run, size_identifier_of_unindexed unindexed])
        (.nil _)))⟩
  ⟨reach, reachable_hashConsed reach⟩

end Arena

end IrStream
