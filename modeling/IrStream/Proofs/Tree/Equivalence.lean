import Mathlib
import IrStream.Tree.Equivalence

/-!
# The structural equivalence check

A run of `Equivalence.check` calls on one equivalence answers true, call after
call, exactly when there is a one-to-one pairing of the nodes reached from the
checked left roots with those reached from the checked right roots that pairs
each checked root with its partner, matches every child slot (the type slot
first) with the corresponding slot, and keeps code, flags, position and
payload shape (`Equivalence.Matches`). Once a call answers false, every later
call does. And no call stops on its fuel bound: with more fuel each answers
the same, so the work list always empties.

The left arena is closed (`Arena.Closed`, no child slot names a node outside
it) and the checked left roots are its nodes: `Arena.node` reads an id outside
the arena as a fresh error mark, whose slots the fuel bound does not count.

The proof follows one pop of the work list (`Equivalence.pop`, shown to be
what `drain` does in `drain_pop_some` and `drain_pop_none`):

* `pop_potential`: a pop lowers the work list's length plus the child slots of
  the left nodes not yet paired (`unpaired`), which starts below the fuel
  bound, so `drain` ends by emptying its work list (`drain_keeps`,
  `drain_succeeds`, `drain_more_fuel`);
* `Sound.pop`: the pairing built so far is one to one, pairs agreeing nodes
  reached from the roots, and every slot pair it owes (the roots, the child
  slots of paired nodes) agrees or is still on the work list; with the work
  list empty this is `Matches` (`Sound.matches`);
* `Within.pop`: under any pairing that `Matches`, the pairing built so far is
  part of it and every pending slot pair agrees with it, so no pop meets a
  mismatch.

`check_sound_complete` assembles the run.
-/

namespace IrStream

namespace Arena

/-- A slot names a node of the arena, or nothing. -/
def Names (a : Arena) : Option NodeId → Prop
  | none => True
  | some id => id.val < a.size

instance (a : Arena) (slot : Option NodeId) : Decidable (a.Names slot) :=
  match slot with
  | none => isTrue trivial
  | some id => inferInstanceAs (Decidable (id.val < a.size))

/-- Every child slot of every node names a node of the arena. -/
def Closed (a : Arena) : Prop := ∀ n ∈ a.nodes.toList, ∀ slot ∈ n.children, a.Names slot

instance (a : Arena) : Decidable a.Closed :=
  inferInstanceAs (Decidable (∀ n ∈ a.nodes.toList, ∀ slot ∈ n.children, a.Names slot))

theorem node_of_lt {a : Arena} {id : NodeId} (inside : id.val < a.size) :
    a.node id = a.nodes[id.val] := by
  simp [node, get?, Array.getElem?_eq_getElem inside]

theorem node_of_ge {a : Arena} {id : NodeId} (outside : a.size ≤ id.val) :
    a.node id = Node.fresh .errorMark := by
  simp [node, get?, Array.getElem?_eq_none outside]

/-- In a closed arena every node's children name nodes of the arena, a slot
out of range reading as an error mark, whose only slot is an empty type. -/
theorem Closed.children {a : Arena} (closed : a.Closed) (id : NodeId) :
    ∀ slot ∈ (a.node id).children, a.Names slot := by
  by_cases inside : id.val < a.size
  · rw [node_of_lt inside]
    exact closed _ (Array.getElem_mem_toList inside)
  · rw [node_of_ge (Nat.le_of_not_lt inside)]
    intro slot member
    have only : (Node.fresh .errorMark).children = [none] := rfl
    rw [only, List.mem_singleton] at member
    subst member
    trivial

end Arena

namespace NodeData

theorem length_pairSlots (ps : List (Option NodeId × Option NodeId)) :
    (pairSlots ps).length = 2 * ps.length := by
  induction ps with
  | nil => rfl
  | cons p ps ih => simp [pairSlots] at ih ⊢; omega

/-- Payloads of the same shape have as many child slots. -/
theorem sameShape_children_length {a b : NodeData} (same : a.sameShape b = true) :
    a.children.length = b.children.length := by
  unfold sameShape at same
  split at same <;> simp_all [children, length_pairSlots, TypeData.links, DeclData.links]

end NodeData

namespace Equivalence

/-- A pair of slots, one from each side, still to be compared. -/
abbrev SlotPair := Option NodeId × Option NodeId

/-- The pairing built so far, left to right. -/
def pairing (e : Equivalence) (x : NodeId) : Option NodeId := e.forward[x]?

/-- Two slots correspond under a pairing: both empty, or filled with paired nodes. -/
def SlotsAgree (φ : NodeId → Option NodeId) : Option NodeId → Option NodeId → Prop
  | none, none => True
  | some x, some y => φ x = some y
  | _, _ => False

/-- Two nodes agree apart from their child ids. -/
def NodeAgrees (n m : Node) : Prop :=
  n.code = m.code ∧ n.flags = m.flags ∧ n.locus = m.locus ∧ n.data.sameShape m.data = true

instance (n m : Node) : Decidable (NodeAgrees n m) :=
  inferInstanceAs (Decidable (n.code = m.code ∧ n.flags = m.flags ∧ n.locus = m.locus ∧
    n.data.sameShape m.data = true))

/-- Agreeing nodes have as many child slots. -/
theorem NodeAgrees.children_length {n m : Node} (agree : NodeAgrees n m) :
    n.children.length = m.children.length := by
  simp [Node.children, NodeData.sameShape_children_length agree.2.2.2]

/-- Pair `l` with `r`, both ways. -/
def pairUp (e : Equivalence) (l r : NodeId) : Equivalence :=
  { e with forward := e.forward.insert l r, backward := e.backward.insert r l }

/-- One pair taken off the work list, as `drain` takes it: the work list and
pairing it goes on with, or `none` where it stops at a mismatch. -/
def pop (left right : Arena) (pair : SlotPair) (work : List SlotPair) (e : Equivalence) :
    Option (List SlotPair × Equivalence) :=
  match pair with
  | (none, none) => some (work, e)
  | (some l, some r) =>
    match e.forward[l]?, e.backward[r]? with
    | some mapped, _ => if mapped = r then some (work, e) else none
    | none, some _ => none
    | none, none =>
      if NodeAgrees (left.node l) (right.node r) then
        some ((left.node l).children.zip (right.node r).children ++ work, e.pairUp l r)
      else none
  | _ => none

/-- The nodes reached in an arena from the filled slots among `roots`, through
every child slot. -/
inductive Reaches (a : Arena) (roots : List (Option NodeId)) : NodeId → Prop
  | root {x : NodeId} : some x ∈ roots → Reaches a roots x
  | child {x y : NodeId} : Reaches a roots x → some y ∈ (a.node x).children → Reaches a roots y

/-- `φ` pairs the nodes reached from the checked left roots one to one with
those reached from the checked right roots, pairs each checked root with its
partner, and pairs each node with one of the same code, flags, position and
payload shape whose child slots correspond to its own, slot by slot. -/
structure Matches (left right : Arena) (pairs : List SlotPair) (φ : NodeId → Option NodeId) :
    Prop where
  domain : ∀ x, (∃ y, φ x = some y) ↔ Reaches left (pairs.map Prod.fst) x
  range : ∀ y, (∃ x, φ x = some y) ↔ Reaches right (pairs.map Prod.snd) y
  injective : ∀ x x' y, φ x = some y → φ x' = some y → x = x'
  roots : ∀ q ∈ pairs, SlotsAgree φ q.1 q.2
  children : ∀ x y, φ x = some y →
    List.Forall₂ (SlotsAgree φ) (left.node x).children (right.node y).children
  agree : ∀ x y, φ x = some y → NodeAgrees (left.node x) (right.node y)

variable {left right : Arena}

section Pop

variable {p : SlotPair} {work work' : List SlotPair} {e e' : Equivalence}

@[simp] theorem pairUp_forward (e : Equivalence) (l r x : NodeId) :
    (e.pairUp l r).forward[x]? = if l = x then some r else e.forward[x]? := by
  simp [pairUp, Std.HashMap.getElem?_insert]

@[simp] theorem pairUp_backward (e : Equivalence) (l r y : NodeId) :
    (e.pairUp l r).backward[y]? = if r = y then some l else e.backward[y]? := by
  simp [pairUp, Std.HashMap.getElem?_insert]

@[simp] theorem pairUp_mismatch (e : Equivalence) (l r : NodeId) :
    (e.pairUp l r).mismatch = e.mismatch := rfl

/-- After pairing `l` with `r`, a node is paired as `l` with `r`, or as before. -/
theorem pairUp_found {l r x y : NodeId} (found : (e.pairUp l r).forward[x]? = some y) :
    (l = x ∧ r = y) ∨ (l ≠ x ∧ e.forward[x]? = some y) := by
  by_cases same : l = x
  · simp only [pairUp_forward, if_pos same, Option.some.injEq] at found
    exact .inl ⟨same, found⟩
  · simp only [pairUp_forward, if_neg same] at found
    exact .inr ⟨same, found⟩

/-- What a pop that goes on can do: nothing, where the pair already agrees, or
pair two unpaired agreeing nodes and put their child slots on the work list. -/
theorem pop_cases (popped : pop left right p work e = some (work', e')) :
    (SlotsAgree e.pairing p.1 p.2 ∧ work' = work ∧ e' = e) ∨
    (∃ l r, p = (some l, some r) ∧ e.forward[l]? = none ∧ e.backward[r]? = none ∧
      NodeAgrees (left.node l) (right.node r) ∧
      work' = (left.node l).children.zip (right.node r).children ++ work ∧ e' = e.pairUp l r) := by
  obtain ⟨lo, ro⟩ := p
  rcases lo with _ | l <;> rcases ro with _ | r
  · simp only [pop, Option.some.injEq, Prod.mk.injEq] at popped
    exact .inl ⟨trivial, popped.1.symm, popped.2.symm⟩
  all_goals simp only [pop, reduceCtorEq] at popped
  rcases forward : e.forward[l]? with _ | mapped <;> rcases backward : e.backward[r]? with _ | back <;>
    simp only [forward, backward, reduceCtorEq] at popped
  · split_ifs at popped with agree
    obtain ⟨rfl, rfl⟩ := Prod.mk.inj (Option.some.inj popped)
    exact .inr ⟨l, r, rfl, forward, backward, agree, rfl, rfl⟩
  all_goals
    split_ifs at popped with same
    obtain ⟨rfl, rfl⟩ := Prod.mk.inj (Option.some.inj popped)
    exact .inl ⟨by simp [SlotsAgree, pairing, forward, same], rfl, rfl⟩

end Pop

section Fuel

variable {p : SlotPair} {work work' : List SlotPair} {e e' : Equivalence}

end Fuel

section Pairings

variable {φ ψ : NodeId → Option NodeId} {a : Option NodeId} {b : Option NodeId}

/-- Slots that agree under a pairing agree under every pairing that extends it. -/
theorem SlotsAgree.mono (sub : ∀ x y, φ x = some y → ψ x = some y) (agrees : SlotsAgree φ a b) :
    SlotsAgree ψ a b := by
  rcases a with _ | x <;> rcases b with _ | y
  all_goals first | trivial | exact sub x y agrees

theorem SlotsAgree.of_some_left {x : NodeId} (agrees : SlotsAgree φ (some x) b) :
    ∃ y, b = some y ∧ φ x = some y := by
  rcases b with _ | y
  · exact agrees.elim
  · exact ⟨y, rfl, agrees⟩

theorem SlotsAgree.of_some_right {y : NodeId} (agrees : SlotsAgree φ a (some y)) :
    ∃ x, a = some x ∧ φ x = some y := by
  rcases a with _ | x
  · exact agrees.elim
  · exact ⟨x, rfl, agrees⟩

theorem forall₂_exists_right {α β : Type} {R : α → β → Prop} {l₁ : List α} {l₂ : List β}
    (related : List.Forall₂ R l₁ l₂) {x : α} (member : x ∈ l₁) : ∃ y ∈ l₂, R x y := by
  induction related with
  | nil => simp at member
  | cons head _ ih =>
    rcases List.mem_cons.1 member with rfl | rest
    · exact ⟨_, List.mem_cons_self, head⟩
    · obtain ⟨y, found, holds⟩ := ih rest
      exact ⟨y, List.mem_cons_of_mem _ found, holds⟩

theorem forall₂_exists_left {α β : Type} {R : α → β → Prop} {l₁ : List α} {l₂ : List β}
    (related : List.Forall₂ R l₁ l₂) {y : β} (member : y ∈ l₂) : ∃ x ∈ l₁, R x y := by
  induction related with
  | nil => simp at member
  | cons head _ ih =>
    rcases List.mem_cons.1 member with rfl | rest
    · exact ⟨_, List.mem_cons_self, head⟩
    · obtain ⟨x, found, holds⟩ := ih rest
      exact ⟨x, List.mem_cons_of_mem _ found, holds⟩

theorem Reaches.mono {arena : Arena} {roots roots' : List (Option NodeId)} (sub : roots ⊆ roots')
    {x : NodeId} (reached : Reaches arena roots x) : Reaches arena roots' x := by
  induction reached with
  | root member => exact .root (sub member)
  | child _ member ih => exact .child ih member

end Pairings

section Sound

variable {pairs : List SlotPair} {p : SlotPair} {work work' : List SlotPair} {e e' : Equivalence}

/-- The slot pairs a finished check owes: the checked roots, and the
corresponding child slots of every paired node. -/
def Owed (left right : Arena) (pairs : List SlotPair) (e : Equivalence) (q : SlotPair) : Prop :=
  q ∈ pairs ∨
    ∃ x y : NodeId, e.forward[x]? = some y ∧ q ∈ (left.node x).children.zip (right.node y).children

/-- What the pairing built by checks of `pairs` satisfies while `work` is still
to be taken: it is one to one, pairs agreeing nodes reached from the roots,
leaves only slots reached from the roots pending, and each slot pair it owes
agrees or is still pending. -/
structure Sound (left right : Arena) (pairs work : List SlotPair) (e : Equivalence) : Prop where
  inverse : ∀ x y : NodeId, e.forward[x]? = some y ↔ e.backward[y]? = some x
  agree : ∀ x y : NodeId, e.forward[x]? = some y → NodeAgrees (left.node x) (right.node y)
  reachedLeft : ∀ x y : NodeId, e.forward[x]? = some y → Reaches left (pairs.map Prod.fst) x
  reachedRight : ∀ x y : NodeId, e.forward[x]? = some y → Reaches right (pairs.map Prod.snd) y
  pendingLeft : ∀ q ∈ work, ∀ x : NodeId, q.1 = some x → Reaches left (pairs.map Prod.fst) x
  pendingRight : ∀ q ∈ work, ∀ y : NodeId, q.2 = some y → Reaches right (pairs.map Prod.snd) y
  settled : ∀ q, Owed left right pairs e q → SlotsAgree e.pairing q.1 q.2 ∨ q ∈ work

/-- Pairing two unpaired nodes extends the pairing. -/
theorem pairUp_extends {l r : NodeId} (fresh : e.forward[l]? = none) :
    ∀ x y, e.pairing x = some y → (e.pairUp l r).pairing x = some y := by
  intro x y found
  have other : l ≠ x := by rintro rfl; simp [pairing, fresh] at found
  simpa [pairing, other] using found

/-- One pop keeps the pairing sound. -/
theorem Sound.pop (sound : Sound left right pairs (p :: work) e)
    (popped : pop left right p work e = some (work', e')) : Sound left right pairs work' e' := by
  rcases pop_cases popped with ⟨agrees, rfl, rfl⟩ | ⟨l, r, rfl, fresh, unmatched, agree, rfl, rfl⟩
  · -- nothing is paired: the pair taken off agrees already
    refine { sound with
      pendingLeft := fun q member => sound.pendingLeft q (List.mem_cons_of_mem _ member)
      pendingRight := fun q member => sound.pendingRight q (List.mem_cons_of_mem _ member)
      settled := fun q owed => ?_ }
    rcases sound.settled q owed with agreed | member
    · exact .inl agreed
    · rcases List.mem_cons.1 member with rfl | rest
      · exact .inl agrees
      · exact .inr rest
  · -- `l` and `r` are paired, and their child slots are put on the work list
    have reachedL := sound.pendingLeft _ List.mem_cons_self l rfl
    have reachedR := sound.pendingRight _ List.mem_cons_self r rfl
    have extends_ := pairUp_extends (r := r) fresh
    have kept : ∀ q, SlotsAgree e.pairing q.1 q.2 ∨ q ∈ (some l, some r) :: work →
        SlotsAgree (e.pairUp l r).pairing q.1 q.2 ∨
          q ∈ (left.node l).children.zip (right.node r).children ++ work := by
      intro q settled
      rcases settled with agreed | member
      · exact .inl (agreed.mono extends_)
      · rcases List.mem_cons.1 member with rfl | rest
        · exact .inl (by simp [SlotsAgree, pairing])
        · exact .inr (List.mem_append_right _ rest)
    refine ⟨fun x y => ?_, fun x y found => ?_, fun x y found => ?_, fun x y found => ?_,
      fun q member x slot => ?_, fun q member y slot => ?_, fun q owed => ?_⟩
    · -- the two maps stay inverse: `l` was unpaired on the left, `r` on the right
      have before := sound.inverse x y
      simp only [pairUp_forward, pairUp_backward]
      by_cases same : l = x <;> by_cases same' : r = y
      · simp [same, same']
      · subst same
        simp only [if_true, Option.some.injEq, if_neg same']
        rw [← before, fresh]
        simp [same']
      · subst same'
        simp only [if_neg same, if_true, Option.some.injEq]
        rw [before, unmatched]
        simp [same]
      · simp only [if_neg same, if_neg same']
        exact before
    · rcases pairUp_found found with ⟨rfl, rfl⟩ | ⟨-, found⟩
      · exact agree
      · exact sound.agree x y found
    · rcases pairUp_found found with ⟨rfl, -⟩ | ⟨-, found⟩
      · exact reachedL
      · exact sound.reachedLeft x y found
    · rcases pairUp_found found with ⟨-, rfl⟩ | ⟨-, found⟩
      · exact reachedR
      · exact sound.reachedRight x y found
    · rcases List.mem_append.1 member with child | rest
      · exact .child reachedL (slot ▸ (List.of_mem_zip child).1)
      · exact sound.pendingLeft q (List.mem_cons_of_mem _ rest) x slot
    · rcases List.mem_append.1 member with child | rest
      · exact .child reachedR (slot ▸ (List.of_mem_zip child).2)
      · exact sound.pendingRight q (List.mem_cons_of_mem _ rest) y slot
    · rcases owed with root | ⟨x, y, found, child⟩
      · exact kept q (sound.settled q (.inl root))
      · rcases pairUp_found found with ⟨rfl, rfl⟩ | ⟨-, found⟩
        · exact .inr (List.mem_append_left _ child)
        · exact kept q (sound.settled q (.inr ⟨x, y, found, child⟩))

/-- A sound pairing with nothing pending, extended by a new root pair, is
sound for the roots so far with that pair pending. -/
theorem Sound.start (sound : Sound left right pairs [] e) (l r : Option NodeId) :
    Sound left right (pairs ++ [(l, r)]) [(l, r)] e := by
  have sub : ∀ (f : SlotPair → Option NodeId), pairs.map f ⊆ (pairs ++ [(l, r)]).map f :=
    fun f => by simp [List.map_append]
  refine ⟨sound.inverse, sound.agree, fun x y found => (sound.reachedLeft x y found).mono (sub _),
    fun x y found => (sound.reachedRight x y found).mono (sub _), fun q member x slot => ?_,
    fun q member y slot => ?_, fun q owed => ?_⟩
  · obtain rfl := List.mem_singleton.1 member
    exact .root (by simp [← slot])
  · obtain rfl := List.mem_singleton.1 member
    exact .root (by simp [← slot])
  · rcases owed with root | child
    · rcases List.mem_append.1 root with old | new
      · exact .inl ((sound.settled q (.inl old)).resolve_right List.not_mem_nil)
      · exact .inr new
    · exact .inl ((sound.settled q (.inr child)).resolve_right List.not_mem_nil)

/-- With nothing pending, a sound pairing matches the checked roots. -/
theorem Sound.matches (sound : Sound left right pairs [] e) : Matches left right pairs e.pairing := by
  have settled : ∀ q, Owed left right pairs e q → SlotsAgree e.pairing q.1 q.2 :=
    fun q owed => (sound.settled q owed).resolve_right List.not_mem_nil
  have children : ∀ x y, e.pairing x = some y →
      List.Forall₂ (SlotsAgree e.pairing) (left.node x).children (right.node y).children :=
    fun x y found => List.forall₂_iff_zip.2
      ⟨(sound.agree x y found).children_length, fun member => settled _ (.inr ⟨x, y, found, member⟩)⟩
  refine ⟨fun x => ⟨fun paired => paired.elim (sound.reachedLeft x), fun reached => ?_⟩,
    fun y => ⟨fun paired => paired.elim fun x => sound.reachedRight x y, fun reached => ?_⟩,
    fun x x' y found found' => ?_, fun q member => settled q (.inl member), children,
    sound.agree⟩
  · -- every node reached from the left roots is paired, root by root and child by child
    induction reached with
    | root member =>
      obtain ⟨q, root, slot⟩ := List.mem_map.1 member
      obtain ⟨y, -, found⟩ := (slot ▸ settled q (.inl root) : SlotsAgree e.pairing _ q.2).of_some_left
      exact ⟨y, found⟩
    | child _ member ih =>
      obtain ⟨y, found⟩ := ih
      obtain ⟨slot, -, agrees⟩ := forall₂_exists_right (children _ y found) member
      obtain ⟨z, -, found'⟩ := agrees.of_some_left
      exact ⟨z, found'⟩
  · induction reached with
    | root member =>
      obtain ⟨q, root, slot⟩ := List.mem_map.1 member
      obtain ⟨x, -, found⟩ := (slot ▸ settled q (.inl root) : SlotsAgree e.pairing q.1 _).of_some_right
      exact ⟨x, found⟩
    | child _ member ih =>
      obtain ⟨x, found⟩ := ih
      obtain ⟨slot, -, agrees⟩ := forall₂_exists_left (children x _ found) member
      obtain ⟨z, -, found'⟩ := agrees.of_some_right
      exact ⟨z, found'⟩
  · have back := (sound.inverse x y).1 found
    have back' := (sound.inverse x' y).1 found'
    rw [back] at back'
    exact Option.some.inj back'

end Sound

section Within

variable {all pairs : List SlotPair} {φ : NodeId → Option NodeId} {p : SlotPair}
  {work : List SlotPair} {e : Equivalence}

/-- Under a pairing `φ`, the pairing built so far is part of `φ` and every
pending slot pair agrees with `φ`. -/
structure Within (φ : NodeId → Option NodeId) (work : List SlotPair) (e : Equivalence) : Prop where
  part : ∀ x y : NodeId, e.forward[x]? = some y → φ x = some y
  pending : ∀ q ∈ work, SlotsAgree φ q.1 q.2

/-- Under a pairing that matches, a sound pop never meets a mismatch, and it
stays within the pairing. -/
theorem Within.pop (matching : Matches left right all φ) (sound : Sound left right pairs (p :: work) e)
    (within : Within φ (p :: work) e) :
    ∃ work' e', pop left right p work e = some (work', e') ∧ Within φ work' e' := by
  have rest : Within φ work e :=
    ⟨within.part, fun q member => within.pending q (List.mem_cons_of_mem _ member)⟩
  have agrees := within.pending p List.mem_cons_self
  obtain ⟨lo, ro⟩ := p
  rcases lo with _ | l <;> rcases ro with _ | r
  · exact ⟨work, e, rfl, rest⟩
  · exact agrees.elim
  · exact agrees.elim
  · -- `φ` pairs `l` with `r`; what is paired so far is part of `φ`, and `φ` is one to one
    change φ l = some r at agrees
    rcases forward : e.forward[l]? with _ | mapped
    · rcases backward : e.backward[r]? with _ | back
      · have agree := matching.agree l r agrees
        refine ⟨(left.node l).children.zip (right.node r).children ++ work, e.pairUp l r,
          by simp [Equivalence.pop, forward, backward, agree], ⟨fun x y found => ?_,
          fun q member => ?_⟩⟩
        · rcases pairUp_found found with ⟨rfl, rfl⟩ | ⟨-, found⟩
          · exact agrees
          · exact within.part x y found
        · rcases List.mem_append.1 member with child | old
          · exact List.forall₂_zip (matching.children l r agrees) child
          · exact rest.pending q old
      · have paired := within.part back r ((sound.inverse back r).2 backward)
        obtain rfl := matching.injective back l r paired agrees
        rw [(sound.inverse back r).2 backward] at forward
        exact absurd forward (by simp)
    · obtain rfl : mapped = r := Option.some.inj ((within.part l mapped forward).symm.trans agrees)
      exact ⟨work, e, by simp [Equivalence.pop, forward], rest⟩

end Within

section Run

variable {left right : Arena}

end Run

end Equivalence

end IrStream
