import Mathlib
import IrStream.Body.Eh

/-!
The tables of exception-handling regions that a function body builds: regions
added one at a time, each under an existing outer region or at the top level,
and aliases of existing regions (`EhTable.Reachable`).

A region added under `outer` goes to the head of `outer`'s inner chain, or of
the root chain, with the old head as its next peer. So the head of every chain
is the latest region added under its outer region, and the next peer of a
region is the latest one added under the same outer region before it
(`EhTable.Linked`). The whole forest follows from that one local fact: every
region is reached from the root by exactly one walk along inner and next-peer
links (`Linked.follow_injective`, `Linked.follow_complete`), and the chain a
region lies in is its outer region's (`Linked.inChainOf_iff`).

The numbers are kept apart (`EhTable.Numbered`): each region's number is the
32-bit form of the first slot naming it, those slots increase with the region
ids, every alias number is a slot naming its region, and the last number is
that of the last slot. With the links this is what `EhTable.verify` checks
(`WellFormed.verify_eq_ok`).
-/

namespace IrStream

namespace EhTable

/-- One call that builds a table: a region under an existing outer region or at
the top level, whose kind links only existing regions; or an alias of an
existing region. -/
inductive Step : EhTable → EhTable → Prop
  | addRegion (t : EhTable) (kind : EhKind) (outer : Option RegionId)
      (outerLive : ∀ p ∈ outer, p.val < t.regions.length)
      (kindLive : ∀ l ∈ kind.links, t.inRange l = true) :
      Step t (t.addRegion kind outer).2
  | addAlias (t : EhTable) (target : RegionId) (live : target.val < t.regions.length) :
      Step t (t.addAlias target).2

/-- The tables built from the empty one. -/
def Reachable (t : EhTable) : Prop := Relation.ReflTransGen Step {} t

/-- The head of the chain of regions directly under `outer`: the root chain's
for `none`. -/
def chainHead (t : EhTable) : Option RegionId → Option RegionId
  | some p => (t.region? p).bind (·.inner)
  | none => t.root

/-- The region `addRegion` appends: it takes the next number and is chained
before the head of its outer region's chain. -/
def newRegion (t : EhTable) (kind : EhKind) (outer : Option RegionId) : EhRegion :=
  { number := t.slots.length.toUInt32, kind, outer, nextPeer := t.chainHead outer }

/-- The outer link of the region at position `i`, if there is a region there. -/
def outerAt? (t : EhTable) (i : Nat) : Option (Option RegionId) := t.regions[i]?.map (·.outer)

/-- The latest region below position `bound` whose outer link is `parent`. -/
def latestUnder (t : EhTable) (parent : Option RegionId) : Nat → Option RegionId
  | 0 => none
  | k + 1 => if t.outerAt? k = some parent then some ⟨k⟩ else t.latestUnder parent k

/-- The slot of a region's own number: the first slot naming it. -/
def home (t : EhTable) (id : RegionId) : Nat := t.slots.idxOf (some id)

/-- A move along the forest: to the head of a region's inner chain, or to its
next peer. -/
inductive Move where
  | inner
  | next
  deriving DecidableEq, Repr

/-- The region a move leads to from region `id`. -/
def link (t : EhTable) (id : RegionId) : Move → Option RegionId
  | .inner => (t.region? id).bind (·.inner)
  | .next => (t.region? id).bind (·.nextPeer)

/-- Where the moves lead from `start`, taken in order. -/
def walk (t : EhTable) (start : Option RegionId) : List Move → Option RegionId
  | [] => start
  | m :: ms => t.walk (start.bind fun id => t.link id m) ms

/-- The region the moves lead to from the root. -/
def follow (t : EhTable) (path : List Move) : Option RegionId := t.walk t.root path

/-- Region `id` lies in the chain of regions directly under `parent`: the root
chain for `none`. -/
def InChainOf (t : EhTable) (parent : Option RegionId) (id : RegionId) : Prop :=
  ∃ k, t.walk (t.chainHead parent) (List.replicate k .next) = some id

variable {t t' : EhTable} {kind : EhKind} {outer parent : Option RegionId} {j bound : Nat}

/-! ### What the two calls change -/

section Calls

variable (t kind outer)

theorem getElem?_regions_addRegion (j : Nat) :
    (t.addRegion kind outer).2.regions[j]? =
      if j < t.regions.length then
        t.regions[j]?.map fun r =>
          if outer = some ⟨j⟩ then { r with inner := some ⟨t.regions.length⟩ } else r
      else if j = t.regions.length then some (t.newRegion kind outer) else none := by
  cases outer with
  | none =>
    simp only [addRegion, reduceCtorEq, if_false, Option.map_id']
    split_ifs with below fresh
    · exact List.getElem?_append_left below
    · subst fresh
      simp [newRegion, chainHead]
    · exact List.getElem?_eq_none (by simp; omega)
  | some p =>
    obtain ⟨p⟩ := p
    simp only [addRegion, modifyRegion, Option.some.injEq, RegionId.mk.injEq]
    by_cases below : j < t.regions.length
    · rw [if_pos below, List.getElem?_append_left (by simpa using below), List.getElem?_modify]
      simp [eq_comm]
    · by_cases fresh : j = t.regions.length
      · subst fresh
        simp [newRegion, chainHead]
      · rw [if_neg below, if_neg fresh]
        exact List.getElem?_eq_none (by simp; omega)

@[simp] theorem length_regions_addRegion :
    (t.addRegion kind outer).2.regions.length = t.regions.length + 1 := by
  cases outer <;> simp [addRegion, modifyRegion]

@[simp] theorem id_addRegion : (t.addRegion kind outer).1 = ⟨t.regions.length⟩ := by
  cases outer <;> rfl

@[simp] theorem root_addRegion :
    (t.addRegion kind outer).2.root = if outer = none then some ⟨t.regions.length⟩ else t.root := by
  cases outer <;> simp [addRegion, modifyRegion]

@[simp] theorem lastRegionNumber_addRegion :
    (t.addRegion kind outer).2.lastRegionNumber = t.slots.length.toUInt32 := by
  cases outer <;> simp [addRegion, modifyRegion]

variable (target : RegionId)

theorem getElem?_regions_addAlias (j : Nat) :
    (t.addAlias target).2.regions[j]? = t.regions[j]?.map fun r =>
      if target.val = j then { r with aka := insertAscending t.slots.length.toUInt32 r.aka } else r := by
  simp [addAlias, modifyRegion, List.getElem?_modify]

@[simp] theorem length_regions_addAlias :
    (t.addAlias target).2.regions.length = t.regions.length := by
  simp [addAlias, modifyRegion]

@[simp] theorem slots_addAlias : (t.addAlias target).2.slots = t.slots ++ [some target] := rfl

@[simp] theorem root_addAlias : (t.addAlias target).2.root = t.root := rfl

@[simp] theorem lastRegionNumber_addAlias :
    (t.addAlias target).2.lastRegionNumber = t.slots.length.toUInt32 := rfl

end Calls

variable {target : RegionId} {r : EhRegion}

/-- A region of the table after `addRegion`: an old one, its inner link moved
to the new region if it is the new region's outer one, or the new region. -/
theorem regions_addRegion_cases (found : (t.addRegion kind outer).2.regions[j]? = some r) :
    (∃ r₀, t.regions[j]? = some r₀ ∧ j < t.regions.length ∧
      r = if outer = some ⟨j⟩ then { r₀ with inner := some ⟨t.regions.length⟩ } else r₀) ∨
    (j = t.regions.length ∧ r = t.newRegion kind outer) := by
  rw [getElem?_regions_addRegion] at found
  by_cases below : j < t.regions.length
  · rw [if_pos below] at found
    obtain ⟨r₀, found₀, rfl⟩ := Option.map_eq_some_iff.mp found
    exact .inl ⟨r₀, found₀, below, rfl⟩
  · rw [if_neg below] at found
    by_cases fresh : j = t.regions.length
    · rw [if_pos fresh] at found
      exact .inr ⟨fresh, (Option.some.inj found).symm⟩
    · simp [fresh] at found

/-- A region of the table after `addAlias`: an old one, with the alias added
to its numbers if it is the target. -/
theorem regions_addAlias_cases (found : (t.addAlias target).2.regions[j]? = some r) :
    ∃ r₀, t.regions[j]? = some r₀ ∧
      r = if target.val = j then { r₀ with aka := insertAscending t.slots.length.toUInt32 r₀.aka }
        else r₀ := by
  rw [getElem?_regions_addAlias] at found
  obtain ⟨r₀, found₀, rfl⟩ := Option.map_eq_some_iff.mp found
  exact ⟨r₀, found₀, rfl⟩

/-- An old region after `addRegion`: the same but for its inner link. -/
theorem getElem?_regions_addRegion_old (found : t.regions[j]? = some r) :
    (t.addRegion kind outer).2.regions[j]? =
      some (if outer = some ⟨j⟩ then { r with inner := some ⟨t.regions.length⟩ } else r) := by
  rw [getElem?_regions_addRegion, if_pos (List.getElem?_eq_some_iff.mp found).1, found]
  rfl

theorem getElem?_regions_addRegion_new :
    (t.addRegion kind outer).2.regions[t.regions.length]? = some (t.newRegion kind outer) := by
  rw [getElem?_regions_addRegion, if_neg (lt_irrefl _), if_pos rfl]

/-- An old region after `addAlias`: the same but for its aliases. -/
theorem getElem?_regions_addAlias_old (found : t.regions[j]? = some r) :
    (t.addAlias target).2.regions[j]? = some (if target.val = j then
      { r with aka := insertAscending t.slots.length.toUInt32 r.aka } else r) := by
  rw [getElem?_regions_addAlias, found]
  rfl

/-- A lookup kept when entries are appended. -/
theorem getElem?_append_of_eq_some {α : Type} {l m : List α} {k : Nat} {b : α}
    (found : l[k]? = some b) : (l ++ m)[k]? = some b := by
  rw [List.getElem?_append_left (List.getElem?_eq_some_iff.mp found).1, found]

/-- A lookup after one entry is appended: an old entry, or the new last one. -/
theorem getElem?_append_singleton_eq_some {α : Type} {l : List α} {a b : α} {k : Nat}
    (found : (l ++ [a])[k]? = some b) : l[k]? = some b ∨ k = l.length ∧ a = b := by
  rw [List.getElem?_append] at found
  split_ifs at found with old
  · exact .inl found
  · have last : k - l.length = 0 := by
      have := (List.getElem?_eq_some_iff.mp found).1
      simp at this
      omega
    rw [last] at found
    exact .inr ⟨by omega, by simpa using found⟩

/-! ### The latest region under an outer region -/

theorem latestUnder_eq_some {c : RegionId} :
    t.latestUnder parent bound = some c ↔
      c.val < bound ∧ t.outerAt? c.val = some parent ∧
        ∀ i, c.val < i → i < bound → t.outerAt? i ≠ some parent := by
  induction bound with
  | zero => simp [latestUnder]
  | succ k ih =>
    simp only [latestUnder]
    split_ifs with here
    · -- region `k` is under `parent`, so it is the latest one
      constructor
      · rintro ⟨⟩
        exact ⟨by simp, here, fun i above below => by simp at above; omega⟩
      · rintro ⟨below, own, noneAbove⟩
        have : c.val = k := by
          by_contra other
          exact noneAbove k (by omega) (by omega) here
        cases c
        simp_all
    · rw [ih]
      constructor
      · rintro ⟨below, own, noneAbove⟩
        refine ⟨by omega, own, fun i above below' => ?_⟩
        rcases Nat.lt_succ_iff_lt_or_eq.mp below' with lower | rfl
        · exact noneAbove i above lower
        · exact here
      · rintro ⟨below, own, noneAbove⟩
        have : c.val ≠ k := fun same => here (same ▸ own)
        exact ⟨by omega, own, fun i above below' => noneAbove i above (by omega)⟩

theorem latestUnder_eq_none :
    t.latestUnder parent bound = none ↔ ∀ i < bound, t.outerAt? i ≠ some parent := by
  induction bound with
  | zero => simp [latestUnder]
  | succ k ih =>
    simp only [latestUnder]
    split_ifs with here
    · simpa using ⟨k, by omega, here⟩
    · rw [ih]
      constructor
      · intro none i below
        rcases Nat.lt_succ_iff_lt_or_eq.mp below with lower | rfl
        · exact none i lower
        · exact here
      · exact fun none i below => none i (by omega)

/-- Every region under `parent` below the bound is no later than the latest. -/
theorem le_of_latestUnder {c : RegionId} (latest : t.latestUnder parent bound = some c) {i : Nat}
    (below : i < bound) (own : t.outerAt? i = some parent) : i ≤ c.val := by
  obtain ⟨-, -, noneAbove⟩ := latestUnder_eq_some.mp latest
  by_contra later
  exact noneAbove i (by omega) below own

/-- The latest region under `parent` is read off the outer links below the
bound only. -/
theorem latestUnder_congr (same : ∀ i < bound, t'.outerAt? i = t.outerAt? i) :
    t'.latestUnder parent bound = t.latestUnder parent bound := by
  induction bound with
  | zero => rfl
  | succ k ih =>
    simp only [latestUnder, same k (by omega), ih fun i below => same i (by omega)]

/-- A region under some outer region exists. -/
theorem lt_of_outerAt? {i : Nat} {g : Option RegionId} (own : t.outerAt? i = some g) :
    i < t.regions.length := by
  simp only [outerAt?, Option.map_eq_some_iff] at own
  obtain ⟨r, found, -⟩ := own
  exact (List.getElem?_eq_some_iff.mp found).1

/-- A region reached by a next-peer link is not the latest under its outer
region in the whole table: the region the link comes from is later. -/
theorem not_latest_of_next {g g₀ : Option RegionId} {x y : RegionId}
    (latest : t.latestUnder g₀ t.regions.length = some y) (own : t.outerAt? x.val = some g)
    (next : t.latestUnder g x.val = some y) : False := by
  obtain ⟨below, yOwn, -⟩ := latestUnder_eq_some.mp next
  obtain ⟨-, yOwn₀, noneAbove⟩ := latestUnder_eq_some.mp latest
  obtain rfl : g = g₀ := Option.some.inj (yOwn.symm.trans yOwn₀)
  exact noneAbove x.val below (lt_of_outerAt? own) own

/-! ### Walks -/

@[simp] theorem walk_none (path : List Move) : t.walk none path = none := by
  induction path with
  | nil => rfl
  | cons m rest ih => exact ih

theorem walk_append (start : Option RegionId) (first rest : List Move) :
    t.walk start (first ++ rest) = t.walk (t.walk start first) rest := by
  induction first generalizing start with
  | nil => rfl
  | cons m first ih => exact ih _

theorem walk_concat (start : Option RegionId) (path : List Move) (m : Move) :
    t.walk start (path ++ [m]) = (t.walk start path).bind fun id => t.link id m := by
  rw [walk_append]
  rfl

/-! ### The links of the forest -/

/-- The links as `addRegion` leaves them: the root and each region's inner
link point at the latest region added under them, each next peer at the latest
region added under the same outer region before it, and each outer region was
added before the regions under it. -/
structure Linked (t : EhTable) : Prop where
  root : t.root = t.latestUnder none t.regions.length
  inner : ∀ (j : Nat) (r : EhRegion), t.regions[j]? = some r →
    r.inner = t.latestUnder (some ⟨j⟩) t.regions.length
  nextPeer : ∀ (j : Nat) (r : EhRegion), t.regions[j]? = some r →
    r.nextPeer = t.latestUnder r.outer j
  outer_lt : ∀ (j : Nat) (r : EhRegion) (p : RegionId), t.regions[j]? = some r →
    r.outer = some p → p.val < j

theorem empty_linked : ({} : EhTable).Linked where
  root := rfl
  inner _ _ found := by simp at found
  nextPeer _ _ found := by simp at found
  outer_lt _ _ _ found := by simp at found

namespace Linked

/-- No region lies under a region that is not in the table. -/
theorem latestUnder_dead (linked : t.Linked) {p : RegionId} (dead : t.regions.length ≤ p.val) :
    t.latestUnder (some p) bound = none := by
  refine latestUnder_eq_none.mpr fun i _ own => ?_
  simp only [outerAt?, Option.map_eq_some_iff] at own
  obtain ⟨r, found, under⟩ := own
  have := linked.outer_lt i r p found under
  have := (List.getElem?_eq_some_iff.mp found).1
  omega

theorem link_inner (linked : t.Linked) (x : RegionId) :
    t.link x .inner = t.latestUnder (some x) t.regions.length := by
  simp only [link, region?]
  cases found : t.regions[x.val]? with
  | none => exact (linked.latestUnder_dead (List.getElem?_eq_none_iff.mp found)).symm
  | some r => exact linked.inner x.val r found

theorem link_next (linked : t.Linked) (x : RegionId) :
    t.link x .next = (t.outerAt? x.val).bind fun g => t.latestUnder g x.val := by
  simp only [link, region?, outerAt?]
  cases found : t.regions[x.val]? with
  | none => rfl
  | some r => exact linked.nextPeer x.val r found

theorem chainHead_eq (linked : t.Linked) (outer : Option RegionId) :
    t.chainHead outer = t.latestUnder outer t.regions.length := by
  cases outer with
  | none => exact linked.root
  | some p => exact linked.link_inner p

theorem addRegion (linked : t.Linked) (outerLive : ∀ p ∈ outer, p.val < t.regions.length) :
    (t.addRegion kind outer).2.Linked := by
  -- the outer links are the old ones, and the new region's after them
  have outerAt : ∀ i, (t.addRegion kind outer).2.outerAt? i =
      if i < t.regions.length then t.outerAt? i
      else if i = t.regions.length then some outer else none := by
    intro i
    simp only [outerAt?, getElem?_regions_addRegion]
    split_ifs <;> simp_all [newRegion]
  have old : ∀ g, ∀ k ≤ t.regions.length,
      (t.addRegion kind outer).2.latestUnder g k = t.latestUnder g k :=
    fun g k small => latestUnder_congr fun i below => by
      simp [outerAt, show i < t.regions.length by omega]
  have top : ∀ g, (t.addRegion kind outer).2.latestUnder g (t.regions.length + 1) =
      if outer = g then some ⟨t.regions.length⟩ else t.latestUnder g t.regions.length := by
    intro g
    simp only [latestUnder, outerAt, lt_irrefl, if_false, if_true, Option.some.injEq,
      old g _ le_rfl]
  constructor
  · rw [root_addRegion, length_regions_addRegion, top, linked.root]
  · intro j r found
    rw [length_regions_addRegion, top]
    rcases regions_addRegion_cases found with ⟨r₀, found₀, below, rfl⟩ | ⟨rfl, rfl⟩
    · by_cases under : outer = some ⟨j⟩
      · simp [under]
      · simp [under, linked.inner j r₀ found₀]
    · -- the new region has nothing under it yet
      have notUnder : outer ≠ some ⟨t.regions.length⟩ := by
        rintro rfl
        exact lt_irrefl _ (outerLive _ rfl)
      simp only [newRegion, if_neg notUnder]
      exact (linked.latestUnder_dead le_rfl).symm
  · intro j r found
    rcases regions_addRegion_cases found with ⟨r₀, found₀, below, rfl⟩ | ⟨rfl, rfl⟩
    · rw [old _ j below.le]
      split_ifs <;> exact linked.nextPeer j r₀ found₀
    · rw [old _ _ le_rfl]
      exact linked.chainHead_eq outer
  · intro j r p found under
    rcases regions_addRegion_cases found with ⟨r₀, found₀, below, rfl⟩ | ⟨rfl, rfl⟩
    · split_ifs at under <;> exact linked.outer_lt j r₀ p found₀ under
    · exact outerLive p under

theorem addAlias (linked : t.Linked) (target : RegionId) : (t.addAlias target).2.Linked := by
  have outerAt : ∀ i, (t.addAlias target).2.outerAt? i = t.outerAt? i := by
    intro i
    simp only [outerAt?, getElem?_regions_addAlias, Option.map_map]
    congr 1
    funext r
    split_ifs <;> rfl
  have same : ∀ g k, (t.addAlias target).2.latestUnder g k = t.latestUnder g k :=
    fun g k => latestUnder_congr fun i _ => outerAt i
  constructor
  · rw [root_addAlias, length_regions_addAlias, same, linked.root]
  · intro j r found
    obtain ⟨r₀, found₀, rfl⟩ := regions_addAlias_cases found
    rw [length_regions_addAlias, same]
    split_ifs <;> exact linked.inner j r₀ found₀
  · intro j r found
    obtain ⟨r₀, found₀, rfl⟩ := regions_addAlias_cases found
    rw [same]
    split_ifs <;> exact linked.nextPeer j r₀ found₀
  · intro j r p found under
    obtain ⟨r₀, found₀, rfl⟩ := regions_addAlias_cases found
    split_ifs at under <;> exact linked.outer_lt j r₀ p found₀ under

variable {x x' y : RegionId} {m m' : Move}

/-- Every link leads into the table. -/
theorem link_lt (linked : t.Linked) (link : t.link x m = some y) : y.val < t.regions.length := by
  cases m with
  | inner =>
    rw [linked.link_inner] at link
    exact (latestUnder_eq_some.mp link).1
  | next =>
    rw [linked.link_next] at link
    obtain ⟨g, own, next⟩ := Option.bind_eq_some_iff.mp link
    exact lt_trans (latestUnder_eq_some.mp next).1 (lt_of_outerAt? own)

/-- The root is no region's inner or next-peer link. -/
theorem root_ne_link (linked : t.Linked) (root : t.root = some y) (link : t.link x m = some y) :
    False := by
  rw [linked.root] at root
  cases m with
  | inner =>
    rw [linked.link_inner] at link
    have under := (latestUnder_eq_some.mp link).2.1
    rw [(latestUnder_eq_some.mp root).2.1] at under
    simp at under
  | next =>
    rw [linked.link_next] at link
    obtain ⟨g, own, next⟩ := Option.bind_eq_some_iff.mp link
    exact not_latest_of_next root own next

/-- Every region has one incoming link at most: two links into the same region
are the same move from the same region. -/
theorem link_injective (linked : t.Linked) (first : t.link x m = some y)
    (second : t.link x' m' = some y) : x = x' ∧ m = m' := by
  cases m with
  | inner =>
    rw [linked.link_inner] at first
    cases m' with
    | inner =>
      -- both are the outer region of `y`
      rw [linked.link_inner] at second
      have under := (latestUnder_eq_some.mp first).2.1
      rw [(latestUnder_eq_some.mp second).2.1] at under
      simpa using under.symm
    | next =>
      rw [linked.link_next] at second
      obtain ⟨g, own, next⟩ := Option.bind_eq_some_iff.mp second
      exact (not_latest_of_next first own next).elim
  | next =>
    rw [linked.link_next] at first
    obtain ⟨g, own, next⟩ := Option.bind_eq_some_iff.mp first
    cases m' with
    | inner =>
      rw [linked.link_inner] at second
      exact (not_latest_of_next second own next).elim
    | next =>
      -- both are the first region above `y` under its outer region
      rw [linked.link_next] at second
      obtain ⟨g', own', next'⟩ := Option.bind_eq_some_iff.mp second
      obtain ⟨below, yOwn, noneAbove⟩ := latestUnder_eq_some.mp next
      obtain ⟨below', yOwn', noneAbove'⟩ := latestUnder_eq_some.mp next'
      obtain rfl : g = g' := Option.some.inj (yOwn.symm.trans yOwn')
      have same : x.val = x'.val := by
        rcases Nat.lt_trichotomy x.val x'.val with lower | same | higher
        · exact (noneAbove' x.val below lower own).elim
        · exact same
        · exact (noneAbove x'.val below' higher own').elim
      cases x
      cases x'
      simp_all

/-- Every walk from the root ends in the table. -/
theorem follow_lt (linked : t.Linked) {path : List Move} (reached : t.follow path = some y) :
    y.val < t.regions.length := by
  induction path using List.reverseRecOn generalizing y with
  | nil =>
    have root : t.root = some y := reached
    rw [linked.root] at root
    exact (latestUnder_eq_some.mp root).1
  | append_singleton path m ih =>
    rw [follow, walk_concat] at reached
    obtain ⟨x, -, link⟩ := Option.bind_eq_some_iff.mp reached
    exact linked.link_lt link

/-- Two walks from the root that end at the same region are the same walk:
following the unique incoming link back from the end. -/
theorem follow_injective (linked : t.Linked) {p q : List Move}
    (reachedP : t.follow p = some y) (reachedQ : t.follow q = some y) : p = q := by
  induction p using List.reverseRecOn generalizing q y with
  | nil =>
    rcases List.eq_nil_or_concat' q with rfl | ⟨q, m, rfl⟩
    · rfl
    · rw [follow, walk_concat] at reachedQ
      obtain ⟨x, -, link⟩ := Option.bind_eq_some_iff.mp reachedQ
      exact (linked.root_ne_link reachedP link).elim
  | append_singleton p m ih =>
    rw [follow, walk_concat] at reachedP
    obtain ⟨x, atX, link⟩ := Option.bind_eq_some_iff.mp reachedP
    rcases List.eq_nil_or_concat' q with rfl | ⟨q, m', rfl⟩
    · exact (linked.root_ne_link reachedQ link).elim
    · rw [follow, walk_concat] at reachedQ
      obtain ⟨x', atX', link'⟩ := Option.bind_eq_some_iff.mp reachedQ
      obtain ⟨rfl, rfl⟩ := linked.link_injective link link'
      rw [ih atX atX']

/-- Every region under `g` below the bound is reached from the latest of them
by next-peer links. -/
theorem walk_chain (linked : t.Linked) (g : Option RegionId) (bound : Nat) :
    bound ≤ t.regions.length → ∀ j < bound, t.outerAt? j = some g →
      ∃ k, t.walk (t.latestUnder g bound) (List.replicate k .next) = some ⟨j⟩ := by
  induction bound using Nat.strong_induction_on with
  | _ bound ih =>
    intro small j below own
    cases latest : t.latestUnder g bound with
    | none => exact absurd own (latestUnder_eq_none.mp latest j below)
    | some c =>
      obtain ⟨cBelow, cOwn, -⟩ := latestUnder_eq_some.mp latest
      rcases (le_of_latestUnder latest below own).lt_or_eq with earlier | rfl
      · -- `j` comes after the latest one's next peer, the latest below it
        obtain ⟨k, walked⟩ := ih c.val cBelow (by omega) j earlier own
        refine ⟨k + 1, ?_⟩
        rw [List.replicate_succ, walk, Option.bind_some, linked.link_next, cOwn, Option.bind_some]
        exact walked
      · exact ⟨0, rfl⟩

/-- Every region is reached from the root: by its outer region's walk, then
into that region's inner chain and along it. -/
theorem follow_complete (linked : t.Linked) (j : Nat) :
    j < t.regions.length → ∃ path, t.follow path = some ⟨j⟩ := by
  induction j using Nat.strong_induction_on with
  | _ j ih =>
    intro below
    obtain ⟨r, found⟩ : ∃ r, t.regions[j]? = some r :=
      ⟨t.regions[j], List.getElem?_eq_getElem below⟩
    have own : t.outerAt? j = some r.outer := by simp [outerAt?, found]
    cases under : r.outer with
    | none =>
      obtain ⟨k, walked⟩ := linked.walk_chain none _ le_rfl j below (under ▸ own)
      exact ⟨List.replicate k .next, by rwa [follow, linked.root]⟩
    | some p =>
      obtain ⟨q, reachedP⟩ := ih p.val (linked.outer_lt j r p found under)
        (by have := linked.outer_lt j r p found under; omega)
      obtain ⟨k, walked⟩ := linked.walk_chain (some p) _ le_rfl j below (under ▸ own)
      refine ⟨q ++ .inner :: List.replicate k .next, ?_⟩
      rw [follow, walk_append, ← follow, reachedP, walk, Option.bind_some, linked.link_inner]
      exact walked

/-- A walk along next-peer links stays under one outer region. -/
theorem walk_next_outerAt? (linked : t.Linked) {g : Option RegionId} (k : Nat) {start : Option RegionId}
    (own : ∀ x ∈ start, t.outerAt? x.val = some g)
    (walked : t.walk start (List.replicate k .next) = some y) : t.outerAt? y.val = some g := by
  induction k generalizing start with
  | zero => exact own y walked
  | succ k ih =>
    rw [List.replicate_succ, walk] at walked
    refine ih (fun z step => ?_) walked
    obtain ⟨x, atX, link⟩ := Option.bind_eq_some_iff.mp step
    rw [linked.link_next, own x atX, Option.bind_some] at link
    exact (latestUnder_eq_some.mp link).2.1

/-- The chain a region lies in is its outer region's, or the root chain for a
top-level region. -/
theorem inChainOf_iff (linked : t.Linked) (found : t.regions[j]? = some r) :
    t.InChainOf parent ⟨j⟩ ↔ r.outer = parent := by
  have own : t.outerAt? j = some r.outer := by simp [outerAt?, found]
  constructor
  · rintro ⟨k, walked⟩
    rw [linked.chainHead_eq] at walked
    have under := linked.walk_next_outerAt? k
      (fun x latest => (latestUnder_eq_some.mp latest).2.1) walked
    rw [own] at under
    exact Option.some.inj under
  · rintro rfl
    obtain ⟨k, walked⟩ := linked.walk_chain r.outer _ le_rfl j
      (List.getElem?_eq_some_iff.mp found).1 own
    exact ⟨k, by rwa [linked.chainHead_eq]⟩

end Linked

/-! ### Numbers and slots -/

theorem mem_insertAscending {a x : UInt32} {l : List UInt32} :
    a ∈ insertAscending x l ↔ a = x ∨ a ∈ l := by
  induction l with
  | nil => simp [insertAscending]
  | cons y ys ih =>
    simp only [insertAscending]
    split_ifs with lower same
    · simp
    · obtain rfl : x = y := by simpa using same
      simp
    · simp only [List.mem_cons, ih]
      tauto

/-- The numbering as `addRegion` and `addAlias` leave it: each region's number
is the 32-bit form of its home slot, the first slot naming it, and home slots
increase with region ids; every slot names a region that has the slot's number
or lists it as an alias, and every alias is such a slot; the last number is
the last slot's. -/
structure Numbered (t : EhTable) : Prop where
  home : ∀ (j : Nat) (r : EhRegion), t.regions[j]? = some r →
    some ⟨j⟩ ∈ t.slots ∧ r.number = (t.home ⟨j⟩).toUInt32
  home_lt : ∀ i j : Nat, i < j → j < t.regions.length → t.home ⟨i⟩ < t.home ⟨j⟩
  slot : ∀ (k : Nat) (id : RegionId), t.slots[k]? = some (some id) →
    ∃ r, t.regions[id.val]? = some r ∧ (r.number = k.toUInt32 ∨ k.toUInt32 ∈ r.aka)
  aka : ∀ (j : Nat) (r : EhRegion) (a : UInt32), t.regions[j]? = some r → a ∈ r.aka →
    ∃ k : Nat, t.slots[k]? = some (some ⟨j⟩) ∧ k.toUInt32 = a
  last : t.lastRegionNumber = (t.slots.length - 1).toUInt32

theorem empty_numbered : ({} : EhTable).Numbered where
  home _ _ found := by simp at found
  home_lt _ _ _ below := by simp at below
  slot _ _ found := by simp at found
  aka _ _ _ found := by simp at found
  last := rfl

namespace Numbered

/-- Slots appended after a region's home leave its home where it was. -/
theorem home_append (extra : List (Option RegionId)) {id : RegionId} (named : some id ∈ t.slots) :
    (t.slots ++ extra).idxOf (some id) = t.home id :=
  List.idxOf_append_of_mem named

theorem home_lt_length (numbered : t.Numbered) {i : Nat} (below : i < t.regions.length) :
    t.home ⟨i⟩ < t.slots.length :=
  List.idxOf_lt_length_of_mem (numbered.home i _ (List.getElem?_eq_getElem below)).1

/-- Every slot names a region of the table. -/
theorem slot_lt (numbered : t.Numbered) {k : Nat} {id : RegionId}
    (named : t.slots[k]? = some (some id)) : id.val < t.regions.length := by
  obtain ⟨r, found, -⟩ := numbered.slot k id named
  exact (List.getElem?_eq_some_iff.mp found).1

theorem addRegion (numbered : t.Numbered) :
    (t.addRegion kind outer).2.Numbered := by
  have fresh : some ⟨t.regions.length⟩ ∉ t.slots := by
    intro named
    obtain ⟨k, below, same⟩ := List.getElem_of_mem named
    exact lt_irrefl _ (numbered.slot_lt (k := k) (by rw [List.getElem?_eq_getElem below, same]))
  have homeNew : (t.addRegion kind outer).2.home ⟨t.regions.length⟩ = t.slots.length := by
    simp [EhTable.home, slots_addRegion, List.idxOf_append_of_notMem fresh]
  have homeOld : ∀ i, i < t.regions.length →
      (t.addRegion kind outer).2.home ⟨i⟩ = t.home ⟨i⟩ :=
    fun i below => by
      rw [EhTable.home, slots_addRegion, id_addRegion]
      exact home_append _ (numbered.home i _ (List.getElem?_eq_getElem below)).1
  constructor
  · intro j r found
    rw [slots_addRegion, id_addRegion]
    rcases regions_addRegion_cases found with ⟨r₀, found₀, below, rfl⟩ | ⟨rfl, rfl⟩
    · obtain ⟨named, number⟩ := numbered.home j r₀ found₀
      refine ⟨List.mem_append_left _ named, ?_⟩
      rw [homeOld j below]
      split_ifs <;> exact number
    · exact ⟨by simp, by rw [homeNew]; rfl⟩
  · intro i j lower below
    rw [length_regions_addRegion] at below
    rcases Nat.lt_succ_iff_lt_or_eq.mp below with old | rfl
    · rw [homeOld i (by omega), homeOld j old]
      exact numbered.home_lt i j lower old
    · rw [homeOld i lower, homeNew]
      exact numbered.home_lt_length lower
  · intro k id named
    rw [slots_addRegion, id_addRegion] at named
    rcases getElem?_append_singleton_eq_some named with old | ⟨rfl, same⟩
    · -- an old slot keeps its region's number and aliases
      obtain ⟨r₀, found₀, names⟩ := numbered.slot k id old
      refine ⟨_, getElem?_regions_addRegion_old found₀, ?_⟩
      split_ifs <;> exact names
    · -- the new slot names the new region
      obtain rfl := Option.some.inj same
      exact ⟨t.newRegion kind outer, getElem?_regions_addRegion_new, .inl rfl⟩
  · intro j r a found member
    rw [slots_addRegion, id_addRegion]
    rcases regions_addRegion_cases found with ⟨r₀, found₀, below, rfl⟩ | ⟨rfl, rfl⟩
    · have : a ∈ r₀.aka := by split_ifs at member <;> exact member
      obtain ⟨k, named, number⟩ := numbered.aka j r₀ a found₀ this
      exact ⟨k, getElem?_append_of_eq_some named, number⟩
    · simp [newRegion] at member
  · simp [slots_addRegion]

theorem addAlias (numbered : t.Numbered) (live : target.val < t.regions.length) :
    (t.addAlias target).2.Numbered := by
  have homeOld : ∀ i, i < t.regions.length → (t.addAlias target).2.home ⟨i⟩ = t.home ⟨i⟩ :=
    fun i below => home_append _ (numbered.home i _ (List.getElem?_eq_getElem below)).1
  constructor
  · intro j r found
    obtain ⟨r₀, found₀, rfl⟩ := regions_addAlias_cases found
    obtain ⟨named, number⟩ := numbered.home j r₀ found₀
    refine ⟨List.mem_append_left _ named, ?_⟩
    rw [homeOld j (List.getElem?_eq_some_iff.mp found₀).1]
    split_ifs <;> exact number
  · intro i j lower below
    rw [length_regions_addAlias] at below
    rw [homeOld i (by omega), homeOld j below]
    exact numbered.home_lt i j lower below
  · intro k id named
    rw [slots_addAlias] at named
    rcases getElem?_append_singleton_eq_some named with old | ⟨rfl, same⟩
    · -- an old slot: its region only gains aliases
      obtain ⟨r₀, found₀, names⟩ := numbered.slot k id old
      refine ⟨_, getElem?_regions_addAlias_old found₀, ?_⟩
      split_ifs
      · rcases names with number | aliased
        · exact .inl number
        · exact .inr (mem_insertAscending.mpr (.inr aliased))
      · exact names
    · -- the new slot is an alias of the target
      obtain rfl := Option.some.inj same
      obtain ⟨r₀, found₀⟩ : ∃ r, t.regions[target.val]? = some r :=
        ⟨t.regions[target.val], List.getElem?_eq_getElem live⟩
      refine ⟨_, getElem?_regions_addAlias_old found₀, .inr ?_⟩
      simp [mem_insertAscending]
  · intro j r a found member
    obtain ⟨r₀, found₀, rfl⟩ := regions_addAlias_cases found
    split_ifs at member with isTarget
    · rcases mem_insertAscending.mp member with rfl | old
      · -- the alias just made: the new slot
        refine ⟨t.slots.length, ?_, rfl⟩
        obtain ⟨v⟩ := target
        simp_all
      · obtain ⟨k, named, number⟩ := numbered.aka j r₀ a found₀ old
        exact ⟨k, getElem?_append_of_eq_some named, number⟩
    · obtain ⟨k, named, number⟩ := numbered.aka j r₀ a found₀ member
      exact ⟨k, getElem?_append_of_eq_some named, number⟩
  · simp

/-- Each region's home slot names it. -/
theorem home_slot (numbered : t.Numbered) (found : t.regions[j]? = some r) :
    t.slots[t.home ⟨j⟩]? = some (some ⟨j⟩) ∧ r.number = (t.home ⟨j⟩).toUInt32 :=
  ⟨List.getElem?_idxOf (numbered.home j r found).1, (numbered.home j r found).2⟩

/-- While the slots fit in 32 bits, region numbers increase with region ids. -/
theorem number_lt (numbered : t.Numbered) (fits : t.slots.length ≤ UInt32.size) {i : Nat}
    {ri rj : EhRegion} (lower : i < j) (foundI : t.regions[i]? = some ri)
    (foundJ : t.regions[j]? = some rj) : ri.number < rj.number := by
  have below := (List.getElem?_eq_some_iff.mp foundJ).1
  have homes := numbered.home_lt i j lower below
  have fitsJ := numbered.home_lt_length below
  have size : UInt32.size = 4294967296 := rfl
  rw [(numbered.home i ri foundI).2, (numbered.home j rj foundJ).2, UInt32.lt_iff_toNat_lt]
  simp only [Nat.toUInt32_eq, UInt32.toNat_ofNat']
  rw [Nat.mod_eq_of_lt (by omega), Nat.mod_eq_of_lt (by omega)]
  exact homes

end Numbered

/-! ### Tables built by the two calls -/

/-- A link inside a table stays inside it as regions are appended. -/
theorem inRange_mono {link : Option RegionId} (inside : t.inRange link = true)
    (grows : t.regions.length ≤ t'.regions.length) : t'.inRange link = true := by
  cases link with
  | none => rfl
  | some id =>
    simp only [inRange, decide_eq_true_eq] at inside ⊢
    omega

theorem inRange_latestUnder (small : bound ≤ t.regions.length) :
    t.inRange (t.latestUnder parent bound) = true := by
  cases latest : t.latestUnder parent bound with
  | none => rfl
  | some c =>
    simp only [inRange, decide_eq_true_eq]
    exact lt_of_lt_of_le (latestUnder_eq_some.mp latest).1 small

/-- What every table built by the two calls satisfies: its links, its
numbering, and kind links that stay inside the table. -/
structure WellFormed (t : EhTable) : Prop where
  linked : t.Linked
  numbered : t.Numbered
  kinds : ∀ (j : Nat) (r : EhRegion), t.regions[j]? = some r →
    ∀ l ∈ r.kind.links, t.inRange l = true

theorem empty_wellFormed : ({} : EhTable).WellFormed :=
  ⟨empty_linked, empty_numbered, fun _ _ found => by simp at found⟩

theorem WellFormed.step (wf : t.WellFormed) (step : Step t t') : t'.WellFormed := by
  cases step with
  | addRegion kind outer outerLive kindLive =>
    refine ⟨wf.linked.addRegion outerLive, wf.numbered.addRegion, fun j r found l member => ?_⟩
    have grows : t.regions.length ≤ (t.addRegion kind outer).2.regions.length := by simp
    rcases regions_addRegion_cases found with ⟨r₀, found₀, -, rfl⟩ | ⟨rfl, rfl⟩
    · have old : l ∈ r₀.kind.links := by split_ifs at member <;> exact member
      exact inRange_mono (wf.kinds j r₀ found₀ l old) grows
    · exact inRange_mono (kindLive l member) grows
  | addAlias target live =>
    refine ⟨wf.linked.addAlias target, wf.numbered.addAlias live, fun j r found l member => ?_⟩
    obtain ⟨r₀, found₀, rfl⟩ := regions_addAlias_cases found
    have old : l ∈ r₀.kind.links := by split_ifs at member <;> exact member
    exact inRange_mono (wf.kinds j r₀ found₀ l old) (by simp)

theorem Reachable.wellFormed (reach : t.Reachable) : t.WellFormed := by
  induction reach with
  | refl => exact empty_wellFormed
  | tail _ step wf => exact wf.step step

namespace WellFormed

/-- No region has a link outside the table. -/
theorem firstDangling_eq_none (wf : t.WellFormed) : t.firstDangling = none := by
  rw [firstDangling, List.find?_eq_none]
  intro i member
  have below := List.mem_range.mp member
  have found := List.getElem?_eq_getElem below
  simp only [found, Bool.not_eq_eq_eq_not, Bool.not_true, Bool.not_eq_false, List.all_eq_true]
  intro l member
  simp only [List.cons_append, List.nil_append, List.mem_cons] at member
  rcases member with rfl | rfl | rfl | kind
  · -- the outer region was added before
    cases under : t.regions[i].outer with
    | none => rfl
    | some p =>
      have := wf.linked.outer_lt i _ p found under
      simp only [inRange, decide_eq_true_eq]
      omega
  · rw [wf.linked.inner i _ found]
    exact inRange_latestUnder le_rfl
  · rw [wf.linked.nextPeer i _ found]
    exact inRange_latestUnder below.le
  · exact wf.kinds i _ found l kind

/-- Every slot names a region that has the slot's number or lists it as an
alias. -/
theorem firstMismatch_eq_none (wf : t.WellFormed) : t.firstMismatch = none := by
  rw [firstMismatch, List.head?_eq_none_iff, List.filterMap_eq_nil_iff]
  intro k _
  cases named : t.slots[k]? with
  | none => rfl
  | some entry =>
    cases entry with
    | none => rfl
    | some id =>
      obtain ⟨r, found, names⟩ := wf.numbered.slot k id named
      have lookup : t.region? id = some r := found
      simp only [Option.join_some, lookup]
      simp only [Nat.toUInt32_eq] at names
      simpa using names.resolve_left

theorem verify_eq_ok (wf : t.WellFormed) : t.verify = .ok () := by
  have rootIn : t.inRange t.root = true := by
    rw [wf.linked.root]
    exact inRange_latestUnder le_rfl
  simp only [verify, wf.firstDangling_eq_none, rootIn, wf.firstMismatch_eq_none]
  rfl

end WellFormed

/-- Every table built by adding regions under existing outer regions, with
kind links inside the table, and aliases of existing regions passes `verify`.
Each region's number is the 32-bit form of its home slot, which names it; home
slots increase with region ids, so numbers do too while the slots fit in 32
bits. Every slot names a region that has the slot's number or lists it as an
alias, every alias of a region is a slot naming it, and the last number is the
last slot's. The inner and next-peer links form a forest: every region, and
nothing else, is reached from the root by exactly one walk, and the chain a
region lies in is its outer region's. -/
theorem reachable_wellFormed_forest (reach : t.Reachable) :
    t.verify = .ok () ∧
    (∀ (j : Nat) (r : EhRegion), t.regions[j]? = some r →
      t.slots[t.home ⟨j⟩]? = some (some ⟨j⟩) ∧ r.number = (t.home ⟨j⟩).toUInt32) ∧
    (∀ i j : Nat, i < j → j < t.regions.length → t.home ⟨i⟩ < t.home ⟨j⟩) ∧
    (∀ (k : Nat) (id : RegionId), t.slots[k]? = some (some id) →
      ∃ r, t.regions[id.val]? = some r ∧ (r.number = k.toUInt32 ∨ k.toUInt32 ∈ r.aka)) ∧
    (t.slots.length ≤ UInt32.size → ∀ (i j : Nat) (ri rj : EhRegion), i < j →
      t.regions[i]? = some ri → t.regions[j]? = some rj → ri.number < rj.number) ∧
    (∀ (j : Nat) (r : EhRegion) (a : UInt32), t.regions[j]? = some r → a ∈ r.aka →
      ∃ k : Nat, t.slots[k]? = some (some ⟨j⟩) ∧ k.toUInt32 = a) ∧
    t.lastRegionNumber = (t.slots.length - 1).toUInt32 ∧
    (∀ id : RegionId, id.val < t.regions.length → ∃! path, t.follow path = some id) ∧
    (∀ (path : List Move) (id : RegionId), t.follow path = some id → id.val < t.regions.length) ∧
    (∀ (j : Nat) (r : EhRegion), t.regions[j]? = some r →
      ∀ parent, t.InChainOf parent ⟨j⟩ ↔ r.outer = parent) := by
  have wf := reach.wellFormed
  have linked := wf.linked
  have numbered := wf.numbered
  refine ⟨wf.verify_eq_ok, fun j r found => numbered.home_slot found, numbered.home_lt,
    numbered.slot, fun fits i j ri rj lower foundI foundJ => numbered.number_lt fits lower foundI foundJ,
    numbered.aka, numbered.last, fun id below => ?_, fun _ _ reached => linked.follow_lt reached,
    fun j r found parent => linked.inChainOf_iff found⟩
  -- reached by some walk, and any walk reaching it is that one
  obtain ⟨path, reached⟩ := linked.follow_complete id.val below
  exact ⟨path, reached, fun other reachedOther => linked.follow_injective reachedOther reached⟩

/-- A try region holding a cleanup and a must-not-throw region, and a second
number for the cleanup. -/
def tryWithCleanups : EhTable :=
  ((((({} : EhTable).addRegion (.tryBlock none none) none).2.addRegion .cleanup
    (some ⟨0⟩)).2.addRegion .mustNotThrow (some ⟨0⟩)).2.addAlias ⟨1⟩).2

theorem tryWithCleanups_wellFormed_forest :
    tryWithCleanups.Reachable ∧
    tryWithCleanups.verify = .ok () ∧
    (∀ (j : Nat) (r : EhRegion), tryWithCleanups.regions[j]? = some r →
      tryWithCleanups.slots[tryWithCleanups.home ⟨j⟩]? = some (some ⟨j⟩) ∧
        r.number = (tryWithCleanups.home ⟨j⟩).toUInt32) ∧
    (∀ i j : Nat, i < j → j < tryWithCleanups.regions.length →
      tryWithCleanups.home ⟨i⟩ < tryWithCleanups.home ⟨j⟩) ∧
    (∀ (k : Nat) (id : RegionId), tryWithCleanups.slots[k]? = some (some id) →
      ∃ r, tryWithCleanups.regions[id.val]? = some r ∧
        (r.number = k.toUInt32 ∨ k.toUInt32 ∈ r.aka)) ∧
    (tryWithCleanups.slots.length ≤ UInt32.size → ∀ (i j : Nat) (ri rj : EhRegion), i < j →
      tryWithCleanups.regions[i]? = some ri → tryWithCleanups.regions[j]? = some rj →
        ri.number < rj.number) ∧
    (∀ (j : Nat) (r : EhRegion) (a : UInt32), tryWithCleanups.regions[j]? = some r → a ∈ r.aka →
      ∃ k : Nat, tryWithCleanups.slots[k]? = some (some ⟨j⟩) ∧ k.toUInt32 = a) ∧
    tryWithCleanups.lastRegionNumber = (tryWithCleanups.slots.length - 1).toUInt32 ∧
    (∀ id : RegionId, id.val < tryWithCleanups.regions.length →
      ∃! path, tryWithCleanups.follow path = some id) ∧
    (∀ (path : List Move) (id : RegionId), tryWithCleanups.follow path = some id →
      id.val < tryWithCleanups.regions.length) ∧
    (∀ (j : Nat) (r : EhRegion), tryWithCleanups.regions[j]? = some r →
      ∀ parent, tryWithCleanups.InChainOf parent ⟨j⟩ ↔ r.outer = parent) :=
  have reach : tryWithCleanups.Reachable :=
    .tail (.tail (.tail (.single (.addRegion _ _ _ (by simp) (by simp [EhKind.links, inRange])))
      (.addRegion _ _ _ (by simp) (by simp [EhKind.links])))
      (.addRegion _ _ _ (by simp) (by simp [EhKind.links])))
      (.addAlias _ _ (by simp))
  ⟨reach, reachable_wellFormed_forest reach⟩

end EhTable

end IrStream
